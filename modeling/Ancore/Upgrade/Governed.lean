import Ancore.Account.Nonce
import Ancore.Upgrade.Change

/-! # An account under a governor

A governor and the account that it upgrades, on one ledger.  The governor calls `upgrade`
of the account, which asks for the authorization of the account's owner.  The governor
authorizes the calls that it makes itself, and never becomes the owner; so a proposal
takes the very authorization with which the account can be upgraded directly.
-/

namespace Ancore.Upgrade.Governed

open Ancore.Library Ancore.Soroban

/-! ## The ledger -/

structure Deployment where
  governor : Address
  account : Address
  distinct : account ≠ governor

/-- The storage of both contracts. -/
structure Ledger where
  governor : Upgrade.Storage
  account : Account.Storage

def Ledger.empty : Ledger where
  governor := .empty
  account := .empty

/-- A call to either contract from outside of the two. -/
inductive Call where
  | governor (call : Upgrade.Call)
  | account (call : Account.Call)

structure Output where
  value : Val
  /-- the code that the account was updated to -/
  installed : List (BytesN 32)

/-- The code that a call installs: no other entry point of the account updates it. -/
def installedBy : Account.Call → List (BytesN 32)
  | .upgrade newWasmHash => [newWasmHash]
  | _ => []

/-- The argument of a call of `upgrade`. -/
def upgradeArgument (invocation : Invocation) : Option (BytesN 32) :=
  if invocation.function = upgradeSymbol then
    match invocation.args with
    | [.bytes bytes] => if sized : bytes.length = 32 then some ⟨bytes, sized⟩ else none
    | _ => none
  else none

namespace Deployment

variable (deployment : Deployment)

/-- The environment of the account. -/
def direct (env : Env) : Env := { env with currentContract := deployment.account }

/-- The environment of the account in a call that the governor makes, and so authorizes. -/
def nested (env : Env) : Env :=
  { env with
    currentContract := deployment.account
    authorized := fun address => address = deployment.governor || env.authorized address }

/-- The environment of the governor: a call of `upgrade` of the account runs there. -/
def governing (env : Env) (account : Account.Storage) : Env :=
  { env with
    currentContract := deployment.governor
    callee := fun calls invocation =>
      if invocation.contract = deployment.account then do
        let newWasmHash ← upgradeArgument invocation
        let result ← Account.step (deployment.nested env, .upgrade newWasmHash) account
        return result.1.1
      else env.callee calls invocation }

/-- What a call of the governor does to the account. -/
def invoked (env : Env) (state : Account.Storage × List (BytesN 32)) (invocation : Invocation) :
    Account.Storage × List (BytesN 32) :=
  if invocation.contract = deployment.account then
    match upgradeArgument invocation with
    | some newWasmHash =>
      match Account.step (deployment.nested env, .upgrade newWasmHash) state.1 with
      | some (_, account) => (account, state.2 ++ [newWasmHash])
      | none => state
    | none => state
  else state

/-- One transaction. -/
def step (input : Env × Call) (ledger : Ledger) : Option (Output × Ledger) :=
  match input.2 with
  | .account call =>
    (Account.step (deployment.direct input.1, call) ledger.account).map fun result =>
      (⟨result.1.1, installedBy call⟩, { ledger with account := result.2 })
  | .governor call =>
    (Upgrade.step (deployment.governing input.1 ledger.account, call) ledger.governor).map
      fun result =>
        let (account, installed) :=
          (invocations result.1.2).foldl (deployment.invoked input.1) (ledger.account, [])
        (⟨result.1.1, installed⟩, ⟨result.2, account⟩)

end Deployment

abbrev LedgerTransition := Transition Ledger (Env × Call) Output

/-! ## The account in a call of the governor -/

section Nested

variable {deployment : Deployment} {env : Env} {account : Account.Storage}
  {newWasmHash : BytesN 32}

theorem upgradeArgument_upgradeCall (target : Address) (proposal : Proposal) :
    upgradeArgument (upgradeCall target proposal) = some proposal.wasmHash := by
  simp [upgradeArgument, upgradeCall, proposal.wasmHash.property]

/-- When the account can be upgraded, and to what. -/
theorem account_upgrade (host : Env)
    {result : (Val × List Account.AccountEffect) × Account.Storage} :
    Account.step (host, .upgrade newWasmHash) account = some result ↔
      ∃ owner, Account.OwnerAuthority host account owner ∧ newWasmHash ≠ zeroBytes ∧
        ∃ nextVersion : UInt32, nextVersion.toNat = account.getVersion.toNat + 1 ∧
          host.wasmUploaded newWasmHash = true ∧
          result = ((.void, Account.ownerEffects owner [.updateWasm newWasmHash]
            (.upgraded newWasmHash)), { account with version := some nextVersion }) := by
  obtain ⟨⟨value, effects⟩, after⟩ := result
  rw [Account.step, Contract.invoke_eq_some]
  simp only [Account.dispatch, returnVoid_ok, Account.upgrade_ok, Prod.mk.injEq, Frame.mk.injEq,
    true_and, List.nil_append]
  constructor
  · rintro ⟨⟨owner, authority, nonzero, nextVersion, next, uploaded, rfl, rfl⟩, rfl⟩
    exact ⟨owner, authority, nonzero, nextVersion, next, uploaded, ⟨rfl, rfl⟩, rfl⟩
  · rintro ⟨owner, authority, nonzero, nextVersion, next, uploaded, ⟨rfl, rfl⟩, rfl⟩
    exact ⟨⟨owner, authority, nonzero, nextVersion, next, uploaded, rfl, rfl⟩, rfl⟩

/-- Where the governor is not the owner, a call from it needs what a direct one needs. -/
theorem nested_eq_direct (foreign : account.owner ≠ some deployment.governor) :
    Account.step (deployment.nested env, .upgrade newWasmHash) account =
      Account.step (deployment.direct env, .upgrade newWasmHash) account := by
  have authority (owner : Address) :
      Account.OwnerAuthority (deployment.nested env) account owner ↔
        Account.OwnerAuthority (deployment.direct env) account owner := by
    constructor
    · rintro ⟨registered, authorized⟩
      refine ⟨registered, ?_⟩
      simp only [Deployment.nested, Bool.or_eq_true, decide_eq_true_eq] at authorized
      obtain rfl | authorized := authorized
      · exact absurd registered foreign
      · exact authorized
    · rintro ⟨registered, authorized⟩
      refine ⟨registered, ?_⟩
      simp only [Deployment.nested, Bool.or_eq_true]
      exact .inr authorized
  ext result
  rw [account_upgrade, account_upgrade]
  simp only [authority]
  rfl

end Nested

/-! ## The owner is never the governor -/

/-- An account that the governor does not own. -/
structure Foreign (deployment : Deployment) (account : Account.Storage) : Prop where
  ownerFirst : account.OwnerFirst
  notGovernor : account.owner ≠ some deployment.governor

section Owners

variable {deployment : Deployment} {env : Env} {account after : Account.Storage}

theorem Foreign.empty : Foreign deployment .empty where
  ownerFirst := by constructor <;> intros <;> rfl
  notGovernor := nofun

theorem authorized_of_initialize {host : Env} {owner : Address} {authorizers : List Address}
    (change : Account.Change host account (.initializeAccount owner) authorizers after) :
    host.authorized owner = true := by
  cases change with
  | initializeAccount fresh authorized => exact authorized

/-- Who initializes an account authorizes it, and the governor authorizes nothing. -/
theorem Foreign.step (foreign : Foreign deployment account) {host : Env} {call : Account.Call}
    (unsigned : host.authorized deployment.governor = false)
    {result : Val × List Account.AccountEffect}
    (performed : Account.step (host, call) account = some (result, after)) :
    Foreign deployment after := by
  have change := Account.step_change performed
  refine ⟨change.ownerFirst foreign.ownerFirst, ?_⟩
  obtain ⟨owner, initializes, -, registered⟩ | ⟨-, kept⟩ := change.owner foreign.ownerFirst
  · subst initializes
    rw [registered]
    intro same
    cases same
    have authorized := authorized_of_initialize change
    rw [unsigned] at authorized
    cases authorized
  · rw [kept]
    exact foreign.notGovernor

/-- The account after calls of the governor, and what they installed. -/
structure Installed (deployment : Deployment) (env : Env) (start : Account.Storage)
    (state : Account.Storage × List (BytesN 32)) : Prop where
  foreign : Foreign deployment state.1
  owner : state.1.owner = start.owner
  authorized : ∀ newWasmHash ∈ state.2,
    ∃ owner, start.owner = some owner ∧ env.authorized owner = true

theorem Installed.invoked {state : Account.Storage × List (BytesN 32)}
    (installed : Installed deployment env account state)
    (unsigned : env.authorized deployment.governor = false) (invocation : Invocation) :
    Installed deployment env account (deployment.invoked env state invocation) := by
  rw [Deployment.invoked]
  split
  · split
    · rename_i newWasmHash _
      split
      · rename_i result after performed
        rw [nested_eq_direct installed.foreign.notGovernor] at performed
        have foreign := installed.foreign.step
          (show (deployment.direct env).authorized deployment.governor = false from unsigned)
          performed
        obtain ⟨owner, authority, -, nextVersion, -, -, same⟩ :=
          (account_upgrade (deployment.direct env)).mp performed
        refine ⟨foreign, ?_, fun other member => ?_⟩
        · rw [(Prod.mk.inj same).2]
          exact installed.owner
        · obtain earlier | added := List.mem_append.mp member
          · exact installed.authorized other earlier
          · exact ⟨owner, installed.owner ▸ authority.registered, authority.authorized⟩
      · exact installed
    · exact installed
  · exact installed

theorem Installed.foldl {state : Account.Storage × List (BytesN 32)}
    (installed : Installed deployment env account state)
    (unsigned : env.authorized deployment.governor = false) (invocations : List Invocation) :
    Installed deployment env account (invocations.foldl (deployment.invoked env) state) := by
  induction invocations generalizing state with
  | nil => exact installed
  | cons invocation invocations inductionHypothesis =>
    exact inductionHypothesis (installed.invoked unsigned invocation)

theorem installed_of_step {transition : LedgerTransition}
    (foreign : Foreign deployment transition.before.account)
    (unsigned : transition.input.1.authorized deployment.governor = false)
    (performed : transition.Performed deployment.step) :
    Foreign deployment transition.after.account ∧
      ∀ newWasmHash ∈ transition.output.installed, ∃ owner,
        transition.before.account.owner = some owner ∧
          transition.input.1.authorized owner = true := by
  obtain ⟨⟨env, call⟩, before, output, after⟩ := transition
  dsimp only at foreign unsigned ⊢
  cases call with
  | governor call =>
    have performed : deployment.step (env, .governor call) before = some (output, after) :=
      performed
    obtain ⟨result, -, made⟩ := Option.map_eq_some_iff.mp performed
    cases made
    have start : Installed deployment env before.account (before.account, []) :=
      ⟨foreign, rfl, List.forall_mem_nil _⟩
    have installed := start.foldl unsigned (invocations result.1.2)
    exact ⟨installed.foreign, installed.authorized⟩
  | account call =>
    have performed : deployment.step (env, .account call) before = some (output, after) :=
      performed
    obtain ⟨⟨result, account⟩, called, made⟩ := Option.map_eq_some_iff.mp performed
    cases made
    refine ⟨foreign.step
      (show (deployment.direct env).authorized deployment.governor = false from unsigned) called,
      fun newWasmHash member => ?_⟩
    cases call with
    | upgrade wasmHash =>
      obtain ⟨owner, authority, -⟩ := (account_upgrade (deployment.direct env)).mp called
      exact ⟨owner, authority.registered, authority.authorized⟩
    | _ => cases member

theorem foreign_invariant (deployment : Deployment) :
    HistoryInvariant deployment.step .empty fun past ledger =>
      (∀ transition ∈ past, transition.input.1.authorized deployment.governor = false) →
        Foreign deployment ledger.account where
  init := fun _ => Foreign.empty
  preserved := by
    intro past transition foreign performed unsigned
    obtain ⟨earlier, latest⟩ := List.forall_mem_append.mp unsigned
    rw [List.forall_mem_singleton] at latest
    exact (installed_of_step (foreign earlier) latest performed).1

end Owners

/-! ## Executions -/

section Executions

variable {deployment : Deployment} {env : Env} {ledger : Ledger} {id : UInt32}

theorem isSome_step_account {call : Account.Call} :
    (deployment.step (env, .account call) ledger).isSome =
      (Account.step (deployment.direct env, call) ledger.account).isSome :=
  Option.isSome_map

theorem isSome_step_governor {call : Upgrade.Call} :
    (deployment.step (env, .governor call) ledger).isSome =
      (Upgrade.step (deployment.governing env ledger.account, call) ledger.governor).isSome :=
  Option.isSome_map

/-- A proposal can be executed when its timelock has elapsed and the account can be upgraded. -/
theorem executable_iff (foreign : Foreign deployment ledger.account) {proposal : Proposal}
    (targeted : ledger.governor.targetAccount = some deployment.account) :
    (∃ target, Executable (deployment.governing env ledger.account) ledger.governor id proposal
        target) ↔
      Pending ledger.governor id proposal ∧ proposal.executeAfter ≤ env.timestamp ∧
        (deployment.step (env, .account (.upgrade proposal.wasmHash)) ledger).isSome = true := by
  have called : (deployment.governing env ledger.account).callee []
      (upgradeCall deployment.account proposal) =
      (Account.step (deployment.nested env, .upgrade proposal.wasmHash) ledger.account).map
        (·.1.1) := by
    dsimp only [Deployment.governing]
    rw [if_pos (by rfl), upgradeArgument_upgradeCall, Option.map_eq_bind]
    rfl
  have answered : ((deployment.governing env ledger.account).callee []
      (upgradeCall deployment.account proposal)).isSome =
      (deployment.step (env, .account (.upgrade proposal.wasmHash)) ledger).isSome := by
    rw [called, Option.isSome_map, nested_eq_direct foreign.notGovernor, isSome_step_account]
  constructor
  · rintro ⟨target, pending, elapsed, target', foreign, accepted⟩
    cases target'.symm.trans targeted
    exact ⟨pending, elapsed, answered ▸ accepted⟩
  · rintro ⟨pending, elapsed, accepted⟩
    exact ⟨deployment.account, pending, elapsed, targeted, deployment.distinct,
      answered.symm ▸ accepted⟩

end Executions

/-- In every run in which nobody signs for the governor, a proposal for the account can be executed
when its timelock has elapsed and the same transaction could upgrade the account directly, and each
update of the account was authorized by its owner, who is not the governor. -/
theorem governor_needs_the_owner (deployment : Deployment) (transactions : List (Env × Call))
    (unsigned : ∀ transaction ∈ transactions,
      transaction.1.authorized deployment.governor = false) :
    (∀ (env : Env) (id : UInt32),
      (final deployment.step .empty transactions).governor.targetAccount =
          some deployment.account →
        ((deployment.step (env, .governor (.executeUpgrade id))
            (final deployment.step .empty transactions)).isSome ↔
          ∃ proposal, Pending (final deployment.step .empty transactions).governor id proposal ∧
            proposal.executeAfter ≤ env.timestamp ∧
            (deployment.step (env, .account (.upgrade proposal.wasmHash))
              (final deployment.step .empty transactions)).isSome)) ∧
      ∀ transition ∈ history deployment.step .empty transactions,
        ∀ newWasmHash ∈ transition.output.installed, ∃ owner,
          transition.before.account.owner = some owner ∧ owner ≠ deployment.governor ∧
            transition.input.1.authorized owner = true := by
  have signless : ∀ transition ∈ history deployment.step .empty transactions,
      transition.input.1.authorized deployment.governor = false := fun transition member =>
    unsigned _ ((history_inputs_sublist _ _ _).subset (List.mem_map_of_mem member))
  constructor
  · intro env id targeted
    have foreign := (foreign_invariant deployment).holds_final transactions signless
    rw [isSome_step_governor, step_executeUpgrade_isSome]
    exact exists_congr fun proposal => executable_iff foreign targeted
  · intro transition member newWasmHash installs
    obtain ⟨earlier, later, located⟩ := List.append_of_mem member
    obtain ⟨foreign, performed⟩ := (foreign_invariant deployment).holds_before located
    have before := foreign fun other made => signless other (by
      rw [located]
      exact List.mem_append_left _ made)
    obtain ⟨owner, registered, authorized⟩ :=
      (installed_of_step before (signless transition member) performed).2 newWasmHash installs
    refine ⟨owner, registered, fun same => ?_, authorized⟩
    rw [same] at registered
    exact before.notGovernor registered

section Sample

def accountOwner : Address := .account (repeatedByte 1)

def sampleDeployment : Deployment where
  governor := .contract (repeatedByte 8)
  account := .contract (repeatedByte 4)
  distinct := by decide

/-- A transaction that the signer has signed. -/
def signedBy (signers : List Address) (call : Call) : Env × Call :=
  (.sample sampleDeployment.governor 0 signers [], call)

/-- Both contracts are set up, and a proposal without a delay is made. -/
def proposingTransactions : List (Env × Call) :=
  [signedBy [accountOwner] (.account (.initializeAccount accountOwner)),
    signedBy [accountOwner]
      (.governor (.initializeGovernor accountOwner sampleDeployment.account 0)),
    signedBy [accountOwner] (.governor (.proposeUpgrade (repeatedByte 7) ⟨0, [], []⟩))]

/-- The proposal can be executed with a signature of the owner, and not without one. -/
theorem governor_needs_the_owner_of_sample :
    (sampleDeployment.step (signedBy [accountOwner] (.governor (.executeUpgrade 1)))
        (final sampleDeployment.step .empty proposingTransactions)).isSome = true ∧
      (sampleDeployment.step (signedBy [] (.governor (.executeUpgrade 1)))
        (final sampleDeployment.step .empty proposingTransactions)).isSome = false := by
  have executions := (governor_needs_the_owner sampleDeployment proposingTransactions
    (by simp [proposingTransactions, signedBy, Env.sample, accountOwner, sampleDeployment])).1
  constructor
  · exact (executions _ 1 rfl).mpr ⟨_, ⟨rfl, rfl, rfl⟩, Nat.le_refl 0, rfl⟩
  · rw [Bool.eq_false_iff]
    intro executed
    obtain ⟨proposal, -, -, upgraded⟩ := (executions _ 1 rfl).mp executed
    rw [isSome_step_account] at upgraded
    obtain ⟨result, performed⟩ := Option.isSome_iff_exists.mp upgraded
    obtain ⟨owner, authority, -⟩ := (account_upgrade _).mp performed
    cases authority.authorized

end Sample

end Ancore.Upgrade.Governed
