import Ancore.Upgrade.Multisig
import Ancore.Upgrade.Proposals

/-! # Re-entry into the governor

The two execution entry points mark a proposal as executed only after the target
has taken the upgrade call.  Here the host does not refuse re-entry: a target
reacts to the call by calling the governor itself (`Reaction`), and
`callThrough` runs an entry point over whatever such a target leaves behind.
-/

namespace Ancore.Upgrade

open Ancore.Library Ancore.Soroban

/-! ## Targets that call back -/

/-- What the target does once its `upgrade` function is called. -/
inductive Reaction where
  | traps
  | returns (answer : Val)
  /-- It calls the governor, reacting to an upgrade call made in there as `within` says, and goes
  on by the answer; a failed call is rolled back and has none. -/
  | calls (env : Env) (call : Call) (within : Reaction) (next : Option Val → Reaction)

/-- The answer, the proposals whose upgrade calls were made, and the storage left behind. -/
abbrev Outcome := (Val × List UInt32) × Storage

/-- The proposal an execution entry point upgrades to. -/
def Call.executes : Call → Option UInt32
  | .executeUpgrade id => some id
  | .executeMultisigUpgrade id => some id
  | _ => none

/-- What `execute_multisig_upgrade` checks before it invokes the target. -/
def getApprovedProposal (proposalId : UInt32) : GovernorM Proposal := do
  let proposal ← getExecutableProposal proposalId
  let storage ← getStorage
  let config ← okOr storage.multisigConfig .notInitialized
  failIf (countSignatures storage proposalId config.signers < config.threshold.toNat)
    .insufficientSignatures
  return proposal

/-- `invokeUpgrade` where the target may call back while it runs. -/
def invokeUpgradeThrough (upgrade : Storage → Option Outcome) (proposalId : UInt32)
    (proposal : Proposal) (storage : Storage) : Option Outcome := do
  let _ ← storage.targetAccount
  let ((_, upgraded), after) ← upgrade storage
  -- marked only now, over whatever the target has left
  some ((.void, proposalId :: upgraded),
    after.setProposal proposalId { proposal with executed := true })

/-- A call to the governor whose target reacts to `upgrade` as given. -/
def callThrough (upgrade : Storage → Option Outcome) (env : Env) (storage : Storage) :
    Call → Option Outcome
  | .executeUpgrade id => do
    let ((proposal, _), _) ← (getExecutableProposal id).invoke env storage
    invokeUpgradeThrough upgrade id proposal storage
  | .executeMultisigUpgrade id => do
    let ((proposal, _), _) ← (getApprovedProposal id).invoke env storage
    invokeUpgradeThrough upgrade id proposal storage
  | call => do
    let ((answer, _), after) ← step (env, call) storage
    some ((answer, []), after)

/-- What the target leaves behind, with all it has called. -/
def Reaction.run : Reaction → Storage → Option Outcome
  | .traps, _ => none
  | .returns answer, storage => some ((answer, []), storage)
  | .calls env call within next, storage =>
    match callThrough within.run env storage call with
    | none => (next none).run storage
    | some ((answer, upgraded), after) => do
      let ((result, later), done) ← (next (some answer)).run after
      some ((result, upgraded ++ later), done)

/-- A call to the governor, with the reaction of its target. -/
abbrev Turn := Env × Call × Reaction

def reentrantStep (turn : Turn) (storage : Storage) : Option Outcome :=
  callThrough turn.2.2.run turn.1 storage turn.2.1

/-- The proposals whose upgrade calls were made in a run, oldest first. -/
def upgradesMade (past : List (Transition Storage Turn (Val × List UInt32))) : List UInt32 :=
  past.flatMap fun transition => transition.output.2

/-! ## What a call through the target does -/

section Inversion

variable {env : Env} {frame : Frame Storage SignatureKey Event} {id : UInt32}
  {result : Proposal × Frame Storage SignatureKey Event}

@[simp] theorem getApprovedProposal_ok :
    getApprovedProposal id env frame = .ok result ↔
      Pending frame.storage id result.1 ∧ result.1.executeAfter ≤ env.timestamp ∧
        (∃ config, Approved frame.storage id config) ∧ result.2 = frame := by
  obtain ⟨proposal, after⟩ := result
  constructor
  · intro performed
    simp only [getApprovedProposal, bind_ok, getExecutableProposal_ok, getStorage_ok, okOr_ok,
      failIf_ok, pure_ok, Prod.mk.injEq, true_and] at performed
    obtain ⟨_, _, ⟨pending, elapsed, rfl⟩, _, _, ⟨rfl, rfl⟩, config, _, ⟨configured, rfl⟩,
      _, _, ⟨enough, rfl⟩, rfl, rfl⟩ := performed
    exact ⟨pending, elapsed, ⟨config, configured, by simpa using enough⟩, rfl⟩
  · rintro ⟨pending, elapsed, ⟨config, configured, enough⟩, rfl⟩
    simp only [getApprovedProposal, bind_ok, getExecutableProposal_ok, getStorage_ok, okOr_ok,
      failIf_ok, pure_ok, Prod.mk.injEq, true_and]
    exact ⟨proposal, _, ⟨pending, elapsed, rfl⟩, _, _, ⟨rfl, rfl⟩, config, _, ⟨configured, rfl⟩,
      (), _, ⟨by simpa using enough, rfl⟩, rfl, rfl⟩

/-- The checks are those of the entry point. -/
theorem executeMultisigUpgrade_eq (id : UInt32) :
    executeMultisigUpgrade id = getApprovedProposal id >>= invokeUpgrade id := by
  funext env frame
  simp only [executeMultisigUpgrade, getApprovedProposal, bind, Contract.bind, pure, Contract.pure]
  cases getExecutableProposal id env frame with
  | error failure => rfl
  | ok found =>
    simp only
    repeat' split
    all_goals simp_all

variable {storage : Storage} {proposal : Proposal} {target : Address} {config : MultisigConfig}

theorem Executable.found (executable : Executable env storage id proposal target) :
    (getExecutableProposal id).invoke env storage = some ((proposal, []), storage) :=
  Contract.invoke_eq_some.mpr
    (getExecutableProposal_ok.mpr ⟨executable.toPending, executable.elapsed, rfl⟩)

theorem Executable.found_of_approved (executable : Executable env storage id proposal target)
    (approved : Approved storage id config) :
    (getApprovedProposal id).invoke env storage = some ((proposal, []), storage) :=
  Contract.invoke_eq_some.mpr (getApprovedProposal_ok.mpr
    ⟨executable.toPending, executable.elapsed, ⟨config, approved⟩, rfl⟩)

end Inversion

/-- What a successful call has found, and what its target has left. -/
inductive Through (upgrade : Storage → Option Outcome) (env : Env) (before : Storage)
    (call : Call) : Outcome → Prop
  | executed {id : UInt32} {proposal : Proposal} {reply : Val} {upgraded : List UInt32}
      {left : Storage} (executes : call.executes = some id) (pending : Pending before id proposal)
      (reacted : upgrade before = some ((reply, upgraded), left)) :
      Through upgrade env before call
        ((.void, id :: upgraded), left.setProposal id { proposal with executed := true })
  | uninvolved {answer : Val} {effects : List GovernorEffect} {after : Storage}
      (quiet : call.executes = none)
      (performed : step (env, call) before = some ((answer, effects), after)) :
      Through upgrade env before call ((answer, []), after)

section CallThrough

variable {upgrade : Storage → Option Outcome} {env : Env} {before : Storage} {call : Call}
  {outcome : Outcome} {id : UInt32} {proposal : Proposal}

theorem invokeUpgradeThrough_eq_some :
    invokeUpgradeThrough upgrade id proposal before = some outcome ↔
      before.targetAccount.isSome ∧ ∃ reply upgraded left,
        upgrade before = some ((reply, upgraded), left) ∧
        ((.void, id :: upgraded), left.setProposal id { proposal with executed := true }) =
          outcome := by
  simp only [invokeUpgradeThrough, Option.bind_eq_bind, Option.bind_eq_some_iff, Option.some.injEq,
    Option.isSome_iff_exists, Prod.exists]
  constructor
  · rintro ⟨target, found, reply, upgraded, left, reacted, same⟩
    exact ⟨⟨target, found⟩, reply, upgraded, left, reacted, same⟩
  · rintro ⟨⟨target, found⟩, reply, upgraded, left, reacted, same⟩
    exact ⟨target, found, reply, upgraded, left, reacted, same⟩

theorem callThrough_spec (called : callThrough upgrade env before call = some outcome) :
    Through upgrade env before call outcome := by
  have uninvolved (quiet : call.executes = none)
      (same : callThrough upgrade env before call =
        (do let ((answer, _), after) ← step (env, call) before; some ((answer, []), after))) :
      Through upgrade env before call outcome := by
    rw [same] at called
    simp only [Option.bind_eq_bind, Option.bind_eq_some_iff, Prod.exists, Option.some.injEq]
      at called
    obtain ⟨answer, effects, after, performed, rfl⟩ := called
    exact .uninvolved quiet performed
  cases call with
  | executeUpgrade id =>
    simp only [callThrough, Option.bind_eq_bind, Option.bind_eq_some_iff, Prod.exists,
      Contract.invoke_eq_some, getExecutableProposal_ok, invokeUpgradeThrough_eq_some] at called
    obtain ⟨proposal, _, _, ⟨pending, _, _⟩, _, reply, upgraded, left, reacted, rfl⟩ := called
    exact .executed rfl pending reacted
  | executeMultisigUpgrade id =>
    simp only [callThrough, Option.bind_eq_bind, Option.bind_eq_some_iff, Prod.exists,
      Contract.invoke_eq_some, getApprovedProposal_ok, invokeUpgradeThrough_eq_some] at called
    obtain ⟨proposal, _, _, ⟨pending, _, _, _⟩, _, reply, upgraded, left, reacted, rfl⟩ := called
    exact .executed rfl pending reacted
  | _ => exact uninvolved rfl rfl

/-- A target that only returns is the one the host's ban on re-entry leaves. -/
theorem callThrough_of_step {answer : Val} {effects : List GovernorEffect} {after : Storage}
    (performed : step (env, call) before = some ((answer, effects), after)) (reply : Val) :
    callThrough (Reaction.returns reply).run env before call =
      some ((answer, call.executes.toList), after) := by
  have change := step_change performed
  generalize invocations effects = invoked at change
  cases change with
  | executeUpgrade executable =>
    simp [callThrough, executable.found, invokeUpgradeThrough, executable.targeted, Reaction.run,
      Call.executes]
  | executeMultisigUpgrade executable approved =>
    simp [callThrough, executable.found_of_approved approved, invokeUpgradeThrough,
      executable.targeted, Reaction.run, Call.executes]
  | _ => simp [callThrough, performed, Call.executes]

end CallThrough

/-! ## Targets that leave running upgrades alone -/

/-- While the upgrade call of a proposal in the list is running, the target does not call for its
execution again. -/
def Reaction.SparesRunning : List UInt32 → Reaction → Prop
  | _, .traps => True
  | _, .returns _ => True
  | running, .calls _ call within next =>
    (∀ id ∈ call.executes, id ∉ running ∧ within.SparesRunning (id :: running)) ∧
      ∀ answer, (next answer).SparesRunning running

/-- No execution in the turn is called for again while it runs. -/
def Turn.NotNested (turn : Turn) : Prop :=
  ∀ id ∈ turn.2.1.executes, turn.2.2.SparesRunning [id]

/-- The proposal is stored as executed. -/
def Storage.Executed (storage : Storage) (id : UInt32) : Prop :=
  ∃ proposal, storage.proposal id = some proposal ∧ proposal.executed = true

/-- What a piece of a transaction keeps: executed proposals stay executed, and those it upgrades to
were not executed before, are different and not running. -/
structure Kept (running : List UInt32) (before : Storage) (upgraded : List UInt32)
    (after : Storage) : Prop where
  fresh : after.IdsFresh
  stored : ∀ id, (before.proposal id).isSome → (after.proposal id).isSome
  executed : ∀ id, before.Executed id → after.Executed id
  nodup : upgraded.Nodup
  marked : ∀ id ∈ upgraded, after.Executed id ∧ ¬ before.Executed id ∧ id ∉ running

section Kept

variable {running : List UInt32} {before middle after : Storage} {first second : List UInt32}
  {id : UInt32} {proposal : Proposal}

theorem Storage.executed_iff_of_eq (same : after.proposal id = before.proposal id) :
    after.Executed id ↔ before.Executed id := by
  simp [Storage.Executed, same]

theorem Storage.Executed.rewrite (executed : before.Executed id) {other : UInt32}
    (mark : other = id → proposal.executed = true) :
    (before.setProposal other proposal).Executed id := by
  by_cases same : other = id
  · subst same
    exact ⟨proposal, Storage.setProposal_same, mark rfl⟩
  · rwa [Storage.executed_iff_of_eq (Storage.setProposal_ne (Ne.symm same))]

theorem Pending.not_executed (pending : Pending before id proposal) : ¬ before.Executed id := by
  rintro ⟨stored, found, executed⟩
  cases pending.stored.symm.trans found
  exact absurd executed (by simp [pending.unexecuted])

theorem Kept.refl (fresh : before.IdsFresh) : Kept running before [] before where
  fresh := fresh
  stored := fun _ present => present
  executed := fun _ executed => executed
  nodup := .nil
  marked := nofun

theorem Kept.trans (earlier : Kept running before first middle)
    (later : Kept running middle second after) : Kept running before (first ++ second) after where
  fresh := later.fresh
  stored := fun id present => later.stored id (earlier.stored id present)
  executed := fun id executed => later.executed id (earlier.executed id executed)
  nodup := by
    refine List.nodup_append'.mpr ⟨earlier.nodup, later.nodup, ?_⟩
    -- what the first part upgraded to is executed when the second part begins
    intro id upgraded again
    exact (later.marked id again).2.1 (earlier.marked id upgraded).1
  marked := by
    intro id member
    rcases List.mem_append.mp member with upgraded | upgraded
    · have marked := earlier.marked id upgraded
      exact ⟨later.executed id marked.1, marked.2⟩
    · have marked := later.marked id upgraded
      exact ⟨marked.1, fun executed => marked.2.1 (earlier.executed id executed), marked.2.2⟩

/-- An upgrade whose target leaves it alone is marked in the end. -/
theorem Kept.upgrade (pending : Pending before id proposal) (unmarked : id ∉ running)
    (reacted : Kept (id :: running) before first middle) :
    Kept running before (id :: first)
      (middle.setProposal id { proposal with executed := true }) where
  fresh := by
    have present : (before.proposal id).isSome := by simp [pending.stored]
    obtain ⟨stored, found⟩ := Option.isSome_iff_exists.mp (reacted.stored id present)
    exact reacted.fresh.rewrite found
  stored := by
    intro other present
    by_cases same : other = id
    · subst same
      simp
    · rw [Storage.setProposal_ne same]
      exact reacted.stored other present
  executed := fun other executed => (reacted.executed other executed).rewrite fun _ => rfl
  nodup := by
    refine List.nodup_cons.mpr ⟨?_, reacted.nodup⟩
    exact fun again => (reacted.marked id again).2.2 List.mem_cons_self
  marked := by
    intro other member
    rcases List.mem_cons.mp member with rfl | upgraded
    · exact ⟨⟨_, Storage.setProposal_same, rfl⟩, pending.not_executed, unmarked⟩
    · obtain ⟨executed, unexecuted, spared⟩ := reacted.marked other upgraded
      exact ⟨executed.rewrite fun _ => rfl, unexecuted,
        fun member => spared (List.mem_cons_of_mem id member)⟩

/-- A call that invokes no target. -/
theorem Change.kept {env : Env} {call : Call} {answer : Val} {invoked : List Invocation}
    (change : Change env before call answer invoked after) (quiet : call.executes = none)
    (fresh : before.IdsFresh) : Kept running before [] after := by
  have untouched (same : ∀ id, (before.proposal id).isSome →
      after.proposal id = before.proposal id) : Kept running before [] after := by
    refine ⟨change.idsFresh fresh, fun id present => ?_, fun id executed => ?_, .nil, nofun⟩
    · rwa [same id present]
    · have present : (before.proposal id).isSome := by
        obtain ⟨proposal, found, _⟩ := executed
        simp [found]
      exact (Storage.executed_iff_of_eq (same id present)).mpr executed
  cases change with
  | executeUpgrade _ => cases quiet
  | executeMultisigUpgrade _ _ => cases quiet
  | @proposeUpgrade _ _ _ opened _ _ _ _ next _ _ =>
    refine untouched fun id present => Storage.setProposal_ne ?_
    rintro rfl
    simp [fresh.unused next] at present
  | @cancelUpgrade id proposal _ _ pending =>
    refine ⟨fresh.rewrite pending.stored, fun other present => ?_, fun other executed => ?_, .nil,
      nofun⟩
    · by_cases same : other = id
      · subst same
        simp
      · rwa [Storage.setProposal_ne same]
    · refine executed.rewrite ?_
      rintro rfl
      exact absurd executed pending.not_executed
  | _ => exact untouched fun _ _ => rfl

end Kept

/-! ## Runs -/

section Runs

variable {upgrade : Storage → Option Outcome} {env : Env} {before : Storage} {call : Call}
  {outcome : Outcome} {running : List UInt32}

theorem Through.kept (through : Through upgrade env before call outcome)
    (fresh : before.IdsFresh) (spared : ∀ id ∈ call.executes, id ∉ running)
    (reacts : ∀ id ∈ call.executes, ∀ reply upgraded left,
      upgrade before = some ((reply, upgraded), left) → Kept (id :: running) before upgraded left) :
    Kept running before outcome.1.2 outcome.2 := by
  cases through with
  | executed executes pending reacted =>
    exact .upgrade pending (spared _ executes) (reacts _ executes _ _ _ reacted)
  | uninvolved quiet performed => exact (step_change performed).kept quiet fresh

/-- A target that leaves the running upgrades alone keeps what the governor relies on. -/
theorem Reaction.run_kept (reaction : Reaction) {running : List UInt32}
    (spares : reaction.SparesRunning running) {before : Storage} (fresh : before.IdsFresh)
    {answer : Val} {upgraded : List UInt32} {after : Storage}
    (ran : reaction.run before = some ((answer, upgraded), after)) :
    Kept running before upgraded after := by
  induction reaction generalizing running before answer upgraded after with
  | traps => cases ran
  | returns answer =>
    cases ran
    exact .refl fresh
  | calls env call within next withinKept nextKept =>
    rw [Reaction.run] at ran
    split at ran
    -- a failed call has left nothing
    · exact nextKept none (spares.2 none) fresh ran
    · rename_i result made left called
      simp only [Option.bind_eq_bind, Option.bind_eq_some_iff, Prod.exists, Option.some.injEq]
        at ran
      obtain ⟨reply, later, done, continued, same⟩ := ran
      cases same
      have first : Kept running before made left :=
        (callThrough_spec called).kept fresh (fun id executes => (spares.1 id executes).1)
          fun id executes _ _ _ reacted => withinKept (spares.1 id executes).2 fresh reacted
      exact first.trans (nextKept _ (spares.2 _) first.fresh continued)

theorem reentrantStep_kept {turn : Turn} (notNested : turn.NotNested) (fresh : before.IdsFresh)
    (called : reentrantStep turn before = some outcome) :
    Kept [] before outcome.1.2 outcome.2 :=
  (callThrough_spec called).kept fresh (fun _ _ => List.not_mem_nil)
    fun id executes _ _ _ reacted => turn.2.2.run_kept (notNested id executes) fresh reacted

theorem run_kept {turns : List Turn} (notNested : ∀ turn ∈ turns, turn.NotNested)
    (fresh : before.IdsFresh) :
    Kept [] before (upgradesMade (history reentrantStep before turns))
      (final reentrantStep before turns) := by
  induction turns generalizing before with
  | nil => exact .refl fresh
  | cons turn turns inductionHypothesis =>
    obtain ⟨first, rest⟩ := List.forall_mem_cons.mp notNested
    simp only [history, final]
    split
    · rename_i output next called
      have kept := reentrantStep_kept first fresh called
      exact kept.trans (inductionHypothesis rest kept.fresh)
    · exact inductionHypothesis rest fresh

end Runs

/-- In every run of turns whose targets do not call for an upgrade again while it runs, each
proposal is upgraded to at most once. -/
theorem upgrades_made_once (turns : List Turn) (notNested : ∀ turn ∈ turns, turn.NotNested) :
    (upgradesMade (history reentrantStep Storage.empty turns)).Nodup :=
  (run_kept notNested idsFresh_invariant.init).nodup

/-! ## Targets that call for the upgrade again -/

/-- A target that calls the entry point it was called from once more, and returns. -/
def Reaction.again (env : Env) (call : Call) : Reaction :=
  .calls env call (.returns .void) fun _ => .returns .void

/-- The second call finds the proposal still pending, so it invokes the target a second time. -/
theorem invoked_again {env : Env} {storage : Storage} {call : Call} {id : UInt32}
    (succeeds : (step (env, call) storage).isSome) (executes : call.executes = some id) :
    ∃ after, reentrantStep (env, call, .again env call) storage =
      some ((.void, [id, id]), after) := by
  obtain ⟨⟨⟨answer, effects⟩, after⟩, performed⟩ := Option.isSome_iff_exists.mp succeeds
  have change := step_change performed
  generalize invocations effects = invoked at change
  cases change with
  | executeUpgrade executable =>
    cases executes
    simp [reentrantStep, callThrough, executable.found, invokeUpgradeThrough, executable.targeted,
      Reaction.again, Reaction.run]
  | executeMultisigUpgrade executable approved =>
    cases executes
    simp [reentrantStep, callThrough, executable.found_of_approved approved, invokeUpgradeThrough,
      executable.targeted, Reaction.again, Reaction.run]
  | _ => cases executes

/-- A proposal, and its execution with a target that calls for another one meanwhile. -/
def calmTurns : List Turn :=
  proposalCalls.map (fun (env, call) => (env, call, .traps)) ++
    [(executeCall.1, .executeUpgrade 1,
      .calls executeCall.1 (.executeUpgrade 2) .traps fun _ => .returns .void)]

theorem upgrades_made_once_of_sample :
    (upgradesMade (history reentrantStep Storage.empty calmTurns)).Nodup :=
  upgrades_made_once calmTurns (by simp [calmTurns, proposalCalls, sampleCall, Turn.NotNested,
    Call.executes, Reaction.SparesRunning])

/-- A target that calls `execute_upgrade` for the same proposal is called a second time. -/
theorem upgrade_made_twice :
    ¬ ∀ turns : List Turn, (upgradesMade (history reentrantStep Storage.empty turns)).Nodup := by
  intro once
  have nodup := once (proposalCalls.map (fun (env, call) => (env, call, .traps)) ++
    [(executeCall.1, .executeUpgrade 1, .again executeCall.1 (.executeUpgrade 1))])
  rw [show upgradesMade _ = [1, 1] from rfl] at nodup
  exact absurd nodup (by decide)

end Ancore.Upgrade
