import Ancore.Library.KeyedLog
import Ancore.Library.Quorum
import Ancore.Upgrade.Change

/-! # Multisig approvals over a run

`execute_multisig_upgrade` counts the places of the configured signers list that
hold an approver.  That is a count of people only where the list has no duplicate
(`multisig_counts_people_iff`), and `execute_upgrade` never takes it
(`execution_paths_agree_iff`).
-/

namespace Ancore.Upgrade

open Ancore.Library Ancore.Library.FixedWidth Ancore.Soroban

/-! ## Recorded approvals -/

/-- The proposal a successful call approves, and the address it approves for. -/
def submission (transition : GovernorTransition) : Option (UInt32 × Address) :=
  match transition.call with
  | .submitMultisigSignature caller id => some (id, caller)
  | _ => none

/-- The addresses that have approved the proposal, oldest first. -/
def approvalsOf (id : UInt32) (past : List GovernorTransition) : List Address :=
  entriesOf submission id past

theorem mem_approvalsOf {id : UInt32} {signer : Address} {past : List GovernorTransition} :
    signer ∈ approvalsOf id past ↔
      ∃ transition ∈ past, transition.input.2 = .submitMultisigSignature signer id := by
  refine mem_entriesOf.trans (exists_congr fun transition => and_congr_right fun _ => ?_)
  obtain ⟨⟨env, call⟩, before, output, after⟩ := transition
  cases call <;> simp [submission, and_comm]

section Step

variable {env : Env} {before after : Storage} {call : Call} {answer : Val}
  {invoked : List Invocation} {id : UInt32} {signer : Address}

theorem Change.signatureRecord (change : Change env before call answer invoked after) :
    after.signatureRecord id signer = true ↔
      before.signatureRecord id signer = true ∨ call = .submitMultisigSignature signer id := by
  cases change with
  | submitMultisigSignature =>
    rw [Storage.recordSignature_iff, Call.submitMultisigSignature.injEq, or_comm,
      eq_comm (a := id), and_comm, eq_comm (a := signer)]
  | _ => simp [Storage.setProposal]

/-- An execution by multisig found the threshold met. -/
theorem Change.approved {config : MultisigConfig}
    (change : Change env before (.executeMultisigUpgrade id) answer invoked after)
    (configured : before.multisigConfig = some config) : Approved before id config := by
  cases change with
  | executeMultisigUpgrade _ approved =>
    cases approved.configured.symm.trans configured
    exact approved

end Step

/-- The signature records of the state are the approvals of the past. -/
def SignaturesRecorded (past : List GovernorTransition) (state : Storage) : Prop :=
  ∀ id signer, state.signatureRecord id signer = true ↔ signer ∈ approvalsOf id past

theorem signaturesRecorded_invariant :
    HistoryInvariant step Storage.empty SignaturesRecorded where
  init := fun id signer => by simp [Storage.empty, approvalsOf]
  preserved := by
    intro past transition recorded performed id signer
    rw [(GovernorTransition.change performed).signatureRecord, recorded id signer]
    simp only [mem_approvalsOf, List.mem_append, List.mem_singleton, or_and_right, exists_or,
      exists_eq_left]

/-! ## The count loop -/

theorem countSignatures_eq_countP {storage : Storage} {id : UInt32} {signers : List Address} :
    countSignatures storage id signers = signers.countP (storage.signatureRecord id) := by
  induction signers with
  | nil => rfl
  | cons signer signers inductionHypothesis =>
    rw [countSignatures, List.countP_cons, inductionHypothesis]
    split <;> rfl

theorem SignaturesRecorded.count {past : List GovernorTransition} {state : Storage}
    (recorded : SignaturesRecorded past state) (id : UInt32) (signers : List Address) :
    countSignatures state id signers = signers.countP (· ∈ approvalsOf id past) := by
  rw [countSignatures_eq_countP]
  refine List.countP_congr fun signer _ => ?_
  rw [recorded id signer, decide_eq_true_iff]

/-! ## A policy that counts people -/

/-- Every execution under the policy was approved by at least `threshold` different signers. -/
def MultisigConfig.CountsPeople (config : MultisigConfig) : Prop :=
  ∀ (calls : List (Env × Call)) (earlier later : List GovernorTransition)
    (transition : GovernorTransition) (id : UInt32),
    history step Storage.empty calls = earlier ++ transition :: later →
    transition.call = .executeMultisigUpgrade id →
    transition.before.multisigConfig = some config →
    AtLeastDistinct config.threshold.toNat config.signers (· ∈ approvalsOf id earlier)

theorem MultisigConfig.countsPeople {config : MultisigConfig}
    (faithful : config.threshold.toNat ≤ 1 ∨ config.signers.Nodup) : config.CountsPeople := by
  intro calls earlier later transition id located executes configured
  obtain ⟨recorded, performed⟩ := signaturesRecorded_invariant.holds_before located
  have change := GovernorTransition.change performed
  rw [executes] at change
  have enough := (change.approved configured).enough
  rw [countSignatures_eq_countP] at enough
  have distinct : AtLeastDistinct config.threshold.toNat config.signers
      (transition.before.signatureRecord id · = true) := by
    -- A threshold of one needs a single approver; otherwise every place counted is another person.
    rcases faithful with trivial | nodup
    · exact atLeastDistinct_of_le_one trivial enough
    · exact atLeastDistinct_of_nodup nodup enough
  exact distinct.mono fun signer => (recorded id signer).mp

/-- `update_multisig_config` accepts the policy. -/
def MultisigConfig.Accepted (config : MultisigConfig) : Prop :=
  ∃ env storage,
    (step (env, .updateMultisigConfig config.threshold config.signers) storage).isSome

/-- What the guards of `update_multisig_config` check: the threshold only, not the list. -/
structure MultisigConfig.WithinLimits (config : MultisigConfig) : Prop where
  positive : config.threshold ≠ 0
  short : config.signers.length ≤ maxSigners
  enough : config.threshold.toNat ≤ config.signers.length

theorem MultisigConfig.Accepted.withinLimits {config : MultisigConfig}
    (accepted : config.Accepted) : config.WithinLimits := by
  obtain ⟨env, storage, accepted⟩ := accepted
  obtain ⟨⟨⟨value, effects⟩, after⟩, performed⟩ := Option.isSome_iff_exists.mp accepted
  have change := step_change performed
  generalize invocations effects = invoked at change
  cases change with
  | updateMultisigConfig _ positive short enough => exact ⟨positive, short, enough⟩

/-! ## A run of approvals -/

section Sample

/-- The governor of the sample runs, its owner and target, a signer and the hash it proposes. -/
def sampleGovernor : Address := .contract (repeatedByte 8)
def sampleOwner : Address := .account (repeatedByte 1)
def sampleTarget : Address := .contract (repeatedByte 4)
def sampleSigner : Address := .account (repeatedByte 2)
def sampleHash : BytesN 32 := repeatedByte 7

/-- A call everybody involved authorizes. -/
def sampleCall (signer : Address) (call : Call) : Env × Call :=
  (.sample sampleGovernor 0 [signer] [], call)

/-- A governor without a delay, and its first proposal. -/
def proposalCalls : List (Env × Call) :=
  [sampleCall sampleOwner (.initializeGovernor sampleOwner sampleTarget 0),
    sampleCall sampleOwner (.proposeUpgrade sampleHash ⟨0, [], []⟩)]

def configureCall (config : MultisigConfig) : Env × Call :=
  sampleCall sampleOwner (.updateMultisigConfig config.threshold config.signers)

def approvalCall (signer : Address) : Env × Call :=
  sampleCall signer (.submitMultisigSignature signer 1)

def executeCall : Env × Call := sampleCall sampleOwner (.executeMultisigUpgrade 1)

/-- The proposal, the policy and the approvals of the signers given. -/
def approvedCalls (config : MultisigConfig) (approvers : List Address) : List (Env × Call) :=
  proposalCalls ++ configureCall config :: approvers.map approvalCall

/-- The state of the governor with its first proposal. -/
def proposedState : Storage := final step Storage.empty proposalCalls

def sampleProposal : Proposal where
  id := 1
  wasmHash := sampleHash
  proposedAt := 0
  executeAfter := 0
  executed := false
  cancelled := false

variable {config : MultisigConfig} {approvers : List Address} {state : Storage} {signer : Address}

theorem proposedState_pending : Pending proposedState 1 sampleProposal := ⟨rfl, rfl, rfl⟩

theorem step_configureCall (limits : config.WithinLimits) :
    (step (configureCall config) proposedState).isSome := by
  have authority : OwnerAuthority (configureCall config).1 proposedState sampleOwner :=
    ⟨rfl, by simp [configureCall, sampleCall, Env.sample]⟩
  exact (step_isSome_of_void rfl).mpr ⟨_, updateMultisigConfig_ok.mpr ⟨sampleOwner, authority,
    limits.positive, limits.short, limits.enough, rfl⟩⟩

theorem MultisigConfig.WithinLimits.accepted (limits : config.WithinLimits) : config.Accepted :=
  ⟨_, proposedState, step_configureCall limits⟩

theorem final_configureCall (limits : config.WithinLimits) :
    final step proposedState [configureCall config] =
      { proposedState with multisigConfig := some config } := by
  obtain ⟨⟨⟨value, effects⟩, after⟩, performed⟩ :=
    Option.isSome_iff_exists.mp (step_configureCall limits)
  have change := step_change performed
  simp only [final, performed]
  generalize invocations effects = invoked at change
  cases change
  rfl

/-- Approvals of configured signers are all recorded, and nothing else is touched. -/
theorem final_approvalCalls {proposal : Proposal}
    (configured : state.multisigConfig = some config) (pending : Pending state 1 proposal)
    (listed : ∀ approver ∈ approvers, approver ∈ config.signers) :
    ∃ record, final step state (approvers.map approvalCall) =
        { state with signatureRecord := record } ∧
      ∀ approver, approver ∈ approvers ∨ state.signatureRecord 1 approver = true →
        record 1 approver = true := by
  induction approvers generalizing state with
  | nil => exact ⟨state.signatureRecord, rfl, by simp⟩
  | cons signer approvers inductionHypothesis =>
    have listed' : ∀ approver ∈ approvers, approver ∈ config.signers := fun approver member =>
      listed approver (List.mem_cons_of_mem _ member)
    cases performed : step (approvalCall signer) state with
    | none =>
      -- The signer has approved before.
      have duplicate : state.signatureRecord 1 signer = true := by
        by_contra fresh
        have accepted : (step (approvalCall signer) state).isSome :=
          (step_isSome_of_void rfl).mpr ⟨_, submitMultisigSignature_ok.mpr
            ⟨by simp [Env.sample], config, configured,
              listed signer List.mem_cons_self, proposal, pending, by simpa using fresh, rfl⟩⟩
        simp [performed] at accepted
      obtain ⟨record, reached, approved⟩ := inductionHypothesis configured pending listed'
      refine ⟨record, by simpa [final, performed] using reached, ?_⟩
      rintro approver (member | recorded)
      · rcases List.mem_cons.mp member with rfl | member
        · exact approved _ (.inr duplicate)
        · exact approved _ (.inl member)
      · exact approved _ (.inr recorded)
    | some result =>
      obtain ⟨⟨value, effects⟩, after⟩ := result
      have change := step_change performed
      generalize invocations effects = invoked at change
      cases change with
      | submitMultisigSignature =>
        obtain ⟨record, reached, approved⟩ :=
          @inductionHypothesis (state.recordSignature 1 signer) configured
            ⟨pending.stored, pending.unexecuted, pending.uncancelled⟩ listed'
        refine ⟨record, ?_, ?_⟩
        · simp only [List.map_cons, final, performed]
          exact reached
        · rintro approver (member | recorded)
          · rcases List.mem_cons.mp member with rfl | member
            · exact approved _ (.inr (Storage.recordSignature_iff.mpr (.inl ⟨rfl, rfl⟩)))
            · exact approved _ (.inl member)
          · exact approved _ (.inr (Storage.recordSignature_iff.mpr (.inr recorded)))

theorem final_approvedCalls (limits : config.WithinLimits)
    (listed : ∀ approver ∈ approvers, approver ∈ config.signers) :
    ∃ record, final step Storage.empty (approvedCalls config approvers) =
        { proposedState with multisigConfig := some config, signatureRecord := record } ∧
      ∀ approver ∈ approvers, record 1 approver = true := by
  have pending : Pending { proposedState with multisigConfig := some config } 1 sampleProposal :=
    ⟨proposedState_pending.stored, rfl, rfl⟩
  obtain ⟨record, reached, approved⟩ := final_approvalCalls rfl pending listed
  refine ⟨record, ?_, fun approver member => approved approver (.inl member)⟩
  rw [approvedCalls, List.append_cons, final_append, final_append, ← proposedState,
    final_configureCall limits, reached]

/-- The approvers' proposal is executed once their places in the list meet the threshold. -/
theorem history_executeCall (limits : config.WithinLimits)
    (listed : ∀ approver ∈ approvers, approver ∈ config.signers)
    (counted : config.threshold.toNat ≤ config.signers.countP (· ∈ approvers)) :
    ∃ transition : GovernorTransition,
      history step Storage.empty (approvedCalls config approvers ++ [executeCall]) =
        history step Storage.empty (approvedCalls config approvers) ++ [transition] ∧
      transition.call = .executeMultisigUpgrade 1 ∧
      transition.before.multisigConfig = some config := by
  obtain ⟨record, reached, approved⟩ := final_approvedCalls limits listed
  rw [history_append]
  generalize final step Storage.empty (approvedCalls config approvers) = state at reached ⊢
  have executable : Executable executeCall.1 state 1 sampleProposal sampleTarget := by
    rw [reached]
    exact ⟨⟨proposedState_pending.stored, rfl, rfl⟩, UInt64.le_rfl, rfl, by decide, rfl⟩
  have enough : Approved state 1 config := by
    rw [reached]
    refine ⟨rfl, counted.trans ?_⟩
    rw [countSignatures_eq_countP]
    exact List.countP_mono_left fun signer _ member => approved signer (of_decide_eq_true member)
  have executes : (step executeCall state).isSome :=
    step_executeMultisigUpgrade_isSome.mpr ⟨⟨_, _, executable⟩, config, enough⟩
  obtain ⟨⟨output, after⟩, performed⟩ := Option.isSome_iff_exists.mp executes
  refine ⟨⟨executeCall, state, output, after⟩, ?_, rfl, enough.configured⟩
  simp only [history, performed]

/-- Only the approvers approve anything in their run. -/
theorem approvalsOf_approvedCalls
    (approved : signer ∈
      approvalsOf 1 (history step Storage.empty (approvedCalls config approvers))) :
    signer ∈ approvers := by
  obtain ⟨transition, member, submits⟩ := mem_approvalsOf.mp approved
  have called := (history_inputs_sublist step _ _).subset (List.mem_map_of_mem member)
  rw [approvedCalls, List.mem_append, List.mem_cons, List.mem_map] at called
  rcases called with called | called | ⟨approver, listed, called⟩
  · simp [proposalCalls, sampleCall, Prod.ext_iff, submits] at called
  · simp [configureCall, sampleCall, Prod.ext_iff, submits] at called
  · have same : Call.submitMultisigSignature approver 1 = .submitMultisigSignature signer 1 :=
      (congrArg Prod.snd called).trans submits
    cases same
    exact listed

/-- A policy that counts people has no need of duplicates: it lists none, or one approval is
enough for it. -/
theorem MultisigConfig.CountsPeople.faithful (counts : config.CountsPeople)
    (limits : config.WithinLimits) :
    config.threshold.toNat ≤ 1 ∨ config.signers.Nodup := by
  by_contra duplicates
  obtain ⟨many, duplicate⟩ := not_or.mp duplicates
  obtain ⟨approvers, few, listed, counted⟩ :=
    exists_approvers_of_duplicate duplicate (by omega) limits.enough
  -- They approve and execute, though they are fewer than the threshold.
  obtain ⟨transition, located, executes, configured⟩ := history_executeCall limits listed counted
  have distinct := counts _ _ [] transition 1 located executes configured
  have enough := (distinct.mono fun _ => approvalsOf_approvedCalls).le_length
  omega

end Sample

/-! ## The two laws -/

/-- A policy that `update_multisig_config` accepts counts people exactly when its threshold is one
or its signers are pairwise different. -/
theorem multisig_counts_people_iff (config : MultisigConfig) (accepted : config.Accepted) :
    config.CountsPeople ↔ config.threshold.toNat ≤ 1 ∨ config.signers.Nodup :=
  ⟨fun counts => counts.faithful accepted.withinLimits, MultisigConfig.countsPeople⟩

/-- Two different signers, both needed. -/
theorem multisig_counts_people_of_two :
    (MultisigConfig.mk 2 [sampleOwner, sampleSigner]).CountsPeople :=
  (multisig_counts_people_iff _
    (MultisigConfig.WithinLimits.accepted ⟨by decide, by decide, by decide⟩)).mpr
      (.inr (by decide))

/-- One signer listed twice meets a threshold of two alone. -/
theorem multisig_counts_twice :
    (MultisigConfig.mk 2 [sampleSigner, sampleSigner]).Accepted ∧
      ¬ (MultisigConfig.mk 2 [sampleSigner, sampleSigner]).CountsPeople := by
  have limits : (MultisigConfig.mk 2 [sampleSigner, sampleSigner]).WithinLimits :=
    ⟨by decide, by decide, by decide⟩
  refine ⟨limits.accepted, fun counts => ?_⟩
  -- The signer approves, and the proposal is executed.
  obtain ⟨transition, located, executes, configured⟩ :=
    @history_executeCall _ [sampleSigner] limits (by simp) (by decide)
  have distinct := counts _ _ [] transition 1 located executes configured
  have enough := (distinct.mono fun _ => approvalsOf_approvedCalls).le_length
  exact absurd enough (by decide)

/-- In a state with a policy, `execute_upgrade` is bound by it exactly for the proposals that are
approved, or that nobody can execute. -/
theorem execution_paths_agree_iff (calls : List (Env × Call)) (config : MultisigConfig)
    (configured : (final step Storage.empty calls).multisigConfig = some config)
    (env : Env) (id : UInt32) :
    ((step (env, .executeUpgrade id) (final step Storage.empty calls)).isSome →
        (step (env, .executeMultisigUpgrade id) (final step Storage.empty calls)).isSome) ↔
      (config.threshold.toNat ≤
          config.signers.countP (· ∈ approvalsOf id (history step Storage.empty calls)) ∨
        ∀ proposal target,
          ¬ Executable env (final step Storage.empty calls) id proposal target) := by
  have recorded := signaturesRecorded_invariant.holds_final calls
  have approved : (∃ config, Approved (final step Storage.empty calls) id config) ↔
      config.threshold.toNat ≤
        config.signers.countP (· ∈ approvalsOf id (history step Storage.empty calls)) := by
    rw [← recorded.count]
    constructor
    · rintro ⟨other, found, enough⟩
      cases configured.symm.trans found
      exact enough
    · exact fun enough => ⟨config, configured, enough⟩
  rw [step_executeUpgrade_isSome, step_executeMultisigUpgrade_isSome, approved]
  constructor
  · intro agrees
    by_cases executable : ∃ proposal target,
        Executable env (final step Storage.empty calls) id proposal target
    · exact .inl (agrees executable).2
    · exact .inr fun proposal target found => executable ⟨proposal, target, found⟩
  · rintro (enough | never) executable
    · exact ⟨executable, enough⟩
    · obtain ⟨proposal, target, found⟩ := executable
      exact absurd found (never proposal target)

/-- The one signer has approved. -/
theorem execution_paths_agree_of_approved :
    (step (executeCall.1, .executeMultisigUpgrade 1)
      (final step Storage.empty (approvedCalls ⟨1, [sampleSigner]⟩ [sampleSigner]))).isSome :=
  (execution_paths_agree_iff (approvedCalls ⟨1, [sampleSigner]⟩ [sampleSigner]) ⟨1, [sampleSigner]⟩
    rfl executeCall.1 1).mpr (.inl (by decide)) rfl

/-- Nobody has approved, and the upgrade is executed all the same. -/
theorem execution_paths_disagree :
    ¬ ∀ (calls : List (Env × Call)) (config : MultisigConfig),
      (final step Storage.empty calls).multisigConfig = some config →
      ∀ (env : Env) (id : UInt32),
        (step (env, .executeUpgrade id) (final step Storage.empty calls)).isSome →
          (step (env, .executeMultisigUpgrade id) (final step Storage.empty calls)).isSome := by
  intro agree
  have executed := agree (approvedCalls ⟨1, [sampleSigner]⟩ []) ⟨1, [sampleSigner]⟩ rfl
    executeCall.1 1 rfl
  cases executed.symm.trans (show _ = false from rfl)

end Ancore.Upgrade
