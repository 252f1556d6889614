import Ancore.Library.KeyedLog
import Ancore.Upgrade.Change

/-! # Upgrade proposals over a run

A proposal is opened once and closed at most once, by an execution or by a
cancellation (`Proposal.stages`).  `Recorded` ties the stored record to the calls
that made it, so an execution invokes the target with the hash of the opening
call, and only after the delay in force at that call.
-/

namespace Ancore.Upgrade

open Ancore.Library Ancore.Library.FixedWidth Ancore.Soroban

/-! ## The stages of a proposal -/

inductive Stage where
  | proposed
  | executed
  | cancelled
deriving DecidableEq

/-- The proposal a successful call works on, and the stage it takes it to. -/
def stage (transition : GovernorTransition) : Option (UInt32 × Stage) :=
  match transition.call, transition.answer with
  | .proposeUpgrade _ _, .u32 id => some (id, .proposed)
  | .executeUpgrade id, _ => some (id, .executed)
  | .executeMultisigUpgrade id, _ => some (id, .executed)
  | .cancelUpgrade id, _ => some (id, .cancelled)
  | _, _ => none

/-- The stages a proposal id went through, oldest first. -/
def stagesOf (id : UInt32) (past : List GovernorTransition) : List Stage :=
  entriesOf stage id past

/-- The proposal ids handed out, oldest first. -/
def handedOut (past : List GovernorTransition) : List UInt32 :=
  keysWith stage .proposed past

/-- The stages a stored record tells of. -/
def Proposal.stages (proposal : Proposal) : List Stage :=
  .proposed :: ((if proposal.executed then [.executed] else []) ++
    if proposal.cancelled then [.cancelled] else [])

/-! ## What one step does to one proposal -/

/-- What a successful call does to one proposal: the stage it takes it to, and the record it
leaves. -/
inductive ProposalChange (env : Env) (before : Storage) (call : Call) (answer : Val)
    (id : UInt32) : Option Stage → Option Proposal → Prop
  | kept : ProposalChange env before call answer id none (before.proposal id)
  | proposed {hash : BytesN 32} {attestation : WasmAttestation} {executeAfter : UInt64}
      (called : call = .proposeUpgrade hash attestation) (answered : answer = .u32 id)
      (next : before.nextProposalId.getD 1 = id)
      (timelock : executeAfter.toNat = env.timestamp.toNat + before.getTimelockDelay.toNat) :
      ProposalChange env before call answer id (some .proposed) (some {
        id := id
        wasmHash := hash
        proposedAt := env.timestamp
        executeAfter := executeAfter
        executed := false
        cancelled := false })
  | executed {proposal : Proposal} (pending : Pending before id proposal) :
      ProposalChange env before call answer id (some .executed)
        (some { proposal with executed := true })
  | cancelled {proposal : Proposal} (pending : Pending before id proposal) :
      ProposalChange env before call answer id (some .cancelled)
        (some { proposal with cancelled := true })

section Step

variable {env : Env} {before after : Storage} {call : Call} {answer : Val}
  {invoked : List Invocation} {effects : List GovernorEffect} {id written : UInt32}
  {label : Stage} {record : Proposal} {transition : GovernorTransition}

/-- A write to one proposal's record leaves the records of the others. -/
theorem ProposalChange.of_set (works : stage transition = some (written, label))
    (changed : ProposalChange env before call answer written (some label) (some record)) :
    ProposalChange env before call answer id (entryOf stage id transition)
      ((before.setProposal written record).proposal id) := by
  by_cases same : written = id
  · subst same
    rwa [Storage.setProposal_same, entryOf_eq_some.mpr works]
  · rw [Storage.setProposal_ne (Ne.symm same), entryOf_other works same]
    exact .kept

theorem Change.proposal (change : Change env before call answer invoked after) (id : UInt32) :
    ProposalChange env before call answer id
      (entryOf stage id ⟨(env, call), before, (answer, effects), after⟩)
      (after.proposal id) := by
  cases change with
  | proposeUpgrade _ _ next _ timelock => exact .of_set rfl (.proposed rfl rfl next timelock)
  | executeUpgrade executable => exact .of_set rfl (.executed executable.toPending)
  | executeMultisigUpgrade executable => exact .of_set rfl (.executed executable.toPending)
  | cancelUpgrade _ pending => exact .of_set rfl (.cancelled pending)
  | _ => exact .kept

theorem GovernorTransition.proposal (performed : transition.Performed step) (id : UInt32) :
    ProposalChange transition.env transition.before transition.call transition.answer id
      (entryOf stage id transition) (transition.after.proposal id) :=
  (GovernorTransition.change performed).proposal id

end Step

/-! ## Fresh ids -/

/-- Nothing is proposed before the governor has an owner, and the next id is above all ids in
use. -/
structure Storage.IdsFresh (storage : Storage) : Prop where
  unowned : storage.owner = none → ∀ id, storage.proposal id = none
  below : ∀ id proposal, storage.proposal id = some proposal →
    id.toNat < (storage.nextProposalId.getD 1).toNat

theorem Storage.IdsFresh.unused {storage : Storage} (fresh : storage.IdsFresh) {id : UInt32}
    (next : storage.nextProposalId.getD 1 = id) : storage.proposal id = none := by
  cases stored : storage.proposal id with
  | none => rfl
  | some proposal =>
    have below := fresh.below id proposal stored
    rw [next] at below
    exact absurd below (Nat.lt_irrefl _)

/-- Rewriting the record of a stored proposal keeps the ids fresh. -/
theorem Storage.IdsFresh.rewrite {storage : Storage} (fresh : storage.IdsFresh) {id : UInt32}
    {stored proposal : Proposal} (found : storage.proposal id = some stored) :
    (storage.setProposal id proposal).IdsFresh where
  unowned := fun absent => by
    have unused := fresh.unowned absent id
    rw [found] at unused
    cases unused
  below := by
    intro other written lookup
    by_cases same : other = id
    · subst same
      exact fresh.below other stored found
    · rw [Storage.setProposal_ne same] at lookup
      exact fresh.below other written lookup

theorem OwnerAuthority.isSome {env : Env} {storage : Storage} {owner : Address}
    (authority : OwnerAuthority env storage owner) : storage.owner ≠ none := by
  simp [authority.registered]

theorem Change.idsFresh {env : Env} {before after : Storage} {call : Call} {answer : Val}
    {invoked : List Invocation} (fresh : before.IdsFresh)
    (change : Change env before call answer invoked after) : after.IdsFresh := by
  cases change with
  | initializeGovernor unowned =>
    -- Resetting the next id to 1 is safe: without an owner nothing was proposed.
    have empty := fresh.unowned unowned
    exact ⟨fun _ => empty, fun id proposal stored => by simp [empty] at stored⟩
  | @proposeUpgrade _ _ _ opened nextId _ authority _ next advanced _ =>
    refine ⟨fun absent => absurd absent authority.isSome, ?_⟩
    intro id proposal stored
    by_cases same : id = opened
    · subst same
      simp only [Option.getD_some]
      omega
    · rw [show _ = before.proposal id from Storage.setProposal_ne same] at stored
      have below := fresh.below id proposal stored
      simp only [next, Option.getD_some] at below ⊢
      omega
  | executeUpgrade executable => exact fresh.rewrite executable.stored
  | executeMultisigUpgrade executable => exact fresh.rewrite executable.stored
  | cancelUpgrade _ pending => exact fresh.rewrite pending.stored
  | _ => exact ⟨fresh.unowned, fresh.below⟩

theorem idsFresh_invariant :
    HistoryInvariant step Storage.empty fun _ state => state.IdsFresh :=
  stateInvariant ⟨fun _ _ => rfl, fun _ _ stored => by cases stored⟩
    fun _ fresh performed => (GovernorTransition.change performed).idsFresh fresh

/-! ## The record of a proposal -/

/-- The call opened the proposal: it handed out the id, for this hash and with this timelock. -/
structure OpenedBy (id : UInt32) (proposal : Proposal) (opening : GovernorTransition) : Prop where
  call : ∃ attestation, opening.call = .proposeUpgrade proposal.wasmHash attestation
  answer : opening.answer = .u32 id
  proposedAt : proposal.proposedAt = opening.env.timestamp
  timelock : proposal.executeAfter.toNat =
    opening.env.timestamp.toNat + opening.before.getTimelockDelay.toNat

/-- The stored record tells what the past calls did to the proposal. -/
structure RecordedIn (past : List GovernorTransition) (id : UInt32) (proposal : Proposal) :
    Prop where
  stages : stagesOf id past = proposal.stages
  exclusive : ¬ (proposal.executed = true ∧ proposal.cancelled = true)
  opened : ∃ opening ∈ past, OpenedBy id proposal opening

/-- The state holds a record of the proposal exactly when it was opened. -/
def Recorded (id : UInt32) (past : List GovernorTransition) (state : Storage) : Prop :=
  match state.proposal id with
  | none => stagesOf id past = []
  | some proposal => RecordedIn past id proposal

section Recorded

variable {past : List GovernorTransition} {transition : GovernorTransition} {id : UInt32}
  {proposal : Proposal} {state : Storage} {label : Stage}

theorem stagesOf_snoc :
    stagesOf id (past ++ [transition]) =
      stagesOf id past ++ (entryOf stage id transition).toList := by
  simp [stagesOf]

theorem Recorded.of_some (recorded : Recorded id past state)
    (stored : state.proposal id = some proposal) : RecordedIn past id proposal := by
  simpa [Recorded, stored] using recorded

theorem Recorded.of_none (recorded : Recorded id past state)
    (unused : state.proposal id = none) : stagesOf id past = [] := by
  simpa [Recorded, unused] using recorded

/-- A step that leaves a proposal alone leaves what is recorded of it. -/
theorem Recorded.kept {after : Storage} (recorded : Recorded id past state)
    (untouched : entryOf stage id transition = none)
    (same : after.proposal id = state.proposal id) :
    Recorded id (past ++ [transition]) after := by
  have stages : stagesOf id (past ++ [transition]) = stagesOf id past := by
    simp [stagesOf_snoc, untouched]
  cases stored : state.proposal id with
  | none => simpa [Recorded, same, stored, stages] using recorded.of_none stored
  | some proposal =>
    obtain ⟨told, exclusive, opening, member, opened⟩ := recorded.of_some stored
    rw [Recorded, same, stored]
    exact ⟨stages.trans told, exclusive, opening, List.mem_append_left _ member, opened⟩

/-- A pending proposal has been opened and nothing more. -/
theorem RecordedIn.of_pending (recorded : RecordedIn past id proposal)
    (pending : Pending state id proposal) : stagesOf id past = [.proposed] := by
  rw [recorded.stages]
  simp [Proposal.stages, pending.unexecuted, pending.uncancelled]

/-- A step that closes a pending proposal is recorded with it. -/
theorem RecordedIn.close {closed : Proposal} (recorded : RecordedIn past id proposal)
    (pending : Pending state id proposal) (entry : entryOf stage id transition = some label)
    (stages : closed.stages = [.proposed, label])
    (exclusive : ¬ (closed.executed = true ∧ closed.cancelled = true))
    (opened : ∀ opening, OpenedBy id proposal opening → OpenedBy id closed opening) :
    RecordedIn (past ++ [transition]) id closed where
  stages := by simp [stagesOf_snoc, recorded.of_pending pending, entry, stages]
  exclusive := exclusive
  opened := by
    obtain ⟨opening, member, made⟩ := recorded.opened
    exact ⟨opening, List.mem_append_left _ member, opened opening made⟩

end Recorded

theorem recorded_invariant (id : UInt32) :
    HistoryInvariant step Storage.empty fun past state =>
      state.IdsFresh ∧ Recorded id past state where
  init := ⟨idsFresh_invariant.init, rfl⟩
  preserved := by
    rintro past transition ⟨fresh, recorded⟩ performed
    refine ⟨idsFresh_invariant.preserved past transition fresh performed, ?_⟩
    have change := GovernorTransition.proposal performed id
    generalize isEntry : entryOf stage id transition = entry at change
    generalize isRecord : transition.after.proposal id = record at change
    cases change with
    | kept => exact recorded.kept isEntry isRecord
    | proposed called answered next timelock =>
      -- The id is fresh, so nothing has happened to it before.
      have unused := recorded.of_none (fresh.unused next)
      rw [Recorded, isRecord]
      refine ⟨?_, by simp, transition, by simp, ⟨⟨_, called⟩, answered, rfl, timelock⟩⟩
      rw [stagesOf_snoc, unused, show entryOf stage id transition = _ from isEntry]
      simp [Proposal.stages]
    | executed pending =>
      rw [Recorded, isRecord]
      exact (recorded.of_some pending.stored).close pending isEntry
        (by simp [Proposal.stages, pending.uncancelled]) (by simp [pending.uncancelled])
        fun _ opened => ⟨opened.call, opened.answer, opened.proposedAt, opened.timelock⟩
    | cancelled pending =>
      rw [Recorded, isRecord]
      exact (recorded.of_some pending.stored).close pending isEntry
        (by simp [Proposal.stages, pending.unexecuted]) (by simp [pending.unexecuted])
        fun _ opened => ⟨opened.call, opened.answer, opened.proposedAt, opened.timelock⟩

/-! ## Safety over a run -/

/-- Only the two execution entry points invoke a contract, with the upgrade call of the
proposal. -/
theorem Change.invoked {env : Env} {before after : Storage} {call : Call} {answer : Val}
    {invoked : List Invocation} {invocation : Invocation}
    (change : Change env before call answer invoked after) (member : invocation ∈ invoked) :
    ∃ id proposal target, (call = .executeUpgrade id ∨ call = .executeMultisigUpgrade id) ∧
      Executable env before id proposal target ∧
      invocation = upgradeCall target proposal ∧ invoked = [invocation] := by
  cases change with
  | executeUpgrade executable =>
    cases List.mem_singleton.mp member
    exact ⟨_, _, _, .inl rfl, executable, rfl, rfl⟩
  | executeMultisigUpgrade executable =>
    cases List.mem_singleton.mp member
    exact ⟨_, _, _, .inr rfl, executable, rfl, rfl⟩
  | _ => cases member

theorem stage_of_execute {transition : GovernorTransition} {id : UInt32}
    (executes : transition.call = .executeUpgrade id ∨
      transition.call = .executeMultisigUpgrade id) :
    stage transition = some (id, .executed) := by
  rcases executes with executes | executes <;> simp [stage, executes]

/-- A proposal id is unused, or it was opened and then closed at most once. -/
theorem stagesOf_history (calls : List (Env × Call)) (id : UInt32) :
    stagesOf id (history step Storage.empty calls) ∈
      [[], [.proposed], [.proposed, .executed], [.proposed, .cancelled]] := by
  obtain ⟨_, recorded⟩ := (recorded_invariant id).holds_final calls
  cases stored : (final step Storage.empty calls).proposal id with
  | none => simp [recorded.of_none stored]
  | some proposal =>
    obtain ⟨stages, exclusive, _⟩ := recorded.of_some stored
    rw [stages]
    cases executed : proposal.executed <;> cases cancelled : proposal.cancelled <;>
      simp_all [Proposal.stages]

theorem handedOut_nodup (calls : List (Env × Call)) :
    (handedOut (history step Storage.empty calls)).Nodup := by
  refine nodup_keysWith fun id => ?_
  have stages := stagesOf_history calls id
  simp only [stagesOf, List.mem_cons, List.not_mem_nil, or_false] at stages
  rcases stages with stages | stages | stages | stages <;> simp [stages]

/-- No call works on a proposal after its execution. -/
theorem nothing_after_execution {calls : List (Env × Call)}
    {earlier later : List GovernorTransition} {transition : GovernorTransition} {id : UInt32}
    (located : history step Storage.empty calls = earlier ++ transition :: later)
    (executes : transition.call = .executeUpgrade id ∨
      transition.call = .executeMultisigUpgrade id)
    (pending : stagesOf id earlier = [.proposed]) : stagesOf id later = [] := by
  have stages := stagesOf_history calls id
  have entry : entryOf stage id transition = some .executed :=
    entryOf_eq_some.mpr (stage_of_execute executes)
  have split : stagesOf id (earlier ++ transition :: later) =
      .proposed :: .executed :: stagesOf id later := by
    rw [List.append_cons, stagesOf, entriesOf_append, ← stagesOf, stagesOf_snoc, pending, entry]
    rfl
  rw [located, split] at stages
  simpa using stages

/-- Every id is handed out once.  An upgrade call goes to the target for an opened proposal only,
with the hash it was opened with, once the delay in force at its opening has passed, at most once
and never with a cancellation before or after it. -/
theorem proposals_safe (calls : List (Env × Call)) :
    (handedOut (history step Storage.empty calls)).Nodup ∧
    (∀ id, stagesOf id (history step Storage.empty calls) ∈
      [[], [.proposed], [.proposed, .executed], [.proposed, .cancelled]]) ∧
    (∀ (earlier later : List GovernorTransition) (transition : GovernorTransition),
      history step Storage.empty calls = earlier ++ transition :: later →
      ∀ invocation ∈ transition.invoked,
        ∃ id hash target, ∃ opening : GovernorTransition,
          (transition.call = .executeUpgrade id ∨ transition.call = .executeMultisigUpgrade id) ∧
          transition.invoked = [invocation] ∧
          transition.before.targetAccount = some target ∧
          invocation = ⟨target, upgradeSymbol, [.bytes hash.val]⟩ ∧
          opening ∈ earlier ∧
          (∃ attestation, opening.call = .proposeUpgrade hash attestation) ∧
          opening.answer = .u32 id ∧
          opening.env.timestamp.toNat + opening.before.getTimelockDelay.toNat ≤
            transition.env.timestamp.toNat ∧
          stagesOf id earlier = [.proposed] ∧ stagesOf id later = []) ∧
    (∀ id proposal, (final step Storage.empty calls).proposal id = some proposal →
      ¬ (proposal.executed = true ∧ proposal.cancelled = true)) := by
  refine ⟨handedOut_nodup calls, stagesOf_history calls, ?_, ?_⟩
  · intro earlier later transition located invocation member
    -- Only an execution invokes anything; the record it found names the opening call.
    have performed := ((recorded_invariant 0).holds_before located).2
    obtain ⟨id, proposal, target, executes, executable, isUpgrade, alone⟩ :=
      (GovernorTransition.change performed).invoked member
    obtain ⟨⟨_, recorded⟩, _⟩ := (recorded_invariant id).holds_before located
    have told := recorded.of_some executable.stored
    obtain ⟨opening, opened, made⟩ := told.opened
    have pending := told.of_pending executable.toPending
    refine ⟨id, proposal.wasmHash, target, opening, executes, alone, executable.targeted,
      isUpgrade, opened, made.call, made.answer, ?_, pending,
      nothing_after_execution located executes pending⟩
    rw [← made.timelock, ← UInt64.le_iff_toNat_le]
    exact executable.elapsed
  · intro id proposal stored
    exact ((recorded_invariant id).holds_final calls).2.of_some stored |>.exclusive

end Ancore.Upgrade
