import Ancore.Indexer.Postgres

/-! # Retrying after a failure

A call that fails has written a part of its statements and has not touched the
checkpoint, so the next call runs the same statements again.  What completing the
batch leads to (`complete`) does not change with such a call, and this is the
invariant that ties every half-written database to the failure-free run.
-/

namespace Ancore.Indexer

open Ancore.Library

/-- Calls until `n` of them have succeeded; a call that failed is retried. -/
inductive Retried {σ : Type} (worker : IngestWorker σ) (decodeTopic : String → String) :
    Nat → σ → σ → Prop where
  | done (state : σ) : Retried worker decodeTopic 0 state state
  | ok {n : Nat} {clock : Nat → Timestamp} {before middle after : σ} {stats : BatchStats}
      (run : runOnce worker decodeTopic clock before = (.ok stats, middle))
      (rest : Retried worker decodeTopic n middle after) :
      Retried worker decodeTopic (n + 1) before after
  | error {n : Nat} {clock : Nat → Timestamp} {before middle after : σ} {error : IngestError}
      (run : runOnce worker decodeTopic clock before = (.error error, middle))
      (rest : Retried worker decodeTopic (n + 1) middle after) :
      Retried worker decodeTopic (n + 1) before after

section Calls

variable {ν : Type} {columns : Columns ν} {config : WorkerConfig}
  {events : Nat → Nat → List RawEvent} {decodeTopic : String → String}
  {clock : Nat → Timestamp} {before after : Faulty (Database ν)} {db reached : Database ν}

/-- What the statements of the next call lead to, times hidden. -/
def complete (columns : Columns ν) (config : WorkerConfig) (events : Nat → Nat → List RawEvent)
    (decodeTopic : String → String) (db : Database ν) : Option (Database ν) :=
  runAll columns (statementsOf config events decodeTopic db) db.timeless

/-- `n` completed batches. -/
def completed (columns : Columns ν) (config : WorkerConfig) (events : Nat → Nat → List RawEvent)
    (decodeTopic : String → String) : Nat → Database ν → Option (Database ν)
  | 0, db => some db.timeless
  | n + 1, db =>
    (complete columns config events decodeTopic db).bind
      (completed columns config events decodeTopic n)

theorem timeless_timeless (db : Database ν) : db.timeless.timeless = db.timeless := by
  have same : DeadLetterRow.timeless ∘ DeadLetterRow.timeless = DeadLetterRow.timeless := rfl
  simp only [Database.timeless, List.map_map, same]

theorem complete_timeless (db : Database ν) :
    complete columns config events decodeTopic db.timeless =
      complete columns config events decodeTopic db := by
  unfold complete
  rw [timeless_timeless]
  rfl

theorem completed_timeless (n : Nat) (db : Database ν) :
    completed columns config events decodeTopic n db.timeless =
      completed columns config events decodeTopic n db := by
  cases n with
  | zero => simp only [completed, timeless_timeless]
  | succ n => simp only [completed, complete_timeless]

/-- Statements other than saving a checkpoint keep the checkpoints. -/
theorem runAll_keeps_checkpoints {statements : List Statement}
    (inserts : ∀ statement ∈ statements, ∀ checkpoint, statement ≠ .saveCheckpoint checkpoint)
    (ran : runAll columns statements db = some reached) : reached.checkpoints = db.checkpoints := by
  induction statements generalizing db with
  | nil =>
    cases ran
    rfl
  | cons statement statements inductionHypothesis =>
    rw [List.forall_mem_cons] at inserts
    obtain ⟨middle, first, rest⟩ := Option.bind_eq_some_iff.mp ran
    rw [inductionHypothesis inserts.2 rest, checkpoints_of_run first inserts.1]

/-- A proper part of a batch does not reach its checkpoint. -/
theorem part_inserts {stream : String} {lastSeq maxLedger : Nat}
    {failures : List DeadLetterRecord} {canonical : List CanonicalEvent}
    {part rest : List Statement} (more : rest ≠ [])
    (split : batchStatements stream lastSeq failures canonical maxLedger = part ++ rest) :
    ∀ statement ∈ part, ∀ checkpoint, statement ≠ .saveCheckpoint checkpoint := by
  have inserts : ∀ statement ∈
      failures.map Statement.deadLetter ++ canonical.flatMap eventStatements,
      ∀ checkpoint, statement ≠ .saveCheckpoint checkpoint := by
    rintro statement member checkpoint rfl
    rcases List.mem_append.mp member with letter | event
    · obtain ⟨_, _, equal⟩ := List.mem_map.mp letter
      cases equal
    · obtain ⟨_, _, equal⟩ := List.mem_flatMap.mp event
      simp [eventStatements] at equal
  rcases List.append_eq_append_iff.mp split with ⟨extra, isPart, save⟩ | ⟨extra, isInserts, _⟩
  · -- Then nothing of the last statement belongs to the part.
    have nothing : extra = [] := by
      have short := congrArg List.length save
      have one := List.length_pos_of_ne_nil more
      rw [List.length_append] at short
      apply List.eq_nil_of_length_eq_zero
      split at short
      · simp only [List.length_singleton] at short
        omega
      · simp only [List.length_nil] at short
        omega
    rw [isPart, nothing, List.append_nil]
    exact inserts
  · intro statement member
    exact inserts statement (isInserts ▸ List.mem_append_left extra member)

/-- A call that fails leaves the checkpoints alone. -/
theorem error_keeps_checkpoints {error : IngestError}
    (run : runOnce (postgresWorker columns config events) decodeTopic clock before =
      (.error error, after)) : after.store.checkpoints = before.store.checkpoints := by
  obtain ⟨⟨done, rest, split, more, written⟩, _⟩ := runOnce_writes.2 error run
  obtain ⟨part, left, isSplit, rfl, rfl⟩ := List.map_eq_append_iff.mp split
  have unfinished : left ≠ [] := fun none => more (by rw [none, List.map_nil])
  have kept := runAll_keeps_checkpoints (part_inserts unfinished isSplit) written
  exact kept

/-- A call that fails does not change what completing the batch leads to. -/
theorem complete_of_error {error : IngestError}
    (run : runOnce (postgresWorker columns config events) decodeTopic clock before =
      (.error error, after)) :
    complete columns config events decodeTopic after.store =
      complete columns config events decodeTopic before.store := by
  have sameStatements : statementsOf config events decodeTopic after.store =
      statementsOf config events decodeTopic before.store := by
    simp only [statementsOf, batchOf, Database.position, error_keeps_checkpoints run]
  obtain ⟨⟨done, rest, split, _, written⟩, _⟩ := runOnce_writes.2 error run
  unfold complete
  rw [sameStatements]
  have repeatable : Repeatable ((statementsOf config events decodeTopic before.store).map
      (Statement.run columns)) :=
    batch_repeatable
  unfold runAll
  rw [split] at repeatable ⊢
  exact applyAll_resume repeatable written

theorem complete_of_ok {stats : BatchStats}
    (run : runOnce (postgresWorker columns config events) decodeTopic clock before =
      (.ok stats, after)) :
    complete columns config events decodeTopic before.store = some after.store.timeless :=
  (runOnce_writes.1 stats run).applied

/-- A successful call leaves its whole batch. -/
theorem written_of_ok {stats : BatchStats}
    (run : runOnce (postgresWorker columns config events) decodeTopic clock before =
      (.ok stats, after)) :
    Written columns config.stream (before.store.position config.stream)
      ((batchOf config events before.store).filterMap (rejected decodeTopic config.stream))
      ((batchOf config events before.store).filterMap (accepted decodeTopic))
      (((batchOf config events before.store).map RawEvent.ledgerSeq).foldl max
        (before.store.position config.stream))
      before.store.timeless after.store.timeless :=
  written_of_runAll (complete_of_ok run)

/-- The checkpoint never goes back. -/
theorem position_mono {result : Except IngestError BatchStats}
    (run : runOnce (postgresWorker columns config events) decodeTopic clock before =
      (result, after)) :
    before.store.position config.stream ≤ after.store.position config.stream := by
  cases result with
  | error error =>
    unfold Database.position
    rw [error_keeps_checkpoints run]
  | ok stats =>
    rcases (written_of_ok run).checkpoints with same | ⟨name, advanced, saved⟩
    · change after.store.checkpoints = before.store.checkpoints at same
      unfold Database.position
      rw [same]
    · change after.store.checkpoints = Function.update before.store.checkpoints _ _ at saved
      by_cases isStream : config.stream = name
      · refine advanced.le.trans (le_of_eq ?_)
        change _ = (after.store.checkpoints config.stream).getD 0
        rw [saved, ← isStream, Function.update_self, Option.getD_some]
      · unfold Database.position
        rw [saved, Function.update_of_ne isStream]

/-- After a successful call both tables have the key of every event of the batch. -/
theorem keys_of_ok {stats : BatchStats} {event : CanonicalEvent}
    (run : runOnce (postgresWorker columns config events) decodeTopic clock before =
      (.ok stats, after))
    (persisted : event ∈ (batchOf config events before.store).filterMap (accepted decodeTopic)) :
    ∃ contract activity, contractEventRow columns event = some contract ∧
      activityRow columns event = some activity ∧ activity.key = contract.key ∧
      contract.key ∈ after.store.contractEvents.map ContractEventRow.key ∧
      activity.key ∈ after.store.accountActivity.map ActivityRow.key := by
  obtain ⟨contracts, activities, areContracts, areActivities, inContracts, inActivities⟩ :=
    (written_of_ok run).events
  obtain ⟨contract, contractMember, isContract⟩ :=
    List.mem_map.mp (areContracts ▸ List.mem_map_of_mem (f := contractEventRow columns) persisted)
  obtain ⟨activity, activityMember, isActivity⟩ :=
    List.mem_map.mp (areActivities ▸ List.mem_map_of_mem (f := activityRow columns) persisted)
  change after.store.contractEvents = _ at inContracts
  change after.store.accountActivity = _ at inActivities
  refine ⟨contract, activity, isContract.symm, isActivity.symm,
    activity_key_eq isContract.symm isActivity.symm, ?_, ?_⟩
  · rw [inContracts]
    exact mem_keys_insertAll.mpr (.inr (List.mem_map_of_mem contractMember))
  · rw [inActivities]
    exact mem_keys_insertAll.mpr (.inr (List.mem_map_of_mem activityMember))

end Calls

/-! ## Runs -/

section Retry

variable {ν : Type} {columns : Columns ν} {config : WorkerConfig}
  {events : Nat → Nat → List RawEvent} {decodeTopic : String → String} {n : Nat}

/-- Where a run ends depends only on where it began and on the number of batches. -/
theorem completed_of_retried {before after : Faulty (Database ν)}
    (retried : Retried (postgresWorker columns config events) decodeTopic n before after) :
    completed columns config events decodeTopic n before.store = some after.store.timeless := by
  induction retried with
  | done state => rfl
  | ok run rest inductionHypothesis =>
    rw [completed, complete_of_ok run, Option.bind_some, completed_timeless]
    exact inductionHypothesis
  | error run rest inductionHypothesis =>
    rw [completed, complete_of_error run] at inductionHypothesis
    exact inductionHypothesis

/-- Where the batches can be completed, retrying completes them, whatever fails on the way. -/
theorem retried_of_completed (before : Faulty (Database ν)) {reached : Database ν}
    (isCompleted : completed columns config events decodeTopic n before.store = some reached) :
    ∃ after, Retried (postgresWorker columns config events) decodeTopic n before after := by
  induction n generalizing before with
  | zero => exact ⟨_, .done _⟩
  | succ n inductionHypothesis =>
    -- A call that fails uses up a failure; the number of those to come decreases.
    generalize toCome : before.pending = pending
    induction pending using Nat.strong_induction_on generalizing before with
    | _ pending retry =>
      obtain ⟨middle, isComplete, rest⟩ := Option.bind_eq_some_iff.mp isCompleted
      cases run :
        runOnce (postgresWorker columns config events) decodeTopic (fun _ => 0) before with
      | mk result next =>
        cases result with
        | ok stats =>
          have reachedNext := (complete_of_ok run).symm.trans isComplete
          cases reachedNext
          rw [completed_timeless] at rest
          obtain ⟨after, retried⟩ := inductionHypothesis _ rest
          exact ⟨after, .ok run retried⟩
        | error error =>
          rcases (runOnce_writes.2 error run).cause with fault | rejected
          · have sameGoal : completed columns config events decodeTopic (n + 1) next.store =
                some reached := by
              rw [completed, complete_of_error run]
              exact isCompleted
            obtain ⟨after, retried⟩ := retry next.pending (toCome ▸ fault) _ sameGoal rfl
            exact ⟨after, .error run retried⟩
          · have never : complete columns config events decodeTopic before.store = none := rejected
            rw [never] at isComplete
            cases isComplete

/-- Retrying is as good as not failing.  A run in which calls fail can always be completed if the
run without failures can, and it ends with the same tables and checkpoints, times of dead letters
apart.  No call that fails moves a checkpoint and none lets it go back; a call that succeeds leaves
both rows of every event it persisted. -/
theorem retried_as_failure_free (columns : Columns ν) (config : WorkerConfig)
    (events : Nat → Nat → List RawEvent) (decodeTopic : String → String) :
    (∀ n db faults, (∃ clean, Retried (postgresWorker columns config events) decodeTopic n
        ⟨db, []⟩ clean) →
      ∃ after, Retried (postgresWorker columns config events) decodeTopic n ⟨db, faults⟩ after) ∧
    (∀ n db faults clean after,
      Retried (postgresWorker columns config events) decodeTopic n ⟨db, []⟩ clean →
      Retried (postgresWorker columns config events) decodeTopic n ⟨db, faults⟩ after →
      after.store.timeless = clean.store.timeless) ∧
    (∀ clock before after error, runOnce (postgresWorker columns config events) decodeTopic clock
        before = (.error error, after) →
      after.store.checkpoints = before.store.checkpoints) ∧
    (∀ clock before after result, runOnce (postgresWorker columns config events) decodeTopic clock
        before = (result, after) →
      before.store.position config.stream ≤ after.store.position config.stream) ∧
    ∀ clock before after stats, runOnce (postgresWorker columns config events) decodeTopic clock
        before = (.ok stats, after) →
      ∀ event ∈ (batchOf config events before.store).filterMap (accepted decodeTopic),
        ∃ contract activity, contractEventRow columns event = some contract ∧
          activityRow columns event = some activity ∧ activity.key = contract.key ∧
          contract.key ∈ after.store.contractEvents.map ContractEventRow.key ∧
          activity.key ∈ after.store.accountActivity.map ActivityRow.key := by
  refine ⟨?_, ?_, ?_, ?_, ?_⟩
  · rintro n db faults ⟨clean, cleanRun⟩
    have cleanEnd := completed_of_retried cleanRun
    exact retried_of_completed ⟨db, faults⟩ cleanEnd
  · intro n db faults clean after cleanRun retried
    have cleanEnd := completed_of_retried cleanRun
    have retriedEnd := completed_of_retried retried
    exact Option.some.inj (retriedEnd.symm.trans cleanEnd)
  · intro clock before after error run
    exact error_keeps_checkpoints run
  · intro clock before after result run
    exact position_mono run
  · intro clock before after stats run event persisted
    exact keys_of_ok run persisted

end Retry

/-- A transfer followed by an event without a transaction. -/
def sampleBatch : List RawEvent :=
  [{ ledgerSeq := 5, ledgerCloseTime := 0, txHash := "7f", contractId := "CA",
     topics := ["transfer", "native", "GB"], data := "" },
   { ledgerSeq := 5, ledgerCloseTime := 0, txHash := "", contractId := "CA",
     topics := ["upgraded"], data := "" }]

/-- The worker that is given the sample batch first. -/
def sampleWorker : IngestWorker (Faulty (Database Int)) :=
  postgresWorker sampleColumns ⟨"main", 2⟩
    fun afterLedger _ => if afterLedger < 5 then sampleBatch else []

/-- The insert into the second table fails, and then saving the checkpoint does. -/
theorem retried_as_failure_free_of_sample :
    ∃ clean after, Retried sampleWorker id 1 ⟨Database.empty, []⟩ clean ∧
      Retried sampleWorker id 1
        ⟨Database.empty, [false, false, true, false, false, false, true]⟩ after ∧
      after.store.timeless = clean.store.timeless := by
  obtain ⟨complete, agree, _⟩ := retried_as_failure_free sampleColumns ⟨"main", 2⟩
    (fun afterLedger _ => if afterLedger < 5 then sampleBatch else []) id
  have succeeds : (runOnce sampleWorker id (fun _ => 1) ⟨Database.empty, []⟩).1.isOk = true := by
    decide
  cases run : runOnce sampleWorker id (fun _ => 1) ⟨Database.empty, []⟩ with
  | mk result clean =>
    rw [run] at succeeds
    cases result with
    | error error => cases succeeds
    | ok stats =>
      have cleanRun : Retried sampleWorker id 1 ⟨Database.empty, []⟩ clean := .ok run (.done _)
      obtain ⟨after, retried⟩ := complete 1 Database.empty
        [false, false, true, false, false, false, true] ⟨clean, cleanRun⟩
      exact ⟨clean, after, cleanRun, retried, agree 1 _ _ _ _ cleanRun retried⟩

end Ancore.Indexer
