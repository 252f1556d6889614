import Ancore.Relayer.Stages

/-! # What the calls make of the records and the log

Two calls write: `updateAfterExecution` a record and `appendExecution` the log.
A worker that is alone therefore works with current copies throughout a tick. -/

namespace Ancore.Relayer

open Ancore.Library

namespace AnyScheduledTransferStore

/-- The log, the latest entry first. -/
def executions : AnyScheduledTransferStore → List ScheduledTransferExecutionLog
  | memory store => store.executions
  | postgres store => store.executions

/-- The entries of one transfer. -/
def logged (store : AnyScheduledTransferStore) (id : TransferId) :
    List ScheduledTransferExecutionLog :=
  store.executions.filter fun log => log.scheduledTransferId = id

/-- The listing of the transfer's executions is not cut. -/
def ListsAll (id : TransferId) : AnyScheduledTransferStore → Prop
  | memory _ => True
  | postgres store => ((postgres store).logged id).length ≤ 50

instance (id : TransferId) : (store : AnyScheduledTransferStore) → Decidable (store.ListsAll id)
  | memory _ => isTrue trivial
  | postgres _ => inferInstanceAs (Decidable (_ ≤ _))

/-- The table of the store refuses a record that failed. -/
def refusesFailed : AnyScheduledTransferStore → Bool
  | memory _ => false
  | postgres _ => true

/-- The listing has the entries, all of them or the first fifty. -/
theorem length_listExecutions (store : AnyScheduledTransferStore) (id : TransferId) :
    (store.listExecutions id).length =
      if store.refusesFailed then min 50 (store.logged id).length
      else (store.logged id).length := by
  cases store with
  | memory store => rfl
  | postgres store =>
    simp only [listExecutions, PgScheduledTransferStore.listExecutions, List.length_take,
      List.length_insertionSort]
    rfl

theorem length_listExecutions_le (store : AnyScheduledTransferStore) (id : TransferId) :
    (store.listExecutions id).length ≤ (store.logged id).length := by
  rw [length_listExecutions]
  split
  · exact min_le_right _ _
  · exact le_rfl

theorem length_listExecutions_iff {store : AnyScheduledTransferStore} {id : TransferId} :
    (store.listExecutions id).length = (store.logged id).length ↔ store.ListsAll id := by
  rw [length_listExecutions]
  cases store with
  | memory store => exact ⟨fun _ => trivial, fun _ => rfl⟩
  | postgres store => exact min_eq_right_iff

/-- What is due is listed once. -/
theorem nodup_listDue (store : AnyScheduledTransferStore) (now databaseNow : Date) :
    ((store.listDue now databaseNow).map ScheduledTransfer.id).Nodup := by
  cases store with
  | memory store =>
    exact store.transfers.distinct.sublist (List.filter_sublist.map _)
  | postgres store =>
    refine ((List.perm_insertionSort _ _).map _).nodup_iff.mpr ?_
    exact store.transfers.distinct.sublist (List.filter_sublist.map _)

theorem executions_tryAcquireProcessing (store : AnyScheduledTransferStore) (id : TransferId)
    (workerId : WorkerId) (dateNow databaseNow : Date) :
    (store.tryAcquireProcessing id workerId dateNow databaseNow).2.executions =
      store.executions := by
  cases store with
  | memory store =>
    simp only [tryAcquireProcessing, ScheduledTransferStore.tryAcquireProcessing, executions]
    split_ifs
    · rfl
    · split
      · rfl
      · split <;> rfl
  | postgres store =>
    simp only [tryAcquireProcessing, PgScheduledTransferStore.tryAcquireLease, executions]
    split
    · rfl
    · split <;> rfl

theorem executions_updateAfterExecution {store next : AnyScheduledTransferStore}
    {id : TransferId} {patch : ExecutionPatch}
    (updated : store.updateAfterExecution id patch = some next) :
    next.executions = store.executions := by
  cases store with
  | memory store =>
    cases updated
    rfl
  | postgres store =>
    simp only [updateAfterExecution, PgScheduledTransferStore.updateAfterExecution] at updated
    split at updated
    · cases updated
    · cases updated
      rfl

end AnyScheduledTransferStore

/-! ## What is written -/

/-- The record a call writes, and what it writes. -/
def writtenBy (found : AnyScheduledTransferStore) (fault : Option Fault) :
    SchedulerCall → Option (TransferId × ExecutionPatch)
  | .updateAfterExecution id patch =>
    if fault ≠ some .before ∧ (found.updateAfterExecution id patch).isSome then some (id, patch)
    else none
  | _ => none

/-- The entry a call adds to the log. -/
def appendedBy (fault : Option Fault) : SchedulerCall → Option ScheduledTransferExecutionLog
  | .appendExecution log => if fault ≠ some .before then some log else none
  | _ => none

section Effects

variable {Worker : Type} (workerIdOf : Worker → WorkerId) (worker : Worker)
  (request : SchedulerCall) (circumstance : Circumstance) (store : AnyScheduledTransferStore)

/-- What a call leaves alone when it is carried out, it leaves alone. -/
theorem unchanged_of_answered {α β : Type} {fault : Option Fault}
    {store : AnyScheduledTransferStore} {carriedOut : α × AnyScheduledTransferStore}
    (view : AnyScheduledTransferStore → β) (same : view carriedOut.2 = view store) :
    view (answered fault store carriedOut).2 = view store := by
  obtain kept | done := answered_cases fault store carriedOut
  · rw [kept]
  · rw [done, same]

theorem transfers_perform :
    (perform workerIdOf worker request circumstance store).2.transfers =
      match writtenBy store circumstance.fault request with
      | some (id, patch) => store.transfers.patch id patch
      | none => store.transfers := by
  cases request with
  | listDue _ => exact unchanged_of_answered _ rfl
  | tryAcquireProcessing _ =>
    exact unchanged_of_answered _
      (AnyScheduledTransferStore.transfers_tryAcquireProcessing _ _ _ _ _)
  | releaseProcessing _ =>
    exact unchanged_of_answered _ (AnyScheduledTransferStore.transfers_releaseProcessing _ _ _)
  | listExecutions _ => exact unchanged_of_answered _ rfl
  | executeRelay _ _ _ => exact unchanged_of_answered _ rfl
  | appendExecution _ =>
    exact unchanged_of_answered _ (AnyScheduledTransferStore.transfers_appendExecution _ _)
  | mathRandom => rfl
  | updateAfterExecution id patch =>
    simp only [perform, writtenBy]
    cases updated : store.updateAfterExecution id patch with
    | none => simp
    | some next =>
      have written := (AnyScheduledTransferStore.updateAfterExecution_spec updated).1
      match circumstance.fault with
      | none => simpa [answered] using written
      | some .before => simp [answered]
      | some .after => simpa [answered] using written

theorem executions_perform :
    (perform workerIdOf worker request circumstance store).2.executions =
      match appendedBy circumstance.fault request with
      | some log => log :: store.executions
      | none => store.executions := by
  cases request with
  | listDue _ => exact unchanged_of_answered _ rfl
  | tryAcquireProcessing _ =>
    exact unchanged_of_answered _
      (AnyScheduledTransferStore.executions_tryAcquireProcessing _ _ _ _ _)
  | releaseProcessing _ => exact unchanged_of_answered _ (by cases store <;> rfl)
  | listExecutions _ => exact unchanged_of_answered _ rfl
  | executeRelay _ _ _ => exact unchanged_of_answered _ rfl
  | mathRandom => rfl
  | updateAfterExecution id patch =>
    simp only [perform, appendedBy]
    cases updated : store.updateAfterExecution id patch with
    | none => rfl
    | some next =>
      exact unchanged_of_answered _
        (AnyScheduledTransferStore.executions_updateAfterExecution updated)
  | appendExecution log =>
    simp only [perform, appendedBy]
    match circumstance.fault with
    | none => cases store <;> rfl
    | some .before => rfl
    | some .after => cases store <;> rfl

variable {workerIdOf worker circumstance store} in
theorem listExecutions_answer {id : TransferId} {executions : List ScheduledTransferExecutionLog}
    (answer : (perform workerIdOf worker (.listExecutions id) circumstance store).1 =
      .ok executions) :
    executions = store.listExecutions id ∧
      (perform workerIdOf worker (.listExecutions id) circumstance store).2 = store := by
  obtain ⟨listed, same⟩ := carriedOut_of_ok answer
  exact ⟨listed.symm, same⟩

variable {workerIdOf worker circumstance store} in
theorem get_update_of_ne {id other : TransferId} {patch : ExecutionPatch} (different : other ≠ id) :
    (perform workerIdOf worker (.updateAfterExecution id patch) circumstance store).2.transfers.get
      other = store.transfers.get other := by
  rw [transfers_perform]
  simp only [writtenBy]
  split_ifs with carriedOut
  · exact (TransferTable.get_patch ..).trans (if_neg different)
  · rfl

variable {workerIdOf worker circumstance store} in
theorem get_update_self {id : TransferId} {patch : ExecutionPatch}
    (carriedOut : circumstance.fault ≠ some .before)
    (accepted : (store.updateAfterExecution id patch).isSome) :
    (perform workerIdOf worker (.updateAfterExecution id patch) circumstance store).2.transfers.get
      id = (store.transfers.get id).map (·.patched patch) := by
  rw [transfers_perform]
  simp only [writtenBy, carriedOut, accepted, ne_eq, not_false_eq_true, and_self, if_true]
  exact (TransferTable.get_patch ..).trans (if_pos rfl)

variable {workerIdOf worker request circumstance store} in
theorem logged_of_unappended {id : TransferId}
    (unappended : ∀ log ∈ appendedBy circumstance.fault request, log.scheduledTransferId ≠ id) :
    (perform workerIdOf worker request circumstance store).2.logged id = store.logged id := by
  unfold AnyScheduledTransferStore.logged
  rw [executions_perform]
  cases appended : appendedBy circumstance.fault request with
  | none => rfl
  | some log => exact List.filter_cons_of_neg (by simpa using unappended log appended)

theorem refusesFailed_perform :
    (perform workerIdOf worker request circumstance store).2.refusesFailed =
      store.refusesFailed := by
  cases request with
  | listDue _ => exact unchanged_of_answered _ rfl
  | tryAcquireProcessing _ => exact unchanged_of_answered _ (by cases store <;> rfl)
  | releaseProcessing _ => exact unchanged_of_answered _ (by cases store <;> rfl)
  | listExecutions _ => exact unchanged_of_answered _ rfl
  | executeRelay _ _ _ => exact unchanged_of_answered _ rfl
  | appendExecution _ => exact unchanged_of_answered _ (by cases store <;> rfl)
  | mathRandom => rfl
  | updateAfterExecution id patch =>
    simp only [perform]
    cases updated : store.updateAfterExecution id patch with
    | none => rfl
    | some next =>
      refine unchanged_of_answered _ ?_
      cases store with
      | memory store =>
        cases updated
        rfl
      | postgres store =>
        obtain ⟨_, _, same⟩ := Option.map_eq_some_iff.mp updated
        rw [← same]
        rfl

/-- What the user agreed to. -/
def ScheduledTransfer.terms (transfer : ScheduledTransfer) :
    ScheduleFrequency × Option Date × RelayPayload :=
  (transfer.frequency, transfer.endAt, transfer.relayPayload)

/-- No call changes what the user agreed to. -/
theorem terms_perform (id : TransferId) :
    ((perform workerIdOf worker request circumstance store).2.transfers.get id).map
        ScheduledTransfer.terms =
      (store.transfers.get id).map ScheduledTransfer.terms := by
  rw [transfers_perform]
  split
  · rename_i written patch _
    rw [TransferTable.get_patch]
    split
    · rename_i same
      rw [same, Option.map_map]
      rfl
    · rfl
  · rfl

end Effects

/-! ## Current copies -/

/-- The executions were counted in the log as it stands. -/
def Stage.CountedIn (store : AnyScheduledTransferStore) : Stage → Prop
  | .counted _ transfer priorExecutions _ =>
    priorExecutions = (store.listExecutions transfer.id).length
  | _ => True

/-- The transfer in hand was due. -/
def Stage.Timely : Stage → Prop
  | .acquired now transfer _ => transfer.nextRunAt ≤ now
  | .counted now transfer _ _ => transfer.nextRunAt ≤ now
  | .answered now transfer _ _ => transfer.nextRunAt ≤ now
  | .logged now transfer _ _ => transfer.nextRunAt ≤ now
  | _ => True

/-- What a worker has read is so: the copies to be used are those of different records, which are
as copied, and active. -/
structure Current (stage : Stage) (store : AnyScheduledTransferStore) : Prop where
  once : (stage.copies.map ScheduledTransfer.id).Nodup
  standing : ∀ transfer ∈ stage.copies,
    store.transfers.get transfer.id = some transfer ∧ transfer.status = .active
  counted : stage.CountedIn store
  timely : stage.Timely

namespace Current

variable {stage onward : Stage} {store next : AnyScheduledTransferStore}

theorem idle (store : AnyScheduledTransferStore) : Current .idle store :=
  ⟨List.nodup_nil, fun _ member => absurd member List.not_mem_nil, trivial, trivial⟩

/-- Copies that are used up leave the others current. -/
theorem fewer (current : Current stage store) (fewer : onward.copies.Sublist stage.copies)
    (same : next.transfers = store.transfers) (counted : onward.CountedIn next)
    (timely : onward.Timely) : Current onward next where
  once := (fewer.map _).nodup current.once
  standing := fun transfer member => same ▸ current.standing transfer (fewer.subset member)
  counted := counted
  timely := timely

end Current

/-- A worker that is alone works with current copies. -/
theorem current_of_next {Worker : Type} {workerIdOf : Worker → WorkerId} {worker : Worker}
    {stage onward : Stage} {request : SchedulerCall} {circumstance : Circumstance}
    {store : AnyScheduledTransferStore} (current : Current stage store)
    (made : Stage.Next stage request
      (perform workerIdOf worker request circumstance store).1 onward) :
    Current onward (perform workerIdOf worker request circumstance store).2 := by
  have unwritten (unwritten : writtenBy store circumstance.fault request = none) :
      (perform workerIdOf worker request circumstance store).2.transfers = store.transfers := by
    rw [transfers_perform, unwritten]
  generalize answered : (perform workerIdOf worker request circumstance store).1 = answer at made
  cases made with
  | @listed now due =>
    obtain ⟨listed, -⟩ := carriedOut_of_ok answered
    subst listed
    refine ⟨AnyScheduledTransferStore.nodup_listDue .., fun transfer member => ?_, trivial, trivial⟩
    rw [unwritten rfl]
    exact AnyScheduledTransferStore.listDue_spec member
  | unlisted _ => exact .idle _
  | @acquired now due transfer rest suffix isDue =>
    have timely : transfer.nextRunAt ≤ now := of_decide_eq_true isDue
    exact current.fewer suffix.sublist (unwritten rfl) trivial timely
  | unacquired suffix =>
    exact current.fewer ((List.sublist_cons_self ..).trans suffix.sublist) (unwritten rfl) trivial
      trivial
  | refused _ => exact .idle _
  | counted =>
    obtain ⟨listed, same⟩ := listExecutions_answer answered
    refine current.fewer (List.Sublist.refl _) (unwritten rfl) ?_ current.timely
    rw [same, listed]
    exact rfl
  | uncounted => exact current.fewer (List.sublist_cons_self ..) (unwritten rfl) trivial trivial
  | answered => exact current.fewer (List.Sublist.refl _) (unwritten rfl) trivial current.timely
  | unanswered => exact current.fewer (List.sublist_cons_self ..) (unwritten rfl) trivial trivial
  | logged => exact current.fewer (List.Sublist.refl _) (unwritten rfl) trivial current.timely
  | unlogged => exact current.fewer (List.sublist_cons_self ..) (unwritten rfl) trivial trivial
  | rolled => exact current.fewer (List.Sublist.refl _) (unwritten rfl) trivial current.timely
  | @settled now transfer response due random =>
    have once := List.nodup_cons.mp current.once
    refine ⟨once.2, fun other member => ?_, trivial, trivial⟩
    -- The copies left are those of other records.
    have different : other.id ≠ transfer.id := by
      rintro same
      exact once.1 (same ▸ List.mem_map_of_mem member)
    obtain ⟨stands, active⟩ := current.standing other (List.mem_cons_of_mem _ member)
    exact ⟨(get_update_of_ne different).trans stands, active⟩
  | released => exact current.fewer (List.Sublist.refl _) (unwritten rfl) trivial trivial
  | unreleased => exact .idle _

end Ancore.Relayer
