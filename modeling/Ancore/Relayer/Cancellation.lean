import Ancore.Relayer.UserRequests

/-! # Cancellation and pause stick, unless an execution is in hand

A worker that has a transfer in hand will still execute it and write its record,
whatever the record says meanwhile.  Where a user's write never falls into such a
time, a transfer that was cancelled or paused is in nobody's hands, and stays as
it is. -/

namespace Ancore.Relayer

open Ancore.Library

variable {Worker : Type} {workerIdOf : Worker → WorkerId}

namespace AnyScheduledTransferStore

def statusOf (id : TransferId) (store : AnyScheduledTransferStore) :
    Option ScheduledTransferStatus :=
  (store.transfers.get id).map ScheduledTransfer.status

/-- `tryAcquireProcessing` looks at the status of the record. -/
def rechecks : AnyScheduledTransferStore → Bool
  | memory _ => true
  | postgres _ => false

/-- The transfer is neither paused nor cancelled. -/
def NotStopped (id : TransferId) (store : AnyScheduledTransferStore) : Prop :=
  store.statusOf id ≠ some .paused ∧ store.statusOf id ≠ some .cancelled

end AnyScheduledTransferStore

/-! ## What users were told -/

/-- The status a user's call returned for the transfer. -/
def returnedStatus (id : TransferId) (exchange : ServiceExchange Worker) :
    Option ScheduledTransferStatus :=
  match exchange with
  | ⟨_, _, .inr (.updateStatus updated status), _, .ok (some _)⟩ =>
    if updated = id then some status else none
  | _ => none

/-- The status a user's call wrote for the transfer. -/
def writtenStatus (id : TransferId) (exchange : ServiceExchange Worker) :
    Option ScheduledTransferStatus :=
  match exchange.request with
  | .inr (.updateStatus updated status) =>
    if updated = id ∧ exchange.circumstance.fault ≠ some .before then some status else none
  | _ => none

/-- A cancellation of the transfer has returned it. -/
def Cancelled (id : TransferId) (exchanges : List (ServiceExchange Worker)) : Prop :=
  ∃ exchange ∈ exchanges, returnedStatus id exchange = some .cancelled

instance (id : TransferId) (exchanges : List (ServiceExchange Worker)) :
    Decidable (Cancelled id exchanges) :=
  inferInstanceAs (Decidable (∃ _ ∈ _, _))

/-- A pause of the transfer has returned it, and no user changed it since. -/
def Paused (id : TransferId) : List (ServiceExchange Worker) → Prop
  | [] => False
  | exchange :: earlier =>
    returnedStatus id exchange = some .paused ∨ writtenStatus id exchange = none ∧ Paused id earlier

instance pausedDecidable (id : TransferId) :
    (exchanges : List (ServiceExchange Worker)) → Decidable (Paused id exchanges)
  | [] => isFalse not_false
  | _ :: earlier =>
    have : Decidable (Paused id earlier) := pausedDecidable id earlier
    inferInstanceAs (Decidable (_ ∨ _ ∧ _))

/-- The record is as the users were told. -/
def AsTold (id : TransferId) (store : AnyScheduledTransferStore)
    (exchanges : List (ServiceExchange Worker)) : Prop :=
  (Cancelled id exchanges → store.statusOf id = some .cancelled) ∧
    (Paused id exchanges → store.statusOf id = some .paused)

/-- The call executes the transfer. -/
def executesTransfer (id : TransferId) (exchange : ServiceExchange Worker) : Bool :=
  match exchange.request with
  | .inl (.executeRelay occurrence _ _) => occurrence.1 = id
  | _ => false

/-- A call finds the record as the users were told, and executes no transfer that was cancelled or
paused. -/
def KeepsWord (id : TransferId) (exchange : ServiceExchange Worker)
    (earlier : List (ServiceExchange Worker)) : Prop :=
  AsTold id exchange.found earlier ∧
    (executesTransfer id exchange = true → ¬ Cancelled id earlier ∧ ¬ Paused id earlier)

instance (id : TransferId) (store : AnyScheduledTransferStore)
    (exchanges : List (ServiceExchange Worker)) : Decidable (AsTold id store exchanges) :=
  inferInstanceAs (Decidable ((_ → _) ∧ (_ → _)))

instance (id : TransferId) (exchange : ServiceExchange Worker)
    (earlier : List (ServiceExchange Worker)) : Decidable (KeepsWord id exchange earlier) :=
  inferInstanceAs (Decidable (_ ∧ (_ → _)))

/-! ## What is in hand -/

/-- Whether a worker that has made the call still has the transfer in hand.  Where the store does
not look at the status again, it is in hand from the listing on. -/
def stillInHand (rechecks : Bool) (id : TransferId) (held : Bool) :
    (request : ServiceCall) → ServiceAnswer request → Bool
  | .inl (.listDue _), .ok due => !rechecks && due.any (·.id = id)
  | .inl (.listDue _), .error _ => false
  | .inl (.tryAcquireProcessing acquired), .ok true => acquired = id || held
  | .inl (.tryAcquireProcessing acquired), .ok false => acquired ≠ id && held
  | .inl (.tryAcquireProcessing _), .error _ => false
  | .inl (.listExecutions listed), .error _ => listed ≠ id && held
  | .inl (.executeRelay occurrence _ _), .error _ => occurrence.1 ≠ id && held
  | .inl (.appendExecution log), .error _ => log.scheduledTransferId ≠ id && held
  | .inl (.updateAfterExecution updated _), _ => updated ≠ id && held
  | .inl (.releaseProcessing _), .error _ => false
  | _, _ => held

/-- The worker will execute the transfer or write its record without looking at it again. -/
def inHand [DecidableEq Worker] (id : TransferId) (worker : Worker) :
    List (ServiceExchange Worker) → Bool
  | [] => false
  | exchange :: earlier =>
    if exchange.worker = worker then
      stillInHand exchange.found.rechecks id (inHand id worker earlier) exchange.request
        exchange.answer
    else inHand id worker earlier

/-- What a user writes, it writes while nobody has the transfer in hand, and a pause does not find
it cancelled. -/
def WritesApart [DecidableEq Worker] (exchange : ServiceExchange Worker)
    (earlier : List (ServiceExchange Worker)) : Prop :=
  match exchange.request with
  | .inr (.updateStatus id status) => exchange.circumstance.fault ≠ some .before →
      (∀ worker, inHand id worker earlier = false) ∧
        (status = .paused → exchange.found.statusOf id ≠ some .cancelled)
  | _ => True

instance [DecidableEq Worker] [Fintype Worker] (exchange : ServiceExchange Worker)
    (earlier : List (ServiceExchange Worker)) : Decidable (WritesApart exchange earlier) :=
  match exchange with
  | ⟨_, _, .inr (.updateStatus _ _), _, _⟩ => inferInstanceAs (Decidable (_ → (∀ _, _) ∧ (_ → _)))
  | ⟨_, _, .inr (.getByIdForCaller _ _), _, _⟩ => isTrue trivial
  | ⟨_, _, .inl _, _, _⟩ => isTrue trivial

/-! ## At each stage -/

/-- The transfer whose copy is in use. -/
def Stage.inUse : Stage → Option ScheduledTransfer
  | .acquired _ transfer _ => some transfer
  | .counted _ transfer _ _ => some transfer
  | .answered _ transfer _ _ => some transfer
  | .logged _ transfer _ _ => some transfer
  | _ => none

/-- The transfers still to come. -/
def Stage.waiting : Stage → List ScheduledTransfer
  | .idle => []
  | .between _ due => due
  | .acquired _ _ due => due
  | .counted _ _ _ due => due
  | .answered _ _ _ due => due
  | .logged _ _ _ due => due
  | .leaving _ _ due => due

/-- The transfers that will be executed or written without looking at their records again. -/
def Stage.InHand (rechecks : Bool) (id : TransferId) (stage : Stage) : Prop :=
  (∃ transfer ∈ stage.inUse, transfer.id = id) ∨
    rechecks = false ∧ ∃ transfer ∈ stage.waiting, transfer.id = id

/-- At a stage of a worker: what is in hand is so by the calls made, and neither paused nor
cancelled. -/
structure HoldsUnstopped [DecidableEq Worker] (worker : Worker) (stage : Stage)
    (world : ServiceWorld Worker) : Prop where
  once : (stage.copies.map ScheduledTransfer.id).Nodup
  held : ∀ id, stage.InHand world.state.rechecks id → inHand id worker world.exchanges = true
  unstopped : ∀ id, stage.InHand world.state.rechecks id → world.state.NotStopped id

/-- Every user was told the truth so far, and is still. -/
structure WordKept (id : TransferId) (world : ServiceWorld Worker) : Prop where
  past : Historically (KeepsWord id) world.exchanges
  now : AsTold id world.state world.exchanges

namespace Stage

end Stage

theorem AsTold.of_notStopped {id : TransferId} {store : AnyScheduledTransferStore}
    {exchanges : List (ServiceExchange Worker)} (told : AsTold id store exchanges)
    (notStopped : store.NotStopped id) : ¬ Cancelled id exchanges ∧ ¬ Paused id exchanges :=
  ⟨fun cancelled => notStopped.2 (told.1 cancelled), fun paused => notStopped.1 (told.2 paused)⟩

/-! ## What the calls change -/

section Steps

variable {worker : Worker} {stage onward : Stage} {circumstance : Circumstance}
  {world : ServiceWorld Worker} {id : TransferId}

section Records

variable {request : SchedulerCall} {store : AnyScheduledTransferStore}

theorem rechecks_perform :
    (perform workerIdOf worker request circumstance store).2.rechecks = store.rechecks := by
  have same := refusesFailed_perform workerIdOf worker request circumstance store
  generalize (perform workerIdOf worker request circumstance store).2 = next at *
  cases store <;> cases next <;> first | rfl | cases same

theorem statusOf_perform (unwritten : ∀ written ∈ writtenBy store circumstance.fault request,
      written.1 ≠ id) :
    (perform workerIdOf worker request circumstance store).2.statusOf id = store.statusOf id := by
  unfold AnyScheduledTransferStore.statusOf
  rw [transfers_perform]
  cases written : writtenBy store circumstance.fault request with
  | none => rfl
  | some written' =>
    have different := unwritten _ written
    rw [TransferTable.get_patch, if_neg (Ne.symm different)]

theorem settlement_notStopped (transfer : ScheduledTransfer) (now : Date) (success : Bool)
    (random : Random) : (transfer.settlement now success random).status ≠ .paused ∧
      (transfer.settlement now success random).status ≠ .cancelled := by
  unfold ScheduledTransfer.settlement
  dsimp only
  split_ifs
  · split <;> exact ⟨nofun, nofun⟩
  · exact ⟨nofun, nofun⟩
  · exact ⟨nofun, nofun⟩
  · exact ⟨nofun, nofun⟩

/-- The update of an execution stops nothing. -/
theorem notStopped_update {other : TransferId} {patch : ExecutionPatch}
    (patched : patch.status ≠ .paused ∧ patch.status ≠ .cancelled)
    (notStopped : store.NotStopped other) :
    (perform workerIdOf worker (.updateAfterExecution id patch) circumstance store).2.NotStopped
      other := by
  by_cases same : other = id
  · subst same
    unfold AnyScheduledTransferStore.NotStopped AnyScheduledTransferStore.statusOf at *
    rw [transfers_perform]
    simp only [writtenBy]
    split_ifs
    · rw [TransferTable.get_patch, if_pos rfl]
      cases store.transfers.get other with
      | none => exact ⟨(Option.some_ne_none _).symm, (Option.some_ne_none _).symm⟩
      | some transfer => simpa [ScheduledTransfer.patched] using patched
    · exact notStopped
  · unfold AnyScheduledTransferStore.NotStopped
    rw [statusOf_perform]
    · exact notStopped
    · intro written member
      simp only [writtenBy, Option.mem_def, Option.ite_none_right_eq_some,
        Option.some.injEq] at member
      rw [← member.2]
      exact Ne.symm same

/-- What is listed as due is active. -/
theorem notStopped_of_active {transfer : ScheduledTransfer}
    (stands : store.transfers.get transfer.id = some transfer)
    (active : transfer.status = .active) : store.NotStopped transfer.id := by
  unfold AnyScheduledTransferStore.NotStopped AnyScheduledTransferStore.statusOf
  rw [stands, Option.map_some, active]
  exact ⟨nofun, nofun⟩

/-- Where the store looks at the status again, what it acquires is active. -/
theorem notStopped_of_acquired {workerId : WorkerId} {dateNow databaseNow : Date}
    (rechecks : store.rechecks = true)
    (acquired : (store.tryAcquireProcessing id workerId dateNow databaseNow).1 = true) :
    store.NotStopped id := by
  cases store with
  | postgres store => cases rechecks
  | memory store =>
    simp only [AnyScheduledTransferStore.tryAcquireProcessing,
      ScheduledTransferStore.tryAcquireProcessing] at acquired
    split_ifs at acquired
    split at acquired
    · cases acquired
    · rename_i transfer found
      split at acquired
      · rename_i active
        have sameId : transfer.id = id := (TransferTable.get_eq_some_iff.mp found).2
        subst sameId
        exact @notStopped_of_active (.memory store) _ found active
      · cases acquired

end Records

/-- The copies of a stage are of different records: the one in use is none of those waiting. -/
theorem waiting_ne {transfer other : ScheduledTransfer} {due : List ScheduledTransfer}
    (once : ((transfer :: due).map ScheduledTransfer.id).Nodup) (member : other ∈ due) :
    transfer.id ≠ other.id :=
  fun same => (List.nodup_cons.mp once).1 (same ▸ List.mem_map_of_mem member)

/-- What is in hand after a call was so before, or enters it neither paused nor cancelled; and the
calls made say so. -/
theorem inHand_of_next {request : SchedulerCall} {store : AnyScheduledTransferStore}
    (once : (stage.copies.map ScheduledTransfer.id).Nodup)
    (made : Stage.Next stage request
      (perform workerIdOf worker request circumstance store).1 onward) :
    (onward.copies.map ScheduledTransfer.id).Nodup ∧
      ∀ id, onward.InHand store.rechecks id →
        stage.InHand store.rechecks id ∧ stillInHand store.rechecks id true (.inl request)
            (perform workerIdOf worker request circumstance store).1 = true ∨
          store.NotStopped id ∧ ∀ held, stillInHand store.rechecks id held (.inl request)
            (perform workerIdOf worker request circumstance store).1 = true := by
  have kept {weaker : List ScheduledTransfer} (fewer : weaker.Sublist stage.copies) :
      (weaker.map ScheduledTransfer.id).Nodup := (fewer.map _).nodup once
  generalize answer : (perform workerIdOf worker request circumstance store).1 = answered at made
  cases made with
  | @listed now due rests =>
    obtain ⟨listed, -⟩ := carriedOut_of_ok answer
    refine ⟨listed ▸ AnyScheduledTransferStore.nodup_listDue .., fun id inHand => .inr ?_⟩
    obtain ⟨_, none, _⟩ | ⟨rechecks, transfer, member, rfl⟩ := inHand
    · cases none
    · obtain ⟨stands, active⟩ := AnyScheduledTransferStore.listDue_spec (listed ▸ member :)
      refine ⟨notStopped_of_active stands active, fun held => ?_⟩
      simp only [stillInHand, rechecks, Bool.not_false, Bool.true_and, List.any_eq_true,
        decide_eq_true_eq]
      exact ⟨transfer, member, rfl⟩
  | unlisted _ => exact ⟨List.nodup_nil, fun id inHand => by simp [Stage.InHand, Stage.inUse,
      Stage.waiting] at inHand⟩
  | @acquired now due transfer rest suffix isDue =>
    refine ⟨kept suffix.sublist, fun id inHand => ?_⟩
    obtain ⟨_, member, rfl⟩ | ⟨rechecks, waiting, member, rfl⟩ := inHand
    · cases member
      cases rechecks : store.rechecks with
      | true =>
        obtain ⟨granted, -⟩ := carriedOut_of_ok answer
        exact .inr ⟨notStopped_of_acquired rechecks granted, fun _ => by simp [stillInHand]⟩
      | false =>
        exact .inl ⟨.inr ⟨rfl, transfer, suffix.subset List.mem_cons_self, rfl⟩, by
          simp [stillInHand]⟩
    · exact .inl ⟨.inr ⟨rechecks, waiting, suffix.subset (List.mem_cons_of_mem _ member), rfl⟩, by
        simp [stillInHand]⟩
  | @unacquired now due transfer rest suffix =>
    refine ⟨kept ((List.sublist_cons_self ..).trans suffix.sublist), fun id inHand => ?_⟩
    obtain ⟨_, none, _⟩ | ⟨rechecks, waiting, member, rfl⟩ := inHand
    · cases none
    · have different := waiting_ne (kept suffix.sublist) member
      exact .inl ⟨.inr ⟨rechecks, waiting, suffix.subset (List.mem_cons_of_mem _ member), rfl⟩, by
        simp [stillInHand, different]⟩
  | refused _ => exact ⟨List.nodup_nil, fun id inHand => by simp [Stage.InHand, Stage.inUse,
      Stage.waiting] at inHand⟩
  | counted => exact ⟨once, fun id inHand => .inl ⟨inHand, rfl⟩⟩
  | answered => exact ⟨once, fun id inHand => .inl ⟨inHand, rfl⟩⟩
  | logged => exact ⟨once, fun id inHand => .inl ⟨inHand, rfl⟩⟩
  | rolled => exact ⟨once, fun id inHand => .inl ⟨inHand, rfl⟩⟩
  | released => exact ⟨once, fun id inHand => .inl ⟨inHand, rfl⟩⟩
  | unreleased => exact ⟨List.nodup_nil, fun id inHand => by simp [Stage.InHand, Stage.inUse,
      Stage.waiting] at inHand⟩
  | @uncounted now transfer due =>
    refine ⟨kept (List.sublist_cons_self ..), fun id inHand => ?_⟩
    obtain ⟨_, none, _⟩ | ⟨rechecks, waiting, member, rfl⟩ := inHand
    · cases none
    · exact .inl ⟨.inr ⟨rechecks, waiting, member, rfl⟩, by
        simp [stillInHand, waiting_ne once member]⟩
  | @unanswered now transfer priorExecutions due =>
    refine ⟨kept (List.sublist_cons_self ..), fun id inHand => ?_⟩
    obtain ⟨_, none, _⟩ | ⟨rechecks, waiting, member, rfl⟩ := inHand
    · cases none
    · exact .inl ⟨.inr ⟨rechecks, waiting, member, rfl⟩, by
        simp [stillInHand, ScheduledTransfer.occurrence, waiting_ne once member]⟩
  | @unlogged now transfer response due =>
    refine ⟨kept (List.sublist_cons_self ..), fun id inHand => ?_⟩
    obtain ⟨_, none, _⟩ | ⟨rechecks, waiting, member, rfl⟩ := inHand
    · cases none
    · exact .inl ⟨.inr ⟨rechecks, waiting, member, rfl⟩, by
        simp [stillInHand, ScheduledTransfer.executionLog, waiting_ne once member]⟩
  | @settled now transfer response due =>
    refine ⟨kept (List.sublist_cons_self ..), fun id inHand => ?_⟩
    obtain ⟨_, none, _⟩ | ⟨rechecks, waiting, member, rfl⟩ := inHand
    · cases none
    · exact .inl ⟨.inr ⟨rechecks, waiting, member, rfl⟩, by
        simp [stillInHand, waiting_ne once member]⟩

/-- A call changes the status of a transfer in use only, and stops none. -/
theorem status_of_next {request : SchedulerCall} {store : AnyScheduledTransferStore}
    (made : Stage.Next stage request
      (perform workerIdOf worker request circumstance store).1 onward) (id : TransferId) :
    ((perform workerIdOf worker request circumstance store).2.statusOf id = store.statusOf id ∨
        ∃ transfer ∈ stage.inUse, transfer.id = id) ∧
      (store.NotStopped id →
        (perform workerIdOf worker request circumstance store).2.NotStopped id) := by
  have unwritten (unwritten : writtenBy store circumstance.fault request = none) :
      (perform workerIdOf worker request circumstance store).2.statusOf id = store.statusOf id :=
    statusOf_perform (by simp [unwritten])
  generalize (perform workerIdOf worker request circumstance store).1 = answer at made
  by_cases same : (perform workerIdOf worker request circumstance store).2.statusOf id =
      store.statusOf id
  · refine ⟨.inl same, fun notStopped => ?_⟩
    unfold AnyScheduledTransferStore.NotStopped
    rw [same]
    exact notStopped
  · cases made with
    | @settled now transfer response due random =>
      have settles := settlement_notStopped transfer now response.success random
      refine ⟨.inr ⟨transfer, rfl, ?_⟩, notStopped_update settles⟩
      by_contra different
      refine same (statusOf_perform fun written member => ?_)
      simp only [writtenBy, Option.mem_def, Option.ite_none_right_eq_some,
        Option.some.injEq] at member
      rw [← member.2]
      exact different
    | _ => exact absurd (unwritten rfl) same

theorem cancelled_cons_of_none {exchange : ServiceExchange Worker}
    {earlier : List (ServiceExchange Worker)} (untold : returnedStatus id exchange = none) :
    Cancelled id (exchange :: earlier) ↔ Cancelled id earlier := by
  simp [Cancelled, untold]

theorem paused_cons_of_none {exchange : ServiceExchange Worker}
    {earlier : List (ServiceExchange Worker)} (untold : returnedStatus id exchange = none)
    (unwritten : writtenStatus id exchange = none) :
    Paused id (exchange :: earlier) ↔ Paused id earlier := by
  simp [Paused, untold, unwritten]

theorem rejected_ne_ok {α : Type} {value : α} :
    (Except.error .rejected : Except Rejection α) ≠ .ok value :=
  nofun

/-- A write of a user that is not carried out returns no record and changes nothing; one that is
carried out sets the status. -/
theorem updateStatus_cases (updated : TransferId) (status : ScheduledTransferStatus)
    (store : AnyScheduledTransferStore) :
    ((servicePerform workerIdOf worker (.inr (.updateStatus updated status)) circumstance
          store).2 = store ∧
        ∀ transfer, (servicePerform workerIdOf worker (.inr (.updateStatus updated status))
          circumstance store).1 ≠ .ok (some transfer)) ∨
      circumstance.fault ≠ some .before ∧
        (∀ id, (servicePerform workerIdOf worker (.inr (.updateStatus updated status))
          circumstance store).2.statusOf id =
            if id = updated then (store.statusOf updated).map fun _ => status
            else store.statusOf id) ∧
        ∀ transfer, (servicePerform workerIdOf worker (.inr (.updateStatus updated status))
          circumstance store).1 = .ok (some transfer) → (store.statusOf updated).isSome := by
  cases carried : store.updateStatus updated status with
  | none => exact .inl (by simp [servicePerform, carried])
  | some carriedOut =>
    obtain ⟨returned, record⟩ := AnyScheduledTransferStore.updateStatus_spec carried
    have written (id : TransferId) : carriedOut.2.statusOf id =
        if id = updated then (store.statusOf updated).map fun _ => status
        else store.statusOf id := by
      unfold AnyScheduledTransferStore.statusOf
      rw [record, returned]
      split
      · rw [Option.map_map, Option.map_map]
        rfl
      · rfl
    have told (transfer : ScheduledTransfer) (some : carriedOut.1 = some transfer) :
        (store.statusOf updated).isSome := by
      rw [returned, Option.map_eq_some_iff] at some
      obtain ⟨stored, found, -⟩ := some
      simp [AnyScheduledTransferStore.statusOf, found]
    simp only [servicePerform, carried]
    match circumstance.fault with
    | none => exact .inr ⟨nofun, written, fun transfer ok => told transfer (Except.ok.inj ok)⟩
    | some .before => exact .inl ⟨rfl, fun _ => rejected_ne_ok⟩
    | some .after => exact .inr ⟨nofun, written, fun _ ok => absurd ok rejected_ne_ok⟩

theorem rechecks_servicePerform (request : UserCall) (store : AnyScheduledTransferStore) :
    (servicePerform workerIdOf worker (.inr request) circumstance store).2.rechecks =
      store.rechecks := by
  cases request with
  | getByIdForCaller _ _ => exact unchanged_of_answered _ rfl
  | updateStatus updated status =>
    cases carried : store.updateStatus updated status with
    | none => simp only [servicePerform, carried]
    | some carriedOut =>
      simp only [servicePerform, carried]
      refine unchanged_of_answered _ ?_
      cases store with
      | memory store =>
        cases carried
        rfl
      | postgres store =>
        obtain ⟨_, _, same⟩ := Option.map_eq_some_iff.mp carried
        rw [← same]
        rfl

/-- Told nothing new, users are told the truth by the same record. -/
theorem AsTold.after_untold {exchange : ServiceExchange Worker}
    {earlier : List (ServiceExchange Worker)} {store next : AnyScheduledTransferStore}
    (told : AsTold id store earlier) (same : next.statusOf id = store.statusOf id)
    (untold : returnedStatus id exchange = none) : AsTold id next (exchange :: earlier) := by
  constructor
  · intro cancelled
    exact same.trans (told.1 ((cancelled_cons_of_none untold).mp cancelled))
  · rintro (returned | ⟨-, paused⟩)
    · rw [untold] at returned
      cases returned
    · exact same.trans (told.2 paused)

/-- What a user is told of a status that was written is true, and what was told before stays so. -/
theorem AsTold.after_write {updated : TransferId} {status : ScheduledTransferStatus}
    (told : AsTold id world.state world.exchanges)
    (allowed : status = .paused ∨ status = .cancelled)
    (uncancelled : status = .paused → world.state.statusOf updated ≠ some .cancelled)
    (carriedOut : circumstance.fault ≠ some .before)
    (written : (servicePerform workerIdOf worker (.inr (.updateStatus updated status)) circumstance
      world.state).2.statusOf id = if id = updated then
        (world.state.statusOf updated).map fun _ => status else world.state.statusOf id)
    (returned : ∀ transfer, (servicePerform workerIdOf worker (.inr (.updateStatus updated status))
      circumstance world.state).1 = .ok (some transfer) →
        (world.state.statusOf updated).isSome) :
    AsTold id (servicePerform workerIdOf worker (.inr (.updateStatus updated status)) circumstance
      world.state).2 (world.after (servicePerform workerIdOf) worker
        (.inr (.updateStatus updated status)) circumstance).exchanges := by
  have toldNow (what : ScheduledTransferStatus) (now : returnedStatus id (world.exchange
      (servicePerform workerIdOf) worker (.inr (.updateStatus updated status)) circumstance) =
        some what) : (servicePerform workerIdOf worker (.inr (.updateStatus updated status))
          circumstance world.state).2.statusOf id = some what := by
    unfold World.exchange at now
    generalize answer : (servicePerform workerIdOf worker (.inr (.updateStatus updated status))
      circumstance world.state).1 = answered at now
    match answered, answer, now with
    | .ok (some transfer), answer, now =>
      simp only [returnedStatus, Option.ite_none_right_eq_some, Option.some.injEq] at now
      obtain ⟨stored, found⟩ := Option.isSome_iff_exists.mp (returned transfer answer)
      rw [written, if_pos now.1.symm, found, Option.map_some, now.2]
  by_cases same : id = updated
  · rw [if_pos same] at written
    constructor
    · rintro ⟨exchange, member, cancelled⟩
      obtain rfl | before := List.mem_cons.mp member
      · exact toldNow _ cancelled
      · have already := told.1 ⟨exchange, before, cancelled⟩
        rw [same] at already
        obtain rfl | rfl := allowed
        · exact absurd already (uncancelled rfl)
        · rw [written, already, Option.map_some]
    · rintro (now | ⟨unwritten, -⟩)
      · exact toldNow _ now
      · simp [writtenStatus, World.exchange, same, carriedOut] at unwritten
  · rw [if_neg same] at written
    refine told.after_untold written ?_
    unfold World.exchange
    match (servicePerform workerIdOf worker (.inr (.updateStatus updated status)) circumstance
      world.state).1 with
    | .ok (some _) => exact if_neg (Ne.symm same)
    | .ok none => rfl
    | .error _ => rfl

section Service

variable [DecidableEq Worker]

theorem inHand_after_self (request : ServiceCall) :
    inHand id worker
        (world.after (servicePerform workerIdOf) worker request circumstance).exchanges =
      stillInHand world.state.rechecks id (inHand id worker world.exchanges) request
        (servicePerform workerIdOf worker request circumstance world.state).1 :=
  if_pos rfl

theorem inHand_after_other {other : Worker} (different : other ≠ worker) (request : ServiceCall) :
    inHand id other
        (world.after (servicePerform workerIdOf) worker request circumstance).exchanges =
      inHand id other world.exchanges :=
  if_neg (Ne.symm different)

/-- What a call leaves a worker with: it may be no longer in hand. -/
theorem HoldsUnstopped.after_other {other : Worker} {request : ServiceCall}
    (holds : HoldsUnstopped other stage world) (different : other ≠ worker)
    (rechecks : (servicePerform workerIdOf worker request circumstance world.state).2.rechecks =
      world.state.rechecks)
    (unstopped : ∀ id, stage.InHand world.state.rechecks id → world.state.NotStopped id →
      (servicePerform workerIdOf worker request circumstance world.state).2.NotStopped id) :
    HoldsUnstopped other stage
      (world.after (servicePerform workerIdOf) worker request circumstance) where
  once := holds.once
  held := by
    intro id still
    rw [inHand_after_other different]
    simp only [World.after, rechecks] at still
    exact holds.held id still
  unstopped := by
    intro id still
    simp only [World.after, rechecks] at still ⊢
    exact unstopped id still (holds.unstopped id still)

/-- A call of a tick. -/
theorem word_of_tick {request : SchedulerCall} (word : WordKept id world)
    (holds : HoldsUnstopped worker stage world)
    (made : Stage.Next stage request
      (perform workerIdOf worker request circumstance world.state).1 onward) :
    WordKept id (world.after (servicePerform workerIdOf) worker (.inl request) circumstance) ∧
      HoldsUnstopped worker onward
        (world.after (servicePerform workerIdOf) worker (.inl request) circumstance) ∧
      ∀ other, other ≠ worker → ∀ stage, HoldsUnstopped other stage world →
        HoldsUnstopped other stage
          (world.after (servicePerform workerIdOf) worker (.inl request) circumstance) := by
  have status := status_of_next made
  have rechecks : (servicePerform workerIdOf worker (.inl request) circumstance
      world.state).2.rechecks = world.state.rechecks := rechecks_perform
  have inUse {transfer : ScheduledTransfer} (used : transfer ∈ stage.inUse) :
      world.state.NotStopped transfer.id := holds.unstopped _ (.inl ⟨transfer, used, rfl⟩)
  refine ⟨⟨⟨⟨word.now, fun executes => ?_⟩, word.past⟩, ?_⟩, ?_, ?_⟩
  · have executed : ∃ transfer ∈ stage.inUse, transfer.id = id := by
      generalize (perform workerIdOf worker request circumstance world.state).1 = answer at made
      cases made with
      | answered => exact ⟨_, rfl, of_decide_eq_true executes⟩
      | unanswered => exact ⟨_, rfl, of_decide_eq_true executes⟩
      | _ => cases executes
    obtain ⟨transfer, used, rfl⟩ := executed
    exact word.now.of_notStopped (inUse used)
  · rw [AsTold, World.after, cancelled_cons_of_none rfl, paused_cons_of_none rfl rfl]
    obtain same | ⟨transfer, used, rfl⟩ := (status id).1
    · exact ⟨fun cancelled => same.trans (word.now.1 cancelled),
        fun paused => same.trans (word.now.2 paused)⟩
    · obtain ⟨uncancelled, unpaused⟩ := word.now.of_notStopped (inUse used)
      exact ⟨fun cancelled => absurd cancelled uncancelled, fun paused => absurd paused unpaused⟩
  · obtain ⟨once, enters⟩ := inHand_of_next holds.once made
    refine ⟨once, fun other still => ?_, fun other still => ?_⟩
    · simp only [World.after, rechecks] at still
      rw [inHand_after_self]
      obtain ⟨before, kept⟩ | ⟨-, kept⟩ := enters other still
      · rw [holds.held other before]
        exact kept
      · exact kept _
    · simp only [World.after, rechecks] at still
      obtain ⟨before, -⟩ | ⟨unstopped, -⟩ := enters other still
      · exact (status other).2 (holds.unstopped other before)
      · exact (status other).2 unstopped
  · intro other different otherStage otherHolds
    exact otherHolds.after_other different rechecks fun id _ => (status id).2

theorem inHand_after_user (other : Worker) (request : UserCall) :
    inHand id other
        (world.after (servicePerform workerIdOf) worker (.inr request) circumstance).exchanges =
      inHand id other world.exchanges := by
  by_cases same : other = worker
  · subst same
    exact inHand_after_self _
  · exact inHand_after_other same _

/-- A call of a user. -/
theorem word_of_user {request : UserCall} (word : WordKept id world)
    (allowed : ∀ updated status, request = .updateStatus updated status →
      status = .paused ∨ status = .cancelled)
    (apart : WritesApart
      (world.exchange (servicePerform workerIdOf) worker (.inr request) circumstance)
      world.exchanges) :
    WordKept id (world.after (servicePerform workerIdOf) worker (.inr request) circumstance) ∧
      ∀ other stage, HoldsUnstopped other stage world → HoldsUnstopped other stage
        (world.after (servicePerform workerIdOf) worker (.inr request) circumstance) := by
  have past : KeepsWord id (world.exchange (servicePerform workerIdOf) worker (.inr request)
      circumstance) world.exchanges := ⟨word.now, fun executes => by cases executes⟩
  have rechecks := @rechecks_servicePerform _ workerIdOf worker circumstance request world.state
  -- What is in hand stays so, and a write to another record leaves it unstopped.
  have others (unstopped : ∀ (other : Worker) (held : TransferId),
      inHand held other world.exchanges = true →
        (servicePerform workerIdOf worker (.inr request) circumstance world.state).2.statusOf held =
          world.state.statusOf held) (other : Worker) (stage : Stage)
      (holds : HoldsUnstopped other stage world) : HoldsUnstopped other stage
        (world.after (servicePerform workerIdOf) worker (.inr request) circumstance) := by
    refine ⟨holds.once, fun held still => ?_, fun held still => ?_⟩
    · rw [inHand_after_user]
      simp only [World.after, rechecks] at still
      exact holds.held held still
    · simp only [World.after, rechecks] at still ⊢
      unfold AnyScheduledTransferStore.NotStopped
      rw [unstopped other held (holds.held held still)]
      exact holds.unstopped held still
  cases request with
  | getByIdForCaller asked callerId =>
    have same : (servicePerform workerIdOf worker (.inr (.getByIdForCaller asked callerId))
        circumstance world.state).2 = world.state := by
      obtain kept | kept := answered_cases circumstance.fault world.state
        (world.state.getByIdForCaller asked callerId, world.state)
      · exact kept
      · exact kept
    exact ⟨⟨⟨past, word.past⟩, word.now.after_untold (by rw [World.after, same]) rfl⟩,
      others fun _ _ _ => by rw [same]⟩
  | updateStatus updated status =>
    obtain ⟨same, untold⟩ | ⟨carriedOut, written, returned⟩ :=
      @updateStatus_cases _ workerIdOf worker circumstance updated status world.state
    · refine ⟨⟨⟨past, word.past⟩, word.now.after_untold (by rw [World.after, same]) ?_⟩,
        others fun _ _ _ => by rw [same]⟩
      unfold World.exchange
      match answer : (servicePerform workerIdOf worker (.inr (.updateStatus updated status))
        circumstance world.state).1 with
      | .ok (some transfer) => exact absurd answer (untold transfer)
      | .ok none => rfl
      | .error _ => rfl
    · obtain ⟨free, uncancelled⟩ := apart carriedOut
      refine ⟨⟨⟨past, word.past⟩, word.now.after_write (allowed _ _ rfl) uncancelled carriedOut
        (written id) returned⟩, others fun other held inHand => ?_⟩
      have different : held ≠ updated := by
        rintro rfl
        rw [free other] at inHand
        cases inHand
      rw [written, if_neg different]

/-- Each call of the service. -/
theorem word_step (id : TransferId) :
    OutlineStep (servicePerform workerIdOf) ServiceNext WritesApart (WordKept id)
      (@HoldsUnstopped Worker _) := by
  intro worker stage request circumstance onward world word holds made apart
  cases request with
  | inl request => exact word_of_tick word holds made
  | inr request =>
    have stays : onward = stage := by
      cases request with
      | getByIdForCaller _ _ => exact made.2
      | updateStatus _ _ => exact made.2.1
    have allowed (updated : TransferId) (status : ScheduledTransferStatus)
        (writes : request = .updateStatus updated status) :
        status = .paused ∨ status = .cancelled := by
      subst writes
      exact made.2.2
    obtain ⟨kept, all⟩ := word_of_user word allowed apart
    exact ⟨kept, stays ▸ all worker stage holds, fun other _ stage => all other stage⟩

end Service

end Steps

/-! ## Runs -/

/-- In every run in which users write while nobody has the transfer in hand, and no pause writes
over a cancellation, cancellation and pause stick: each call finds the record as users were told,
none executes a transfer that is cancelled or paused, and the record is as they were told. -/
theorem cancellation_sticks [DecidableEq Worker] (workerIdOf : Worker → WorkerId)
    (store : AnyScheduledTransferStore) (turns : List (Turn Worker ServiceTask Circumstance))
    (apart : Historically WritesApart (serviceRun workerIdOf store turns).world.exchanges)
    (id : TransferId) :
    Historically (KeepsWord id) (serviceRun workerIdOf store turns).world.exchanges ∧
      AsTold id (serviceRun workerIdOf store turns).world.state
        (serviceRun workerIdOf store turns).world.exchanges := by
  have untold : WordKept id (World.mk store [] : ServiceWorld Worker) :=
    ⟨trivial, fun cancelled => by simp [Cancelled] at cancelled, fun paused => paused.elim⟩
  have idle (worker : Worker) : HoldsUnstopped worker .idle
      (World.mk store [] : ServiceWorld Worker) := by
    refine ⟨List.nodup_nil, fun id inHand => ?_, fun id inHand => ?_⟩
    · simp [Stage.InHand, Stage.inUse, Stage.waiting] at inHand
    · simp [Stage.InHand, Stage.inUse, Stage.waiting] at inHand
  obtain ⟨word, -⟩ := invariant_of_outline service_follows (@word_step Worker workerIdOf _ id)
    untold (fun worker => ⟨.idle, trivial, idle worker⟩) turns apart
  exact ⟨word.past, word.now⟩

/-! ### A cancellation of a sample -/

/-- The worker that serves users cancels the daily transfer. -/
def cancelling : List (Turn Bool ServiceTask Circumstance) :=
  .start true (.cancel 7 "caller-a") :: List.replicate 2 (.resume true smoothly)

/-- The worker that ticks makes some calls. -/
def ticking (calls : Nat) : List (Turn Bool ServiceTask Circumstance) :=
  List.replicate calls (.resume false smoothly)

/-- The daily transfer in memory. -/
def dailyMemory : AnyScheduledTransferStore :=
  .memory
    { transfers := ⟨[dailyTransfer], nodup_dailyTransfer⟩, executions := [], processing := [] }

theorem cancellation_sticks_of_sample :
    AsTold 7 (serviceRun (fun _ => 0) dailyMemory
        (cancelling ++ .start false (.tick 1000) :: ticking 7)).world.state
      (serviceRun (fun _ => 0) dailyMemory
        (cancelling ++ .start false (.tick 1000) :: ticking 7)).world.exchanges :=
  (cancellation_sticks (fun _ => 0) dailyMemory
    (cancelling ++ .start false (.tick 1000) :: ticking 7) (by decide) 7).2

/-- In memory, a cancellation between the relay call and the update is written over; in Postgres,
one between the listing and the lease does not keep the transfer from being executed. -/
theorem cancellation_written_over :
    ¬ AsTold 7 (serviceRun (fun _ => 0) dailyMemory
        (.start false (.tick 1000) :: ticking 4 ++ cancelling ++ ticking 2)).world.state
      (serviceRun (fun _ => 0) dailyMemory
        (.start false (.tick 1000) :: ticking 4 ++ cancelling ++ ticking 2)).world.exchanges ∧
      ¬ Historically (KeepsWord 7) (serviceRun (fun _ => 0) dailyStore
        (.start false (.tick 1000) :: ticking 1 ++ cancelling ++ ticking 3)).world.exchanges := by
  decide

end Ancore.Relayer
