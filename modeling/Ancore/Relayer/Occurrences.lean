import Ancore.Library.Agenda
import Ancore.Relayer.Scheduler

/-! # Scheduled occurrences under lease

The world of the scheduler as an agenda worked off under locks: the entry of a
transfer is its `nextRunAt` while it is active, what is performed are the relay
calls, and the holder of a lease is who acquired it last and has not released it.
Each awaited call is one step of the agenda or none.
-/

namespace Ancore.Relayer

open Ancore.Library

variable {Worker : Type}

/-! ## Conditions on the calls -/

/-- The record is active and its next run is the occurrence. -/
def AnyScheduledTransferStore.StandsAt (store : AnyScheduledTransferStore)
    (occurrence : Occurrence) : Prop :=
  ∃ transfer ∈ store.transfers.get occurrence.1,
    transfer.status = .active ∧ transfer.nextRunAt = occurrence.2

instance (store : AnyScheduledTransferStore) (occurrence : Occurrence) :
    Decidable (store.StandsAt occurrence) :=
  inferInstanceAs (Decidable (∃ _ ∈ _, _))

/-- A failed run is not retried at the time of the run itself. -/
def RetriesLater (store : AnyScheduledTransferStore) (id : TransferId) (patch : ExecutionPatch) :
    Prop :=
  patch.status = .active → 0 < patch.consecutiveFailures →
    ∀ transfer ∈ store.transfers.get id, patch.nextRunAt ≠ transfer.nextRunAt

instance (store : AnyScheduledTransferStore) (id : TransferId) (patch : ExecutionPatch) :
    Decidable (RetriesLater store id patch) :=
  inferInstanceAs (Decidable (_ → _ → ∀ _ ∈ _, _))

/-- After the relay service was called, the record is moved on: no call in between rejects, and
the update is carried out. -/
def CarriesOn (found : AnyScheduledTransferStore) (fault : Option Fault) : SchedulerCall → Prop
  | .executeRelay _ _ _ => fault = none
  | .appendExecution _ => fault = none
  | .updateAfterExecution id patch =>
    fault ≠ some .before ∧ (found.updateAfterExecution id patch).isSome ∧
      RetriesLater found id patch
  | _ => True

instance (found : AnyScheduledTransferStore) (fault : Option Fault) :
    (request : SchedulerCall) → Decidable (CarriesOn found fault request)
  | .executeRelay _ _ _ => inferInstanceAs (Decidable (fault = none))
  | .appendExecution _ => inferInstanceAs (Decidable (fault = none))
  | .updateAfterExecution _ _ => inferInstanceAs (Decidable (_ ∧ _ ∧ _))
  | .listDue _ => isTrue trivial
  | .tryAcquireProcessing _ => isTrue trivial
  | .releaseProcessing _ => isTrue trivial
  | .listExecutions _ => isTrue trivial
  | .mathRandom => isTrue trivial

/-- No lease has expired when the call is made. -/
def LeasesHold (exchange : SchedulerExchange Worker) : Prop :=
  exchange.found.LeasesHold exchange.circumstance.databaseNow

/-- The call is no failure between a payment and the record's move. -/
def MovesOn (exchange : SchedulerExchange Worker) : Prop :=
  CarriesOn exchange.found exchange.circumstance.fault exchange.request

/-- A relay call pays an occurrence that the record still stands at. -/
def RelaysCurrent (exchange : SchedulerExchange Worker) : Prop :=
  ∀ occurrence ∈ paidBy exchange, exchange.found.StandsAt occurrence

instance (exchange : SchedulerExchange Worker) : Decidable (LeasesHold exchange) :=
  inferInstanceAs (Decidable (AnyScheduledTransferStore.LeasesHold _ _))

instance (exchange : SchedulerExchange Worker) : Decidable (MovesOn exchange) :=
  inferInstanceAs (Decidable (CarriesOn _ _ _))

instance (exchange : SchedulerExchange Worker) : Decidable (RelaysCurrent exchange) :=
  inferInstanceAs (Decidable (∀ _ ∈ _, _))

/-! ## The agenda -/

/-- The lease a call acquired. -/
def acquiredBy (exchange : SchedulerExchange Worker) : Option TransferId :=
  match exchange with
  | ⟨_, _, .tryAcquireProcessing id, _, .ok true⟩ => some id
  | _ => none

/-- The lease a call gave back; a rejected release is not tried again. -/
def releasedBy (exchange : SchedulerExchange Worker) : Option TransferId :=
  match exchange.request with
  | .releaseProcessing id => some id
  | _ => none

/-- Who holds which lease. -/
def leaseHolder : List (SchedulerExchange Worker) → TransferId → Option Worker
  | [] => fun _ => none
  | exchange :: exchanges =>
    match acquiredBy exchange, releasedBy exchange with
    | some id, _ => Function.update (leaseHolder exchanges) id (some exchange.worker)
    | none, some id => Function.update (leaseHolder exchanges) id none
    | none, none => leaseHolder exchanges

def ScheduledTransfer.entry (transfer : ScheduledTransfer) : AgendaEntry Date where
  time := transfer.nextRunAt
  isOpen := transfer.status = .active

def schedulerAgenda (world : SchedulerWorld Worker) : Agenda TransferId Date Worker where
  entry := fun id => (world.state.transfers.get id).map ScheduledTransfer.entry
  performed := relayed world.exchanges
  holder := leaseHolder world.exchanges

theorem fresh_iff {world : SchedulerWorld Worker} {occurrence : Occurrence} :
    (schedulerAgenda world).Fresh occurrence.1 occurrence.2 ↔ world.state.StandsAt occurrence := by
  constructor
  · intro fresh
    obtain ⟨transfer, found, same⟩ := Option.map_eq_some_iff.mp fresh
    simp only [ScheduledTransfer.entry, AgendaEntry.mk.injEq, decide_eq_true_eq] at same
    exact ⟨transfer, found, same.2, same.1⟩
  · rintro ⟨transfer, found, active, same⟩
    rw [Option.mem_def] at found
    simp [Agenda.Fresh, schedulerAgenda, found, ScheduledTransfer.entry, active, same]

/-- The run so far paid no occurrence twice, and the record stood at each when it was paid. -/
structure PaidSoundly (world : SchedulerWorld Worker) : Prop where
  current : ∀ exchange ∈ world.exchanges, RelaysCurrent exchange
  leased : ∀ id worker, (schedulerAgenda world).holder id = some worker → world.state.Leased id
  tidy : (schedulerAgenda world).Tidy

/-- The run so far paid an occurrence twice, through a call the record did not stand at. -/
def PaidTwice (world : SchedulerWorld Worker) : Prop :=
  ¬ (relayed world.exchanges).Nodup ∧
    ¬ ∀ exchange ∈ world.exchanges, RelaysCurrent exchange

/-- What a call of a worker owes the others. -/
def Owes (worker : Worker) (before after : SchedulerWorld Worker) : Prop :=
  PaidSoundly after ∧ Agenda.Spares worker (schedulerAgenda before) (schedulerAgenda after)

variable (workerIdOf : Worker → WorkerId)

theorem PaidTwice.after {world : SchedulerWorld Worker} {worker : Worker} (twice : PaidTwice world)
    (request : SchedulerCall) (circumstance : Circumstance) :
    PaidTwice (world.after (perform workerIdOf) worker request circumstance) := by
  obtain ⟨doubled, stale⟩ := twice
  refine ⟨fun nodup => doubled ?_, fun current => stale fun exchange member =>
    current exchange (List.mem_cons_of_mem _ member)⟩
  have suffix : (relayed world.exchanges).Sublist (relayed (world.after (perform workerIdOf)
      worker request circumstance).exchanges) :=
    (List.sublist_cons_self ..).filterMap _
  exact suffix.nodup nodup

/-! ## The calls as steps of the agenda -/

section Steps

variable {workerIdOf} {world : SchedulerWorld Worker} {worker : Worker}
  {request : SchedulerCall} {circumstance : Circumstance}

/-- A call that is no step of the agenda. -/
structure Quiet (workerIdOf : Worker → WorkerId) (worker : Worker) (request : SchedulerCall)
    (circumstance : Circumstance) (world : SchedulerWorld Worker) : Prop where
  unpaid : paidBy (world.exchange (perform workerIdOf) worker request circumstance) = none
  unacquired : acquiredBy (world.exchange (perform workerIdOf) worker request circumstance) = none
  unreleased : releasedBy (world.exchange (perform workerIdOf) worker request circumstance) = none
  transfers : (perform workerIdOf worker request circumstance world.state).2.transfers =
    world.state.transfers
  leased : ∀ id, world.state.Leased id →
    (perform workerIdOf worker request circumstance world.state).2.Leased id

theorem relayed_cons_of_unpaid {exchange : SchedulerExchange Worker}
    (unpaid : paidBy exchange = none) (exchanges : List (SchedulerExchange Worker)) :
    relayed (exchange :: exchanges) = relayed exchanges :=
  List.filterMap_cons_none unpaid

theorem relaysCurrent_of_unpaid {exchange : SchedulerExchange Worker}
    (unpaid : paidBy exchange = none) : RelaysCurrent exchange :=
  fun _ paid => absurd (unpaid.symm.trans paid) (by simp)

/-- A call owes nothing more once its step of the agenda is known. -/
theorem owes_of_step {agenda : Agenda TransferId Date Worker} (sound : PaidSoundly world)
    (isStep : schedulerAgenda (world.after (perform workerIdOf) worker request circumstance) =
      agenda)
    (tidy : agenda.Tidy) (spares : Agenda.Spares worker (schedulerAgenda world) agenda)
    (current : RelaysCurrent (world.exchange (perform workerIdOf) worker request circumstance))
    (leased : ∀ id holder, agenda.holder id = some holder →
      (world.after (perform workerIdOf) worker request circumstance).state.Leased id) :
    Owes worker world (world.after (perform workerIdOf) worker request circumstance) := by
  subst isStep
  exact ⟨⟨List.forall_mem_cons.mpr ⟨current, sound.current⟩, leased, tidy⟩, spares⟩

theorem Quiet.agenda (quiet : Quiet workerIdOf worker request circumstance world) :
    schedulerAgenda (world.after (perform workerIdOf) worker request circumstance) =
      schedulerAgenda world := by
  unfold schedulerAgenda World.after
  simp only [quiet.transfers, relayed_cons_of_unpaid quiet.unpaid, leaseHolder, quiet.unacquired,
    quiet.unreleased]

theorem Quiet.owes (quiet : Quiet workerIdOf worker request circumstance world)
    (sound : PaidSoundly world) :
    Owes worker world (world.after (perform workerIdOf) worker request circumstance) := by
  refine owes_of_step sound quiet.agenda sound.tidy (.refl worker _)
    (relaysCurrent_of_unpaid quiet.unpaid) ?_
  intro id holder held
  exact quiet.leased id (sound.leased id holder held)

/-- Acquiring a lease. -/
theorem acquire_step {id : TransferId} (sound : PaidSoundly world)
    (free : (schedulerAgenda world).Free worker)
    (hold : world.state.LeasesHold circumstance.databaseNow)
    (acquired :
      (perform workerIdOf worker (.tryAcquireProcessing id) circumstance world.state).1 =
        .ok true) :
    schedulerAgenda
        (world.after (perform workerIdOf) worker (.tryAcquireProcessing id) circumstance) =
      (schedulerAgenda world).lock worker id ∧
    (schedulerAgenda world).holder id = none ∧
    Owes worker world
      (world.after (perform workerIdOf) worker (.tryAcquireProcessing id) circumstance) := by
  obtain ⟨granted, next⟩ := carriedOut_of_ok acquired
  have unlocked : (schedulerAgenda world).holder id = none := by
    rw [Option.eq_none_iff_forall_not_mem]
    intro holder held
    exact AnyScheduledTransferStore.not_leased_of_acquired hold granted
      (sound.leased id holder held)
  have state : (world.after (perform workerIdOf) worker (.tryAcquireProcessing id)
      circumstance).state = (world.state.tryAcquireProcessing id (workerIdOf worker)
        circumstance.dateNow circumstance.databaseNow).2 := next
  have acquirer : acquiredBy (world.exchange (perform workerIdOf) worker
      (.tryAcquireProcessing id) circumstance) = some id := by
    unfold World.exchange acquiredBy
    rw [acquired]
  have agenda : schedulerAgenda
      (world.after (perform workerIdOf) worker (.tryAcquireProcessing id) circumstance) =
        (schedulerAgenda world).lock worker id := by
    unfold schedulerAgenda Agenda.lock
    rw [state, AnyScheduledTransferStore.transfers_tryAcquireProcessing]
    simp only [World.after, leaseHolder, acquirer]
    rfl
  obtain ⟨tidy, spares, -, -⟩ := Agenda.lock_spec sound.tidy free unlocked
  refine ⟨agenda, unlocked,
    owes_of_step sound agenda tidy spares (relaysCurrent_of_unpaid rfl) ?_⟩
  intro other holder held
  rw [state]
  by_cases same : other = id
  · subst same
    exact AnyScheduledTransferStore.leased_of_acquired granted
  · rw [Agenda.holder_lock_of_ne _ _ same] at held
    exact AnyScheduledTransferStore.leased_tryAcquireProcessing
      (sound.leased other holder held) ..

/-- Calling the relay service. -/
theorem pay_step (occurrence : Occurrence) (relayRequest : RelayExecuteRequest)
    (signedNonce : Option Nat) (circumstance : Circumstance) (sound : PaidSoundly world)
    (holding : (schedulerAgenda world).Holding worker occurrence.1)
    (clear : (schedulerAgenda world).Clear occurrence.1)
    (fresh : (schedulerAgenda world).Fresh occurrence.1 occurrence.2) :
    schedulerAgenda (world.after (perform workerIdOf) worker
        (.executeRelay occurrence relayRequest signedNonce) circumstance) =
      (schedulerAgenda world).note occurrence.1 occurrence.2 ∧
    Owes worker world (world.after (perform workerIdOf) worker
      (.executeRelay occurrence relayRequest signedNonce) circumstance) := by
  have state : (world.after (perform workerIdOf) worker
      (.executeRelay occurrence relayRequest signedNonce) circumstance).state = world.state := by
    obtain same | same := answered_cases circumstance.fault world.state
      (circumstance.response, world.state)
    · exact same
    · exact same
  have agenda : schedulerAgenda (world.after (perform workerIdOf) worker
      (.executeRelay occurrence relayRequest signedNonce) circumstance) =
        (schedulerAgenda world).note occurrence.1 occurrence.2 := by
    unfold schedulerAgenda Agenda.note
    rw [state]
    rfl
  obtain ⟨tidy, spares, -, -⟩ := Agenda.note_spec sound.tidy holding clear fresh
  refine ⟨agenda, owes_of_step sound agenda tidy spares ?_ ?_⟩
  · intro paid equal
    cases equal
    exact fresh_iff.mp fresh
  · intro other holder held
    rw [state]
    exact sound.leased other holder held

/-- A relay call for an occurrence that was paid before pays it twice. -/
theorem pay_again (occurrence : Occurrence) {relayRequest : RelayExecuteRequest}
    {signedNonce : Option Nat} (already : occurrence ∈ relayed world.exchanges)
    (stale : ¬ (schedulerAgenda world).Fresh occurrence.1 occurrence.2) :
    PaidTwice (world.after (perform workerIdOf) worker
      (.executeRelay occurrence relayRequest signedNonce) circumstance) := by
  refine ⟨fun nodup => (List.nodup_cons.mp nodup).1 already, fun current => stale ?_⟩
  exact fresh_iff.mpr (current _ List.mem_cons_self occurrence rfl)

/-- Moving the record on. -/
theorem update_step {id : TransferId} {patch : ExecutionPatch} {time : Date}
    (sound : PaidSoundly world) (holding : (schedulerAgenda world).Holding worker id)
    (underway : (schedulerAgenda world).Underway id time)
    (onwards : time < patch.nextRunAt ∨ time = patch.nextRunAt ∧ patch.status ≠ .active)
    (carriedOut : circumstance.fault ≠ some .before)
    (accepted : (world.state.updateAfterExecution id patch).isSome) :
    schedulerAgenda (world.after (perform workerIdOf) worker
        (.updateAfterExecution id patch) circumstance) =
      (schedulerAgenda world).move id ⟨patch.nextRunAt, patch.status = .active⟩ ∧
    Owes worker world (world.after (perform workerIdOf) worker
      (.updateAfterExecution id patch) circumstance) := by
  obtain ⟨next, updated⟩ := Option.isSome_iff_exists.mp accepted
  obtain ⟨transfers, leased⟩ := AnyScheduledTransferStore.updateAfterExecution_spec updated
  have state : (world.after (perform workerIdOf) worker (.updateAfterExecution id patch)
      circumstance).state = next := by
    simp only [World.after, perform, updated]
    cases fault : circumstance.fault with
    | none => rfl
    | some fault' =>
      cases fault' with
      | before => exact absurd fault carriedOut
      | after => rfl
  obtain ⟨transfer, found, -⟩ := Option.map_eq_some_iff.mp underway.fresh
  have agenda : schedulerAgenda (world.after (perform workerIdOf) worker
      (.updateAfterExecution id patch) circumstance) =
        (schedulerAgenda world).move id ⟨patch.nextRunAt, patch.status = .active⟩ := by
    unfold schedulerAgenda Agenda.move
    rw [state, transfers]
    congr 1
    funext other
    rw [TransferTable.get_patch]
    by_cases same : other = id
    · subst same
      simp [found, ScheduledTransfer.entry, ScheduledTransfer.patched]
    · simp [same]
  obtain ⟨tidy, spares, -, -⟩ := Agenda.move_spec ⟨patch.nextRunAt, patch.status = .active⟩
    sound.tidy holding underway (by simpa using onwards)
  refine ⟨agenda, owes_of_step sound agenda tidy spares (relaysCurrent_of_unpaid rfl) ?_⟩
  intro other holder held
  rw [state, leased]
  exact sound.leased other holder held

/-- Giving a lease back, whether it answers or not. -/
theorem release_step {id : TransferId} (workerIdOf : Worker → WorkerId)
    (circumstance : Circumstance) (sound : PaidSoundly world)
    (holding : (schedulerAgenda world).Holding worker id)
    (clear : (schedulerAgenda world).Clear id) :
    schedulerAgenda
        (world.after (perform workerIdOf) worker (.releaseProcessing id) circumstance) =
      (schedulerAgenda world).unlock id ∧
    Owes worker world
      (world.after (perform workerIdOf) worker (.releaseProcessing id) circumstance) := by
  have state := answered_cases circumstance.fault world.state
    ((), world.state.releaseProcessing id (workerIdOf worker))
  have transfers : (world.after (perform workerIdOf) worker (.releaseProcessing id)
      circumstance).state.transfers = world.state.transfers := by
    obtain same | same := state
    · exact congrArg AnyScheduledTransferStore.transfers same
    · exact (congrArg AnyScheduledTransferStore.transfers same).trans
        (AnyScheduledTransferStore.transfers_releaseProcessing ..)
  have agenda : schedulerAgenda
      (world.after (perform workerIdOf) worker (.releaseProcessing id) circumstance) =
        (schedulerAgenda world).unlock id := by
    unfold schedulerAgenda Agenda.unlock
    rw [transfers]
    rfl
  obtain ⟨tidy, spares, -⟩ := Agenda.unlock_spec sound.tidy holding clear
  refine ⟨agenda, owes_of_step sound agenda tidy spares (relaysCurrent_of_unpaid rfl) ?_⟩
  intro other holder held
  have different : other ≠ id := by
    rintro rfl
    rw [Agenda.holder_unlock_self] at held
    cases held
  rw [Agenda.holder_unlock_of_ne _ different] at held
  have leased := sound.leased other holder held
  obtain same | same := state
  · exact (congrArg (AnyScheduledTransferStore.Leased other) same).mpr leased
  · exact (congrArg (AnyScheduledTransferStore.Leased other) same).mpr
      (AnyScheduledTransferStore.leased_releaseProcessing different leased _)

end Steps

end Ancore.Relayer
