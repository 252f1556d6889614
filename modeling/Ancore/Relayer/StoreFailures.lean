import Ancore.Relayer.Records

/-! # A paid occurrence and the failures of the store

The payment, the entry in the log and the update of the record are three steps.
As long as the record stands at an occurrence that was paid, the nonce of its
next execution is the one it was paid with, which the relay service rejects; an
entry that was written without the update following it lets the nonce move on. -/

namespace Ancore.Relayer

open Ancore.Library

variable {Worker : Type} {workerIdOf : Worker → WorkerId}

/-- What a relay call that returned success paid: the occurrence, and the session key and nonce it
was paid with. -/
def paymentBy (exchange : SchedulerExchange Worker) : Option (Occurrence × String × Nat) :=
  match exchange with
  | ⟨_, _, .executeRelay occurrence request _, _, .ok response⟩ =>
    if response.success then some (occurrence, request.sessionKey, request.nonce) else none
  | _ => none

def payments (exchanges : List (SchedulerExchange Worker)) : List (Occurrence × String × Nat) :=
  exchanges.filterMap paymentBy

/-- The occurrences paid, the latest first. -/
def paidOccurrences (exchanges : List (SchedulerExchange Worker)) : List Occurrence :=
  (payments exchanges).map Prod.fst

/-- The session keys and nonces they were paid with. -/
def paidNonces (exchanges : List (SchedulerExchange Worker)) : List (String × Nat) :=
  (payments exchanges).map Prod.snd

/-- The record stands at an occurrence that was paid. -/
def StandsPaid (found : AnyScheduledTransferStore) (id : TransferId)
    (earlier : List (SchedulerExchange Worker)) : Prop :=
  ∃ transfer ∈ found.transfers.get id, transfer.occurrence ∈ paidOccurrences earlier

instance (found : AnyScheduledTransferStore) (id : TransferId)
    (earlier : List (SchedulerExchange Worker)) : Decidable (StandsPaid found id earlier) :=
  inferInstanceAs (Decidable (∃ _ ∈ _, _))

/-- The update is carried out and moves the record on. -/
def SettlesRecord (found : AnyScheduledTransferStore) (fault : Option Fault) (id : TransferId)
    (patch : ExecutionPatch) : Prop :=
  fault ≠ some .before ∧ (found.updateAfterExecution id patch).isSome ∧
    ∀ transfer ∈ found.transfers.get id,
      patch.status = .active → patch.nextRunAt ≠ transfer.nextRunAt

instance (found : AnyScheduledTransferStore) (fault : Option Fault) (id : TransferId)
    (patch : ExecutionPatch) : Decidable (SettlesRecord found fault id patch) :=
  inferInstanceAs (Decidable (_ ∧ _ ∧ ∀ _ ∈ _, _))

/-- An entry written for an occurrence that was paid is followed by the update of its record: the
call that writes it does not reject, and the update is carried out. -/
def FollowedUp (exchange : SchedulerExchange Worker) (earlier : List (SchedulerExchange Worker)) :
    Prop :=
  match exchange.request with
  | .appendExecution log => StandsPaid exchange.found log.scheduledTransferId earlier →
      exchange.circumstance.fault ≠ some .after
  | .updateAfterExecution id patch => StandsPaid exchange.found id earlier →
      SettlesRecord exchange.found exchange.circumstance.fault id patch
  | _ => True

instance (exchange : SchedulerExchange Worker) (earlier : List (SchedulerExchange Worker)) :
    Decidable (FollowedUp exchange earlier) :=
  match exchange with
  | ⟨_, _, .appendExecution _, _, _⟩ => inferInstanceAs (Decidable (_ → _))
  | ⟨_, _, .updateAfterExecution _ _, _, _⟩ => inferInstanceAs (Decidable (_ → _))
  | ⟨_, _, .executeRelay _ _ _, _, _⟩ => isTrue trivial
  | ⟨_, _, .listDue _, _, _⟩ => isTrue trivial
  | ⟨_, _, .tryAcquireProcessing _, _, _⟩ => isTrue trivial
  | ⟨_, _, .releaseProcessing _, _, _⟩ => isTrue trivial
  | ⟨_, _, .listExecutions _, _, _⟩ => isTrue trivial
  | ⟨_, _, .mathRandom, _, _⟩ => isTrue trivial

/-! ## At each stage -/

/-- The transfer whose entry is written and whose update is still to come. -/
def Stage.unsettled : Stage → Option TransferId
  | .logged _ transfer _ _ => some transfer.id
  | _ => none

/-- The next execution of the transfer submits a nonce that it was paid with. -/
def Guarded (transfer : ScheduledTransfer) (world : SchedulerWorld Worker) : Prop :=
  (transfer.relayPayload.sessionKey, transfer.relayPayload.nonce +
    (world.state.listExecutions transfer.id).length) ∈ paidNonces world.exchanges

/-- At a stage: no occurrence was paid that lies ahead of its record, and a record that stands at an
occurrence that was paid is guarded, unless its update is just to come. -/
structure PaidAt (stage : Stage) (world : SchedulerWorld Worker) : Prop where
  current : Current stage world.state
  behind : ∀ occurrence ∈ paidOccurrences world.exchanges,
    ∀ transfer ∈ world.state.transfers.get occurrence.1, occurrence.2 ≤ transfer.nextRunAt
  guarded : ∀ id transfer, world.state.transfers.get id = some transfer →
    transfer.status = .active → transfer.occurrence ∈ paidOccurrences world.exchanges →
      stage.unsettled ≠ some id → Guarded transfer world

/-- The occurrences paid so far are different ones. -/
def PaidOnceEach (world : SchedulerWorld Worker) : Prop := (paidOccurrences world.exchanges).Nodup

/-- The relay service never returns success twice for the same session key and nonce. -/
def RejectsReuse (exchange : SchedulerExchange Worker)
    (earlier : List (SchedulerExchange Worker)) : Prop :=
  ∀ payment ∈ paymentBy exchange, payment.2 ∉ paidNonces earlier

theorem rejectsReuse_of_nodup {exchanges : List (SchedulerExchange Worker)}
    (nodup : (paidNonces exchanges).Nodup) : Historically RejectsReuse exchanges := by
  induction exchanges with
  | nil => trivial
  | cons exchange earlier inductionHypothesis =>
    cases paid : paymentBy exchange with
    | none =>
      rw [paidNonces, payments, List.filterMap_cons_none paid] at nodup
      exact ⟨fun payment member => by simp [paid] at member, inductionHypothesis nodup⟩
    | some payment =>
      rw [paidNonces, payments, List.filterMap_cons_some paid, List.map_cons,
        List.nodup_cons] at nodup
      refine ⟨fun other member => ?_, inductionHypothesis nodup.2⟩
      rw [paid, Option.mem_def, Option.some.injEq] at member
      exact member ▸ nodup.1

/-! ## The calls -/

section Steps

variable {worker : Worker} {stage onward : Stage} {request : SchedulerCall}
  {circumstance : Circumstance} {world : SchedulerWorld Worker} {copy : ScheduledTransfer}
  {now : Date} {due : List ScheduledTransfer} {response : RelayExecuteResponse}

/-- A call that writes no entry of a transfer leaves its listing. -/
theorem length_listExecutions_perform {store : AnyScheduledTransferStore} {id : TransferId}
    (unappended : ∀ log ∈ appendedBy circumstance.fault request, log.scheduledTransferId ≠ id) :
    ((perform workerIdOf worker request circumstance store).2.listExecutions id).length =
      (store.listExecutions id).length := by
  rw [AnyScheduledTransferStore.length_listExecutions, refusesFailed_perform,
    logged_of_unappended unappended, AnyScheduledTransferStore.length_listExecutions]

theorem payments_cons_of_none {exchange : SchedulerExchange Worker}
    (unpaid : paymentBy exchange = none) (earlier : List (SchedulerExchange Worker)) :
    payments (exchange :: earlier) = payments earlier :=
  List.filterMap_cons_none unpaid

theorem PaidOnceEach.after (each : PaidOnceEach world)
    (unpaid : paymentBy (world.exchange (perform workerIdOf) worker request circumstance) = none) :
    PaidOnceEach (world.after (perform workerIdOf) worker request circumstance) := by
  unfold PaidOnceEach paidOccurrences World.after
  rw [payments_cons_of_none unpaid]
  exact each

/-- A call that pays nothing and writes no record: those that stay guarded are to be told. -/
theorem PaidAt.after_quiet (atStage : PaidAt stage world)
    (made : Stage.Next stage request
      (perform workerIdOf worker request circumstance world.state).1 onward)
    (unpaid : paymentBy (world.exchange (perform workerIdOf) worker request circumstance) = none)
    (unwritten : writtenBy world.state circumstance.fault request = none)
    (kept : ∀ id transfer, world.state.transfers.get id = some transfer →
      transfer.occurrence ∈ paidOccurrences world.exchanges → onward.unsettled ≠ some id →
        stage.unsettled ≠ some id ∧
          ∀ log ∈ appendedBy circumstance.fault request, log.scheduledTransferId ≠ id) :
    PaidAt onward (world.after (perform workerIdOf) worker request circumstance) := by
  have transfers : (perform workerIdOf worker request circumstance world.state).2.transfers =
      world.state.transfers := by
    rw [transfers_perform, unwritten]
  have paid : payments (world.after (perform workerIdOf) worker request circumstance).exchanges =
      payments world.exchanges := payments_cons_of_none unpaid _
  constructor
  · exact current_of_next atStage.current made
  · unfold paidOccurrences
    rw [paid, World.after, transfers]
    exact atStage.behind
  · intro id transfer found active standsPaid settled
    unfold paidOccurrences at standsPaid
    rw [paid] at standsPaid
    rw [World.after, transfers] at found
    obtain ⟨settledBefore, unappended⟩ := kept id transfer found standsPaid settled
    have sameId : transfer.id = id := (TransferTable.get_eq_some_iff.mp found).2
    have guarded := atStage.guarded id transfer found active standsPaid settledBefore
    unfold Guarded paidNonces at *
    rw [paid, World.after, length_listExecutions_perform (sameId ▸ unappended)]
    exact guarded

/-- A call that pays nothing and writes nothing. -/
theorem paid_of_quiet (each : PaidOnceEach world) (atStage : PaidAt stage world)
    (made : Stage.Next stage request
      (perform workerIdOf worker request circumstance world.state).1 onward)
    (unpaid : paymentBy (world.exchange (perform workerIdOf) worker request circumstance) = none)
    (unwritten : writtenBy world.state circumstance.fault request = none)
    (unappended : appendedBy circumstance.fault request = none)
    (settled : onward.unsettled = stage.unsettled) :
    PaidOnceEach (world.after (perform workerIdOf) worker request circumstance) ∧
      PaidAt onward (world.after (perform workerIdOf) worker request circumstance) := by
  refine ⟨each.after unpaid, atStage.after_quiet made unpaid unwritten ?_⟩
  intro id transfer _ _ onwardSettled
  rw [settled] at onwardSettled
  exact ⟨onwardSettled, by simp [unappended]⟩

/-! ### Paying -/

theorem eq_of_paymentBy {found : AnyScheduledTransferStore} {occurrence : Occurrence}
    {relayRequest : RelayExecuteRequest} {signedNonce : Option Nat}
    {answer : Answer (.executeRelay occurrence relayRequest signedNonce)}
    {payment : Occurrence × String × Nat}
    (paid : paymentBy ⟨worker, found, .executeRelay occurrence relayRequest signedNonce,
      circumstance, answer⟩ = some payment) :
    payment = (occurrence, relayRequest.sessionKey, relayRequest.nonce) := by
  cases answer with
  | error _ => cases paid
  | ok response =>
    simp only [paymentBy, Option.ite_none_right_eq_some, Option.some.injEq] at paid
    exact paid.2.symm

/-- A payment of an occurrence that was paid would reuse a nonce. -/
theorem paid_of_payment {priorExecutions : Nat} {signedNonce : Option Nat}
    (each : PaidOnceEach world) (atStage : PaidAt (.counted now copy priorExecutions due) world)
    (made : Stage.Next (.counted now copy priorExecutions due)
      (.executeRelay copy.occurrence (copy.relayRequest priorExecutions) signedNonce)
      (perform workerIdOf worker (.executeRelay copy.occurrence (copy.relayRequest priorExecutions)
        signedNonce) circumstance world.state).1 onward)
    (settled : onward.unsettled = none)
    (rejects : RejectsReuse (world.exchange (perform workerIdOf) worker (.executeRelay
      copy.occurrence (copy.relayRequest priorExecutions) signedNonce) circumstance)
        world.exchanges) :
    PaidOnceEach (world.after (perform workerIdOf) worker (.executeRelay copy.occurrence
        (copy.relayRequest priorExecutions) signedNonce) circumstance) ∧
      PaidAt onward (world.after (perform workerIdOf) worker (.executeRelay copy.occurrence
        (copy.relayRequest priorExecutions) signedNonce) circumstance) := by
  cases paid : paymentBy (world.exchange (perform workerIdOf) worker (.executeRelay
      copy.occurrence (copy.relayRequest priorExecutions) signedNonce) circumstance) with
  | none => exact paid_of_quiet each atStage made paid rfl rfl settled
  | some payment =>
    have what : payment = (copy.occurrence, copy.relayPayload.sessionKey,
        copy.relayPayload.nonce + priorExecutions) := eq_of_paymentBy paid
    subst what
    have counted : priorExecutions = (world.state.listExecutions copy.id).length :=
      atStage.current.counted
    obtain ⟨stands, active⟩ := atStage.current.standing copy List.mem_cons_self
    have same : (perform workerIdOf worker (.executeRelay copy.occurrence
        (copy.relayRequest priorExecutions) signedNonce) circumstance world.state).2 =
          world.state := by
      obtain kept | kept := answered_cases circumstance.fault world.state
        (circumstance.response, world.state)
      · exact kept
      · exact kept
    have fresh : copy.occurrence ∉ paidOccurrences world.exchanges := by
      intro already
      have guarded := atStage.guarded copy.id copy stands active already (by simp [Stage.unsettled])
      unfold Guarded at guarded
      rw [← counted] at guarded
      exact rejects _ paid guarded
    have added : payments (world.after (perform workerIdOf) worker (.executeRelay copy.occurrence
        (copy.relayRequest priorExecutions) signedNonce) circumstance).exchanges =
          (copy.occurrence, copy.relayPayload.sessionKey,
            copy.relayPayload.nonce + priorExecutions) :: payments world.exchanges :=
      List.filterMap_cons_some paid
    refine ⟨?_, current_of_next atStage.current made, ?_, ?_⟩
    · unfold PaidOnceEach paidOccurrences
      rw [added]
      exact List.nodup_cons.mpr ⟨fresh, each⟩
    · unfold paidOccurrences
      rw [added, World.after, same, List.map_cons, List.forall_mem_cons]
      refine ⟨fun transfer found => ?_, atStage.behind⟩
      rw [show copy.occurrence.1 = copy.id from rfl, stands, Option.mem_def,
        Option.some.injEq] at found
      exact (congrArg ScheduledTransfer.nextRunAt found).le
    · intro id transfer found active standsPaid _
      unfold paidOccurrences at standsPaid
      rw [World.after, same] at found
      unfold Guarded paidNonces
      rw [added, List.map_cons, List.mem_cons] at standsPaid ⊢
      rw [World.after, same]
      by_cases sameId : id = copy.id
      · -- The record is the copy, and the nonce is that of the payment.
        rw [sameId, stands, Option.some.injEq] at found
        subst found
        exact .inl (by rw [← counted])
      · have foundId : transfer.id = id := (TransferTable.get_eq_some_iff.mp found).2
        obtain this | before := standsPaid
        · exact absurd (foundId.symm.trans (congrArg Prod.fst this)) sameId
        · exact .inr (atStage.guarded id transfer found active before (by simp [Stage.unsettled]))

/-! ### Writing the entry -/

/-- Where the entry is written and the update is not to come, the occurrence was not paid. -/
theorem paid_of_unlogged {rejection : Rejection} (each : PaidOnceEach world)
    (atStage : PaidAt (.answered now copy response due) world)
    (made : Stage.Next (.answered now copy response due)
      (.appendExecution (copy.executionLog now response))
      (perform workerIdOf worker (.appendExecution (copy.executionLog now response)) circumstance
        world.state).1 (.leaving now copy due))
    (answer : (perform workerIdOf worker (.appendExecution (copy.executionLog now response))
      circumstance world.state).1 = .error rejection)
    (followedUp : FollowedUp (world.exchange (perform workerIdOf) worker
      (.appendExecution (copy.executionLog now response)) circumstance) world.exchanges) :
    PaidOnceEach (world.after (perform workerIdOf) worker
        (.appendExecution (copy.executionLog now response)) circumstance) ∧
      PaidAt (.leaving now copy due) (world.after (perform workerIdOf) worker
        (.appendExecution (copy.executionLog now response)) circumstance) := by
  refine ⟨each.after rfl, atStage.after_quiet made rfl rfl ?_⟩
  intro id transfer found standsPaid _
  refine ⟨by simp [Stage.unsettled], fun log appended sameId => ?_⟩
  simp only [appendedBy, Option.mem_def, Option.ite_none_right_eq_some, Option.some.injEq]
    at appended
  obtain ⟨written, rfl⟩ := appended
  have rejectedAfter : circumstance.fault = some .after := by
    cases fault : circumstance.fault with
    | none =>
      simp only [perform, fault] at answer
      cases answer
    | some fault' =>
      cases fault' with
      | before => exact absurd fault written
      | after => rfl
  exact followedUp ⟨transfer, sameId ▸ found, standsPaid⟩ rejectedAfter

theorem paid_of_logged (each : PaidOnceEach world)
    (atStage : PaidAt (.answered now copy response due) world)
    (made : Stage.Next (.answered now copy response due)
      (.appendExecution (copy.executionLog now response))
      (perform workerIdOf worker (.appendExecution (copy.executionLog now response)) circumstance
        world.state).1 (.logged now copy response due)) :
    PaidOnceEach (world.after (perform workerIdOf) worker
        (.appendExecution (copy.executionLog now response)) circumstance) ∧
      PaidAt (.logged now copy response due) (world.after (perform workerIdOf) worker
        (.appendExecution (copy.executionLog now response)) circumstance) := by
  refine ⟨each.after rfl, atStage.after_quiet made rfl rfl ?_⟩
  intro id transfer _ _ settled
  refine ⟨by simp [Stage.unsettled], fun log appended sameId => ?_⟩
  simp only [appendedBy, Option.mem_def, Option.ite_none_right_eq_some, Option.some.injEq]
    at appended
  obtain ⟨-, rfl⟩ := appended
  exact settled (congrArg some sameId)

/-! ### Settling the record -/

theorem settlement_not_earlier (timely : copy.nextRunAt ≤ now) (success : Bool) (random : Random) :
    copy.nextRunAt ≤ (copy.settlement now success random).nextRunAt := by
  unfold ScheduledTransfer.settlement
  dsimp only
  split_ifs
  · split
    · rename_i recurs
      exact timely.trans (lt_of_computeNextRunAt recurs).le
    · exact le_rfl
  · exact le_rfl
  · exact le_rfl
  · exact timely.trans (le_nextRetryAfter _ now random)

/-- What the record of the transfer in hand is after the update. -/
theorem record_after_settlement {patch : ExecutionPatch} {after : ScheduledTransfer}
    (stands : world.state.transfers.get copy.id = some copy)
    (found : (perform workerIdOf worker (.updateAfterExecution copy.id patch) circumstance
      world.state).2.transfers.get copy.id = some after) :
    after = copy.patched patch ∨ after = copy ∧
      ¬ (circumstance.fault ≠ some .before ∧
        (world.state.updateAfterExecution copy.id patch).isSome) := by
  by_cases carriedOut : circumstance.fault ≠ some .before ∧
      (world.state.updateAfterExecution copy.id patch).isSome
  · rw [get_update_self carriedOut.1 carriedOut.2, stands] at found
    exact .inl (Option.some.inj found).symm
  · rw [transfers_perform] at found
    simp only [writtenBy, if_neg carriedOut] at found
    exact .inr ⟨Option.some.inj (found.symm.trans stands), carriedOut⟩

/-- The record moves on from an occurrence that was paid. -/
theorem paid_of_settlement {random : Random} (each : PaidOnceEach world)
    (atStage : PaidAt (.logged now copy response due) world)
    (made : Stage.Next (.logged now copy response due)
      (.updateAfterExecution copy.id (copy.settlement now response.success random))
      (perform workerIdOf worker (.updateAfterExecution copy.id
        (copy.settlement now response.success random)) circumstance world.state).1
      (.leaving now copy due))
    (followedUp : FollowedUp (world.exchange (perform workerIdOf) worker
      (.updateAfterExecution copy.id (copy.settlement now response.success random)) circumstance)
        world.exchanges) :
    PaidOnceEach (world.after (perform workerIdOf) worker (.updateAfterExecution copy.id
        (copy.settlement now response.success random)) circumstance) ∧
      PaidAt (.leaving now copy due) (world.after (perform workerIdOf) worker
        (.updateAfterExecution copy.id (copy.settlement now response.success random))
        circumstance) := by
  obtain ⟨stands, active⟩ := atStage.current.standing copy List.mem_cons_self
  have notEarlier := settlement_not_earlier atStage.current.timely response.success random
  have others (id : TransferId) (different : id ≠ copy.id) :
      (world.after (perform workerIdOf) worker (.updateAfterExecution copy.id
        (copy.settlement now response.success random)) circumstance).state.transfers.get id =
          world.state.transfers.get id := get_update_of_ne different
  refine ⟨each.after rfl, current_of_next atStage.current made, ?_, ?_⟩
  · intro occurrence paid transfer found
    have behind := atStage.behind occurrence paid
    by_cases same : occurrence.1 = copy.id
    · have before := behind copy (same ▸ stands)
      obtain rfl | ⟨rfl, -⟩ := record_after_settlement stands (same ▸ found)
      · exact before.trans notEarlier
      · exact before
    · exact behind transfer ((others _ same) ▸ found)
  · intro id transfer found settledActive standsPaid _
    by_cases same : id = copy.id
    · -- The record of the transfer in hand no longer stands at an occurrence that was paid.
      subst same
      exfalso
      have sameId : transfer.occurrence.1 = copy.id := (TransferTable.get_eq_some_iff.mp found).2
      have before : transfer.nextRunAt ≤ copy.nextRunAt :=
        atStage.behind _ standsPaid copy (sameId ▸ stands)
      obtain rfl | ⟨rfl, refused⟩ := record_after_settlement stands found
      · have stayed : (copy.settlement now response.success random).nextRunAt = copy.nextRunAt :=
          le_antisymm before notEarlier
        have paid : copy.occurrence ∈ paidOccurrences world.exchanges := by
          have : (copy.patched (copy.settlement now response.success random)).occurrence =
              copy.occurrence := Prod.ext rfl stayed
          exact this ▸ standsPaid
        exact (followedUp ⟨copy, stands, paid⟩).2.2 copy stands settledActive stayed
      · obtain ⟨carriedOut, accepted, -⟩ := followedUp ⟨transfer, stands, standsPaid⟩
        exact refused ⟨carriedOut, accepted⟩
    · have recordBefore : world.state.transfers.get id = some transfer := others id same ▸ found
      have guarded := atStage.guarded id transfer recordBefore settledActive standsPaid
        fun settled => same (Option.some.inj settled).symm
      unfold Guarded at *
      rw [World.after, length_listExecutions_perform (by simp [appendedBy])]
      exact guarded

end Steps

/-- Each call of a tick, of a worker that is alone. -/
theorem paid_step [Subsingleton Worker] :
    OutlineStep (perform workerIdOf) Stage.Next
      (fun exchange earlier => RejectsReuse exchange earlier ∧ FollowedUp exchange earlier)
      PaidOnceEach (fun (_ : Worker) => PaidAt) := by
  intro worker stage request circumstance onward world each atStage made ⟨rejects, followedUp⟩
  suffices own : PaidOnceEach (world.after (perform workerIdOf) worker request circumstance) ∧
      PaidAt onward (world.after (perform workerIdOf) worker request circumstance) from
    ⟨own.1, own.2, fun other different => absurd (Subsingleton.elim other worker) different⟩
  have outlined := made
  generalize answer : (perform workerIdOf worker request circumstance world.state).1 = answered
    at outlined
  cases outlined with
  | listed rests =>
    have none : stage.unsettled = none := by
      cases stage <;> first | rfl | cases rests
    exact paid_of_quiet each atStage made rfl rfl rfl none.symm
  | unlisted rests =>
    have none : stage.unsettled = none := by
      cases stage <;> first | rfl | cases rests
    exact paid_of_quiet each atStage made rfl rfl rfl none.symm
  | acquired _ _ => exact paid_of_quiet each atStage made rfl rfl rfl rfl
  | unacquired _ => exact paid_of_quiet each atStage made rfl rfl rfl rfl
  | refused _ => exact paid_of_quiet each atStage made rfl rfl rfl rfl
  | counted => exact paid_of_quiet each atStage made rfl rfl rfl rfl
  | uncounted => exact paid_of_quiet each atStage made rfl rfl rfl rfl
  | answered => exact paid_of_payment each atStage made rfl rejects
  | unanswered => exact paid_of_payment each atStage made rfl rejects
  | logged => exact paid_of_logged each atStage made
  | unlogged => exact paid_of_unlogged each atStage made answer followedUp
  | rolled => exact paid_of_quiet each atStage made rfl rfl rfl rfl
  | settled => exact paid_of_settlement each atStage made followedUp
  | released => exact paid_of_quiet each atStage made rfl rfl rfl rfl
  | unreleased => exact paid_of_quiet each atStage made rfl rfl rfl rfl

/-! ## Runs -/

/-- Whatever calls fail, no occurrence is paid twice by a relay service that rejects reused nonces,
in every run where each entry written for an occurrence that was paid is followed by the update of
its record. -/
theorem paid_once_despite_failures (workerIdOf : Unit → WorkerId)
    (store : AnyScheduledTransferStore) (turns : List (Turn Unit Date Circumstance))
    (rejects : (paidNonces (schedulerRun workerIdOf store turns).world.exchanges).Nodup)
    (followedUp : Historically FollowedUp (schedulerRun workerIdOf store turns).world.exchanges) :
    (paidOccurrences (schedulerRun workerIdOf store turns).world.exchanges).Nodup := by
  have nothingPaid : PaidAt .idle (World.mk store [] : SchedulerWorld Unit) :=
    ⟨.idle store, fun _ paid => absurd paid List.not_mem_nil,
      fun _ _ _ _ paid => absurd paid List.not_mem_nil⟩
  have initial : PaidOnceEach (World.mk store [] : SchedulerWorld Unit) := List.nodup_nil
  exact (invariant_of_outline ScheduledTransferService.tick_follows
    (@paid_step _ workerIdOf _) initial
    (fun _ => ⟨.idle, trivial, nothingPaid⟩) turns
    (historically_and (rejectsReuse_of_nodup rejects) followedUp)).1

/-! ### A store that fails once -/

/-- A call that the store does not carry out. -/
def lostCall : Circumstance := { smoothly with fault := some .before }

theorem paid_once_despite_failures_of_sample :
    (paidOccurrences (schedulerRun (fun _ => 0) dailyStore
      (ticked 1000 (List.replicate 4 smoothly ++ [lostCall, smoothly]) ++
        ticked 1000 (List.replicate 3 smoothly ++ [failing]))).world.exchanges).Nodup :=
  paid_once_despite_failures (fun _ => 0) dailyStore
    (ticked 1000 (List.replicate 4 smoothly ++ [lostCall, smoothly]) ++
      ticked 1000 (List.replicate 3 smoothly ++ [failing])) (by decide) (by decide)

/-- The entry is written and the update is lost: the next tick pays the occurrence again, with the
next nonce. -/
theorem lost_update_pays_again :
    (paidNonces (schedulerRun (fun _ => 0) dailyStore
      (ticked 1000 (List.replicate 5 smoothly ++ [lostCall, smoothly]) ++
        ticked 1000 (List.replicate 4 smoothly))).world.exchanges).Nodup ∧
      ¬ (paidOccurrences (schedulerRun (fun _ => 0) dailyStore
        (ticked 1000 (List.replicate 5 smoothly ++ [lostCall, smoothly]) ++
          ticked 1000 (List.replicate 4 smoothly))).world.exchanges).Nodup := by
  decide

end Ancore.Relayer
