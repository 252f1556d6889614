import Ancore.Relayer.Records

/-! # Failing transfers stop

The record of an active transfer counts the failed executions since its last
success, and an execution that brings the count to its bound takes the record out
of the active ones.  This holds as long as every execution that was answered is
recorded; the table of the Postgres store does not take a record that failed. -/

namespace Ancore.Relayer

open Ancore.Library ScheduledTransferService

variable {Worker : Type} {workerIdOf : Worker → WorkerId}

/-! ## What was answered -/

/-- The response a relay call for the transfer returned. -/
def responseFor (id : TransferId) (exchange : SchedulerExchange Worker) :
    Option RelayExecuteResponse :=
  match exchange with
  | ⟨_, _, .executeRelay occurrence _ _, _, .ok response⟩ =>
    if occurrence.1 = id then some response else none
  | _ => none

/-- The failed executions since the last success; `known` were known at the start. -/
def failuresSince (id : TransferId) (known : Nat) : List (SchedulerExchange Worker) → Nat
  | [] => known
  | exchange :: earlier =>
    match responseFor id exchange with
    | some response => if response.success then 0 else failuresSince id known earlier + 1
    | none => failuresSince id known earlier

/-- The call ends an execution of the transfer. -/
def endsExecution (id : TransferId) : SchedulerCall → Bool
  | .updateAfterExecution updated _ => updated = id
  | .releaseProcessing released => released = id
  | _ => false

/-- A response for the transfer is still to be recorded. -/
def underWay (id : TransferId) : List (SchedulerExchange Worker) → Bool
  | [] => false
  | exchange :: earlier =>
    (responseFor id exchange).isSome || !endsExecution id exchange.request && underWay id earlier

/-- The call executes the transfer. -/
def Executes (id : TransferId) (exchange : SchedulerExchange Worker) : Prop :=
  (paidBy exchange).map Prod.fst = some id

instance (id : TransferId) (exchange : SchedulerExchange Worker) :
    Decidable (Executes id exchange) :=
  inferInstanceAs (Decidable (_ = _))

/-! ## The law and its condition -/

/-- No execution after as many consecutive failures as are allowed. -/
def StopsAtBound (transfer : ScheduledTransfer) (exchange : SchedulerExchange Worker)
    (earlier : List (SchedulerExchange Worker)) : Prop :=
  Executes transfer.id exchange →
    failuresSince transfer.id transfer.consecutiveFailures earlier < maxConsecutiveFailures

/-- What is executed once is not executed after an execution that was answered. -/
def RunsOnce (transfer : ScheduledTransfer) (exchange : SchedulerExchange Worker)
    (earlier : List (SchedulerExchange Worker)) : Prop :=
  transfer.frequency = .once → Executes transfer.id exchange →
    ∀ answered ∈ earlier, responseFor transfer.id answered = none

instance (transfer : ScheduledTransfer) (exchange : SchedulerExchange Worker)
    (earlier : List (SchedulerExchange Worker)) :
    Decidable (StopsAtBound transfer exchange earlier) :=
  inferInstanceAs (Decidable (_ → _))

instance (transfer : ScheduledTransfer) (exchange : SchedulerExchange Worker)
    (earlier : List (SchedulerExchange Worker)) : Decidable (RunsOnce transfer exchange earlier) :=
  inferInstanceAs (Decidable (_ → _ → _))

/-- The record of an active transfer counts its failures, but for an execution under way. -/
def CountsFailures (transfer : ScheduledTransfer) (world : SchedulerWorld Worker) : Prop :=
  ∀ stored ∈ world.state.transfers.get transfer.id, stored.status = .active →
    stored.consecutiveFailures < maxConsecutiveFailures ∧
      (underWay transfer.id world.exchanges = false → stored.consecutiveFailures =
        failuresSince transfer.id transfer.consecutiveFailures world.exchanges)

/-- A failed response can be recorded for the transfer. -/
def AnyScheduledTransferStore.Tolerates (id : TransferId) (store : AnyScheduledTransferStore) :
    Prop :=
  store.refusesFailed = true → ∀ transfer ∈ store.transfers.get id,
    transfer.frequency = .once ∨ transfer.consecutiveFailures + 1 < maxConsecutiveFailures

instance (id : TransferId) (store : AnyScheduledTransferStore) : Decidable (store.Tolerates id) :=
  inferInstanceAs (Decidable (_ → ∀ _ ∈ _, _))

/-- What is answered is recorded: the store does not fail in between, and where the table refuses
records that failed, a response does not bring the failures to their bound. -/
def Recorded (exchange : SchedulerExchange Worker) : Prop :=
  match exchange.request with
  | .executeRelay occurrence _ _ => exchange.circumstance.fault = none →
      exchange.circumstance.response.success = true ∨ exchange.found.Tolerates occurrence.1
  | .appendExecution _ => exchange.circumstance.fault = none
  | .updateAfterExecution _ _ => exchange.circumstance.fault ≠ some .before
  | _ => True

instance (exchange : SchedulerExchange Worker) : Decidable (Recorded exchange) :=
  match exchange with
  | ⟨_, _, .executeRelay _ _ _, _, _⟩ => inferInstanceAs (Decidable (_ → _ ∨ _))
  | ⟨_, _, .appendExecution _, _, _⟩ => inferInstanceAs (Decidable (_ = _))
  | ⟨_, _, .updateAfterExecution _ _, _, _⟩ => inferInstanceAs (Decidable (_ ≠ _))
  | ⟨_, _, .listDue _, _, _⟩ => isTrue trivial
  | ⟨_, _, .tryAcquireProcessing _, _, _⟩ => isTrue trivial
  | ⟨_, _, .releaseProcessing _, _, _⟩ => isTrue trivial
  | ⟨_, _, .listExecutions _, _, _⟩ => isTrue trivial
  | ⟨_, _, .mathRandom, _, _⟩ => isTrue trivial

/-! ## At each stage -/

/-- The response in hand for the transfer. -/
def Stage.response (id : TransferId) : Stage → Option RelayExecuteResponse
  | .answered _ transfer response _ => if transfer.id = id then some response else none
  | .logged _ transfer response _ => if transfer.id = id then some response else none
  | _ => none

/-- The failures once the response in hand is recorded. -/
def ScheduledTransfer.failuresAfter (transfer : ScheduledTransfer) :
    Option RelayExecuteResponse → Nat
  | some response => if response.success then 0 else transfer.consecutiveFailures + 1
  | none => transfer.consecutiveFailures

/-- The executions so far kept to the law, of a record the user agreed to. -/
structure FailuresStop (transfer : ScheduledTransfer) (world : SchedulerWorld Worker) : Prop where
  agreed : (world.state.transfers.get transfer.id).map ScheduledTransfer.terms =
    some transfer.terms
  stops : Historically (StopsAtBound transfer) world.exchanges
  once : Historically (RunsOnce transfer) world.exchanges

/-- At a stage: the record of an active transfer counts the failures but for the response in hand,
which can be recorded. -/
structure FailuresAt (transfer : ScheduledTransfer) (stage : Stage)
    (world : SchedulerWorld Worker) : Prop where
  current : Current stage world.state
  counts : ∀ stored ∈ world.state.transfers.get transfer.id, stored.status = .active →
    stored.consecutiveFailures < maxConsecutiveFailures ∧
      failuresSince transfer.id transfer.consecutiveFailures world.exchanges =
        stored.failuresAfter (stage.response transfer.id)
  unanswered : ∀ stored ∈ world.state.transfers.get transfer.id, stored.status = .active →
    stage.response transfer.id = none → transfer.frequency = .once →
      ∀ exchange ∈ world.exchanges, responseFor transfer.id exchange = none
  underWay : underWay transfer.id world.exchanges = (stage.response transfer.id).isSome
  recordable : ∀ response ∈ stage.response transfer.id,
    response.success = true ∨ world.state.Tolerates transfer.id

section Steps

variable {transfer : ScheduledTransfer} {worker : Worker} {stage onward : Stage}
  {request : SchedulerCall} {circumstance : Circumstance} {world : SchedulerWorld Worker}

/-- A call that executes nothing keeps to the law. -/
theorem FailuresStop.after_quiet (stop : FailuresStop transfer world)
    (unpaid : paidBy (world.exchange (perform workerIdOf) worker request circumstance) = none) :
    FailuresStop transfer (world.after (perform workerIdOf) worker request circumstance) where
  agreed := (terms_perform workerIdOf worker request circumstance world.state _).trans stop.agreed
  stops := by
    refine ⟨fun executes => ?_, stop.stops⟩
    rw [Executes, unpaid] at executes
    cases executes
  once := by
    refine ⟨fun _ executes => ?_, stop.once⟩
    rw [Executes, unpaid] at executes
    cases executes

theorem responseFor_of_unpaid {id : TransferId} {exchange : SchedulerExchange Worker}
    (unpaid : paidBy exchange = none) : responseFor id exchange = none := by
  unfold paidBy at unpaid
  unfold responseFor
  split
  · cases unpaid
  · rfl

/-- A call that returns no response for the transfer and does not write its record. -/
theorem FailuresAt.after_silent (atStage : FailuresAt transfer stage world)
    (made : Stage.Next stage request
      (perform workerIdOf worker request circumstance world.state).1 onward)
    (silent : responseFor transfer.id
      (world.exchange (perform workerIdOf) worker request circumstance) = none)
    (record : (perform workerIdOf worker request circumstance world.state).2.transfers.get
      transfer.id = world.state.transfers.get transfer.id)
    (response : onward.response transfer.id = stage.response transfer.id)
    (ends : endsExecution transfer.id request = true → stage.response transfer.id = none) :
    FailuresAt transfer onward (world.after (perform workerIdOf) worker request circumstance) := by
  constructor
  · exact current_of_next atStage.current made
  · intro stored found active
    simp only [World.after, record, failuresSince, silent, response] at found ⊢
    exact atStage.counts stored found active
  · intro stored found active noResponse once
    simp only [World.after, record, response] at found noResponse ⊢
    exact List.forall_mem_cons.mpr
      ⟨silent, atStage.unanswered stored found active noResponse once⟩
  · simp only [World.after, Ancore.Relayer.underWay, silent, response, Option.isSome_none,
      Bool.false_or, atStage.underWay]
    cases ending : endsExecution transfer.id request with
    | false => simp [World.exchange, ending]
    | true => simp [World.exchange, ending, ends ending]
  · intro inHand member
    rw [response] at member
    obtain success | tolerates := atStage.recordable inHand member
    · exact .inl success
    · refine .inr ?_
      simp only [AnyScheduledTransferStore.Tolerates, World.after, record, refusesFailed_perform]
      exact tolerates

/-- A call that neither executes nor writes a record. -/
theorem failures_of_quiet (stop : FailuresStop transfer world)
    (atStage : FailuresAt transfer stage world)
    (made : Stage.Next stage request
      (perform workerIdOf worker request circumstance world.state).1 onward)
    (unpaid : paidBy (world.exchange (perform workerIdOf) worker request circumstance) = none)
    (unwritten : writtenBy world.state circumstance.fault request = none)
    (response : onward.response transfer.id = stage.response transfer.id)
    (ends : endsExecution transfer.id request = true → stage.response transfer.id = none) :
    FailuresStop transfer (world.after (perform workerIdOf) worker request circumstance) ∧
      FailuresAt transfer onward
        (world.after (perform workerIdOf) worker request circumstance) :=
  ⟨stop.after_quiet unpaid, atStage.after_silent made (responseFor_of_unpaid unpaid)
    (by rw [transfers_perform, unwritten]) response ends⟩

section Execution

variable {now : Date} {copy : ScheduledTransfer} {priorExecutions : Nat}
  {due : List ScheduledTransfer} {signedNonce : Option Nat} {response : RelayExecuteResponse}

/-- An execution keeps to the law: its record is active and counts the failures. -/
theorem FailuresStop.after_execution (stop : FailuresStop transfer world)
    (atStage : FailuresAt transfer (.counted now copy priorExecutions due) world)
    (relayRequest : RelayExecuteRequest) :
    FailuresStop transfer (world.after (perform workerIdOf) worker
      (.executeRelay copy.occurrence relayRequest signedNonce) circumstance) := by
  obtain ⟨stands, active⟩ := atStage.current.standing copy List.mem_cons_self
  have executed (executes : Executes transfer.id (world.exchange (perform workerIdOf) worker
      (.executeRelay copy.occurrence relayRequest signedNonce) circumstance)) :
      world.state.transfers.get transfer.id = some copy := by
    have same : copy.id = transfer.id := Option.some.inj executes
    rw [← same, stands]
  constructor
  · exact (terms_perform workerIdOf worker _ circumstance world.state _).trans stop.agreed
  · refine ⟨fun executes => ?_, stop.stops⟩
    obtain ⟨below, counts⟩ := atStage.counts copy (executed executes) active
    exact counts.trans_lt below
  · refine ⟨fun once executes => ?_, stop.once⟩
    exact atStage.unanswered copy (executed executes) active rfl once

/-- The response counts as long as it is in hand. -/
theorem FailuresAt.after_response
    (atStage : FailuresAt transfer (.counted now copy priorExecutions due) world)
    (answer : (perform workerIdOf worker (.executeRelay copy.occurrence
      (copy.relayRequest priorExecutions) signedNonce) circumstance world.state).1 = .ok response)
    (recorded : Recorded (world.exchange (perform workerIdOf) worker (.executeRelay copy.occurrence
      (copy.relayRequest priorExecutions) signedNonce) circumstance)) :
    FailuresAt transfer (.answered now copy response due) (world.after (perform workerIdOf) worker
      (.executeRelay copy.occurrence (copy.relayRequest priorExecutions) signedNonce)
      circumstance) := by
  have made : Stage.Next _ _ (perform workerIdOf worker _ circumstance world.state).1 _ :=
    answer ▸ (Stage.Next.answered : Stage.Next (.counted now copy priorExecutions due)
      (.executeRelay copy.occurrence _ signedNonce) (.ok response)
      (.answered now copy response due))
  have responds : responseFor transfer.id (world.exchange (perform workerIdOf) worker
      (.executeRelay copy.occurrence (copy.relayRequest priorExecutions) signedNonce)
      circumstance) = if copy.id = transfer.id then some response else none := by
    unfold World.exchange responseFor
    rw [answer]
    rfl
  by_cases same : copy.id = transfer.id
  · rw [if_pos same] at responds
    have inHand : Stage.response transfer.id (.answered now copy response due) = some response :=
      if_pos same
    obtain ⟨stands, active⟩ := atStage.current.standing copy List.mem_cons_self
    rw [same] at stands
    obtain ⟨returned, kept⟩ := carriedOut_of_ok answer
    have state : (world.after (perform workerIdOf) worker (.executeRelay copy.occurrence
        (copy.relayRequest priorExecutions) signedNonce) circumstance).state = world.state := kept
    constructor
    · exact current_of_next atStage.current made
    · intro stored found _
      rw [state, stands, Option.mem_def, Option.some.injEq] at found
      subst found
      obtain ⟨below, counts⟩ := atStage.counts copy stands active
      refine ⟨below, ?_⟩
      simp only [World.after, failuresSince, responds, inHand, ScheduledTransfer.failuresAfter]
      split
      · rfl
      · rw [counts]
        rfl
    · intro _ _ _ noResponse
      rw [inHand] at noResponse
      cases noResponse
    · simp only [World.after, Ancore.Relayer.underWay, responds, inHand, Option.isSome_some,
        Bool.true_or]
    · intro other member
      rw [inHand, Option.mem_def, Option.some.injEq] at member
      subst member
      rw [state]
      have calm : circumstance.fault = none := by
        cases fault : circumstance.fault with
        | none => rfl
        | some fault' =>
          simp only [perform, answered, fault] at answer
          cases fault' <;> cases answer
      obtain success | tolerates := recorded calm
      · exact .inl (returned ▸ success)
      · exact .inr (same ▸ tolerates)
  · rw [if_neg same] at responds
    exact atStage.after_silent made responds (by rw [transfers_perform]; rfl) (if_neg same)
      (by rintro ⟨⟩)

end Execution

/-! ### Recording the response -/

section Settlement

variable {now : Date} {copy : ScheduledTransfer} {due : List ScheduledTransfer}
  {response : RelayExecuteResponse} {random : Random}

/-- A record that stays active has failed fewer times than allowed, and recurs. -/
theorem settlement_of_active
    (active : (copy.settlement now response.success random).status = .active) :
    (copy.settlement now response.success random).consecutiveFailures < maxConsecutiveFailures ∧
      (copy.settlement now response.success random).consecutiveFailures =
        copy.failuresAfter (some response) ∧ copy.frequency ≠ .once := by
  unfold ScheduledTransfer.settlement at *
  dsimp only at *
  simp only [ScheduledTransfer.failuresAfter]
  split_ifs at * with success once bound
  · split at active
    · rename_i recurs
      refine ⟨Nat.succ_pos 4, rfl, fun once => ?_⟩
      rw [once] at recurs
      cases recurs
    · cases active
  · exact ⟨not_le.mp bound, rfl, once⟩

theorem settlement_of_failed
    (failed : (copy.settlement now response.success random).status = .failed) :
    response.success = false ∧ copy.frequency ≠ .once ∧
      maxConsecutiveFailures ≤ copy.consecutiveFailures + 1 := by
  unfold ScheduledTransfer.settlement at failed
  dsimp only at failed
  split_ifs at failed with success once bound
  · split at failed <;> cases failed
  · exact ⟨Bool.eq_false_of_not_eq_true success, once, bound⟩

/-- Where a failed response can be recorded, the table takes the settlement. -/
theorem accepted_of_recordable (now : Date) (random : Random) {store : AnyScheduledTransferStore}
    (stands : store.transfers.get copy.id = some copy)
    (recordable : response.success = true ∨ store.Tolerates copy.id) :
    (store.updateAfterExecution copy.id
      (copy.settlement now response.success random)).isSome := by
  cases store with
  | memory store => rfl
  | postgres store =>
    have takes : ¬ ((copy.settlement now response.success random).status = .failed ∧
        (store.transfers.get copy.id).isSome) := by
      rintro ⟨failed, -⟩
      obtain ⟨unsuccessful, recurring, bound⟩ := settlement_of_failed failed
      obtain success | tolerates := recordable
      · rw [unsuccessful] at success
        cases success
      · obtain once | below := tolerates rfl copy stands
        · exact recurring once
        · exact absurd bound (not_le.mpr below)
    simp [AnyScheduledTransferStore.updateAfterExecution,
      PgScheduledTransferStore.updateAfterExecution, if_neg takes]

/-- Recording the response settles the record. -/
theorem FailuresAt.after_settlement (stop : FailuresStop transfer world)
    (atStage : FailuresAt transfer (.logged now copy response due) world)
    (made : Stage.Next (.logged now copy response due)
      (.updateAfterExecution copy.id (copy.settlement now response.success random))
      (perform workerIdOf worker (.updateAfterExecution copy.id
        (copy.settlement now response.success random)) circumstance world.state).1
      (.leaving now copy due))
    (carriedOut : circumstance.fault ≠ some .before) :
    FailuresAt transfer (.leaving now copy due) (world.after (perform workerIdOf) worker
      (.updateAfterExecution copy.id (copy.settlement now response.success random))
      circumstance) := by
  by_cases same : copy.id = transfer.id
  · obtain ⟨stands, active⟩ := atStage.current.standing copy List.mem_cons_self
    have inHand : Stage.response transfer.id (.logged now copy response due) = some response :=
      if_pos same
    have accepted := accepted_of_recordable now random stands
      (same ▸ atStage.recordable response inHand)
    have record : (world.after (perform workerIdOf) worker (.updateAfterExecution copy.id
        (copy.settlement now response.success random)) circumstance).state.transfers.get
          transfer.id = some (copy.patched (copy.settlement now response.success random)) := by
      rw [World.after, ← same, get_update_self carriedOut accepted, stands, Option.map_some]
    obtain ⟨-, counts⟩ := atStage.counts copy (same ▸ stands) active
    constructor
    · exact current_of_next atStage.current made
    · intro stored found settledActive
      rw [record, Option.mem_def, Option.some.injEq] at found
      subst found
      obtain ⟨below, after, -⟩ := settlement_of_active settledActive
      refine ⟨below, ?_⟩
      rw [inHand, ← after] at counts
      exact counts
    · intro stored found settledActive _ once
      rw [record, Option.mem_def, Option.some.injEq] at found
      subst found
      obtain ⟨-, -, recurring⟩ := settlement_of_active settledActive
      have agreed := stop.agreed
      rw [← same, stands, Option.map_some, Option.some.injEq] at agreed
      exact absurd ((congrArg (·.1) agreed : copy.frequency = transfer.frequency).trans once)
        recurring
    · simp [World.after, World.exchange, Ancore.Relayer.underWay, responseFor, endsExecution, same,
        Stage.response]
    · intro other member
      cases member
  · exact atStage.after_silent made rfl (get_update_of_ne (Ne.symm same)) (if_neg same).symm
      fun _ => if_neg same

end Settlement

end Steps

/-- Each call of a tick, of a worker that is alone. -/
theorem failures_step [Subsingleton Worker] (transfer : ScheduledTransfer) :
    OutlineStep (perform workerIdOf) Stage.Next (fun exchange _ => Recorded exchange)
      (FailuresStop transfer) (fun (_ : Worker) => FailuresAt transfer) := by
  intro worker stage request circumstance onward world stop atStage made recorded
  suffices own : FailuresStop transfer
      (world.after (perform workerIdOf) worker request circumstance) ∧
        FailuresAt transfer onward
          (world.after (perform workerIdOf) worker request circumstance) from
    ⟨own.1, own.2, fun other different => absurd (Subsingleton.elim other worker) different⟩
  have outlined := made
  generalize answer : (perform workerIdOf worker request circumstance world.state).1 = answered
    at outlined
  cases outlined with
  | listed rests =>
    have none : stage.response transfer.id = none := by
      cases stage <;> first | rfl | cases rests
    exact failures_of_quiet stop atStage made rfl rfl none.symm (by rintro ⟨⟩)
  | unlisted rests =>
    have none : stage.response transfer.id = none := by
      cases stage <;> first | rfl | cases rests
    exact failures_of_quiet stop atStage made rfl rfl none.symm (by rintro ⟨⟩)
  | acquired _ _ => exact failures_of_quiet stop atStage made rfl rfl rfl (by rintro ⟨⟩)
  | unacquired _ => exact failures_of_quiet stop atStage made rfl rfl rfl (by rintro ⟨⟩)
  | refused _ => exact failures_of_quiet stop atStage made rfl rfl rfl (by rintro ⟨⟩)
  | counted => exact failures_of_quiet stop atStage made rfl rfl rfl (by rintro ⟨⟩)
  | uncounted => exact failures_of_quiet stop atStage made rfl rfl rfl (by rintro ⟨⟩)
  | answered => exact ⟨stop.after_execution atStage _, atStage.after_response answer recorded⟩
  | unanswered =>
    refine ⟨stop.after_execution atStage _, atStage.after_silent made ?_
      (by rw [transfers_perform]; rfl) rfl (by rintro ⟨⟩)⟩
    unfold World.exchange responseFor
    rw [answer]
  | logged => exact failures_of_quiet stop atStage made rfl rfl rfl (by rintro ⟨⟩)
  | unlogged =>
    -- The entry is written, so the response stays in hand.
    have calm : circumstance.fault = none := recorded
    simp only [perform, calm] at answer
    cases answer
  | rolled => exact failures_of_quiet stop atStage made rfl rfl rfl (by rintro ⟨⟩)
  | settled =>
    exact ⟨stop.after_quiet rfl, atStage.after_settlement stop made recorded⟩
  | released => exact failures_of_quiet stop atStage made rfl rfl rfl fun _ => rfl
  | unreleased => exact failures_of_quiet stop atStage made rfl rfl rfl fun _ => rfl

/-! ## Runs -/

/-- In every run of ticks that records what is answered: no transfer is executed after as many
consecutive failed responses as are allowed, what is executed once is not executed after it was
answered, and the record of an active transfer counts its failures. -/
theorem failing_transfers_stop (workerIdOf : Unit → WorkerId) (store : AnyScheduledTransferStore)
    (turns : List (Turn Unit Date Circumstance)) (transfer : ScheduledTransfer)
    (stored : store.transfers.get transfer.id = some transfer)
    (sound : transfer.status = .active → transfer.consecutiveFailures < maxConsecutiveFailures)
    (recorded : ∀ exchange ∈ (schedulerRun workerIdOf store turns).world.exchanges,
      Recorded exchange) :
    Historically (StopsAtBound transfer) (schedulerRun workerIdOf store turns).world.exchanges ∧
      Historically (RunsOnce transfer) (schedulerRun workerIdOf store turns).world.exchanges ∧
        CountsFailures transfer (schedulerRun workerIdOf store turns).world := by
  have initially : FailuresAt transfer .idle
      (World.mk store [] : SchedulerWorld Unit) := by
    constructor
    · exact .idle store
    · intro current found active
      rw [stored, Option.mem_def, Option.some.injEq] at found
      subst found
      exact ⟨sound active, rfl⟩
    · exact fun _ _ _ _ _ _ member => absurd member List.not_mem_nil
    · rfl
    · intro _ member
      cases member
  have initial : FailuresStop transfer (World.mk store [] : SchedulerWorld Unit) :=
    ⟨by rw [stored, Option.map_some], trivial, trivial⟩
  obtain ⟨stop, inStep⟩ := invariant_of_outline tick_follows
    (@failures_step _ workerIdOf _ transfer) initial
    (fun _ => ⟨.idle, trivial, initially⟩) turns
    (historically_of_forall fun exchange member _ => recorded exchange member)
  obtain ⟨stage, -, atStage⟩ := inStep ()
  refine ⟨stop.stops, stop.once, fun current found active => ?_⟩
  obtain ⟨below, counts⟩ := atStage.counts current found active
  refine ⟨below, fun settled => ?_⟩
  have none : stage.response transfer.id = none :=
    Option.isSome_eq_false_iff.mp (atStage.underWay.symm.trans settled)
      |> Option.isNone_iff_eq_none.mp
  rw [none] at counts
  exact counts.symm

/-! ### Failing ticks of a sample -/

theorem failing_transfers_stop_of_sample :
    Historically (StopsAtBound dailyTransfer) (schedulerRun (fun _ => 0) dailyStore
      (ticked 1000 (List.replicate 8 failing) ++
        ticked 1000 (List.replicate 8 failing))).world.exchanges :=
  (failing_transfers_stop (fun _ => 0) dailyStore (ticked 1000 (List.replicate 8 failing) ++
    ticked 1000 (List.replicate 8 failing)) dailyTransfer (by decide) (by decide)
    (by decide +kernel)).1

/-- Six ticks: the first four failures are recorded and the fifth is refused by the table. -/
def sixFailingTicks : List (Turn Unit Date Circumstance) :=
  (List.replicate 4 (ticked 1000 (List.replicate 8 failing))).flatten ++
    ticked 1000 (List.replicate 7 failing) ++ ticked 1000 (List.replicate 7 failing)

/-- After the fifth failure the transfer stays active and is executed again. -/
theorem failing_transfer_goes_on :
    ¬ Historically (StopsAtBound dailyTransfer)
      (schedulerRun (fun _ => 0) dailyStore sixFailingTicks).world.exchanges := by
  decide +kernel

end Ancore.Relayer
