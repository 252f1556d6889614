import Ancore.Relayer.Records

/-! # The nonces of scheduled executions

An execution submits the approved nonce plus the length of the listing of the
executions before it.  The listing has at most one entry for each of them; it has
all of them as long as every entry was written and, in Postgres, no more than
fifty were. -/

namespace Ancore.Relayer

open Ancore.Library

variable {Worker : Type} {workerIdOf : Worker → WorkerId}

/-- The nonce a call submits for the transfer. -/
def nonceSubmitted (id : TransferId) (exchange : SchedulerExchange Worker) : Option Nat :=
  match exchange.request with
  | .executeRelay occurrence request _ => if occurrence.1 = id then some request.nonce else none
  | _ => none

/-- The nonces submitted for the transfer, one for each execution, the latest first. -/
def submittedNonces (id : TransferId) (exchanges : List (SchedulerExchange Worker)) : List Nat :=
  exchanges.filterMap (nonceSubmitted id)

/-- An execution finds an entry for each of the `before` executions known at the start and each
made since, and lists them all. -/
def CountsAll (before : Nat) (id : TransferId) (exchange : SchedulerExchange Worker)
    (earlier : List (SchedulerExchange Worker)) : Prop :=
  (nonceSubmitted id exchange).isSome →
    (exchange.found.logged id).length = before + (submittedNonces id earlier).length ∧
      exchange.found.ListsAll id

instance (before : Nat) (id : TransferId) (exchange : SchedulerExchange Worker)
    (earlier : List (SchedulerExchange Worker)) :
    Decidable (CountsAll before id exchange earlier) :=
  inferInstanceAs (Decidable (_ → _))

/-! ## What an execution submits -/

/-- The entry the execution in hand has still to write. -/
def Stage.unlogged (id : TransferId) : Stage → Nat
  | .answered _ transfer _ _ => if transfer.id = id then 1 else 0
  | _ => 0

/-- What a call submits for the transfer: the approved nonce and the length of the listing, in a
log that has at most one entry for each execution. -/
def SubmitsNext (transfer : ScheduledTransfer) (before : Nat) (exchange : SchedulerExchange Worker)
    (earlier : List (SchedulerExchange Worker)) : Prop :=
  ∀ nonce ∈ nonceSubmitted transfer.id exchange,
    nonce = transfer.relayPayload.nonce + (exchange.found.listExecutions transfer.id).length ∧
      (exchange.found.logged transfer.id).length ≤
        before + (submittedNonces transfer.id earlier).length

/-- The record is the one the user agreed to, and every execution so far submitted as stated. -/
structure NoncesFollow (transfer : ScheduledTransfer) (before : Nat)
    (world : SchedulerWorld Worker) : Prop where
  agreed : (world.state.transfers.get transfer.id).map ScheduledTransfer.terms =
    some transfer.terms
  submits : Historically (SubmitsNext transfer before) world.exchanges

/-- At a stage: what the worker has read is so, and entries are not ahead of executions. -/
structure NoncesAt (transfer : ScheduledTransfer) (before : Nat) (stage : Stage)
    (world : SchedulerWorld Worker) : Prop where
  current : Current stage world.state
  behind : (world.state.logged transfer.id).length + stage.unlogged transfer.id ≤
    before + (submittedNonces transfer.id world.exchanges).length

/-- A call adds at most its own entry. -/
theorem length_logged_append_le (worker : Worker) (log : ScheduledTransferExecutionLog)
    (circumstance : Circumstance) (store : AnyScheduledTransferStore) (id : TransferId) :
    ((perform workerIdOf worker (.appendExecution log) circumstance store).2.logged id).length ≤
      (store.logged id).length + if log.scheduledTransferId = id then 1 else 0 := by
  unfold AnyScheduledTransferStore.logged
  rw [executions_perform]
  simp only [appendedBy]
  by_cases lost : circumstance.fault = some .before
  · simp [lost]
  · rw [if_pos lost]
    dsimp only
    rw [List.filter_cons]
    simp only [decide_eq_true_eq]
    split
    · exact le_rfl
    · exact le_rfl

section Steps

variable {transfer : ScheduledTransfer} {before : Nat} {worker : Worker} {stage onward : Stage}
  {request : SchedulerCall} {circumstance : Circumstance} {world : SchedulerWorld Worker}

/-- A call that is no execution submits nothing. -/
theorem submittedNonces_cons_of_none {id : TransferId} {exchange : SchedulerExchange Worker}
    (silent : nonceSubmitted id exchange = none) (earlier : List (SchedulerExchange Worker)) :
    submittedNonces id (exchange :: earlier) = submittedNonces id earlier :=
  List.filterMap_cons_none silent

theorem NoncesFollow.after (follow : NoncesFollow transfer before world)
    (submits : SubmitsNext transfer before
      (world.exchange (perform workerIdOf) worker request circumstance) world.exchanges) :
    NoncesFollow transfer before
      (world.after (perform workerIdOf) worker request circumstance) where
  agreed := (terms_perform workerIdOf worker request circumstance world.state _).trans follow.agreed
  submits := ⟨submits, follow.submits⟩

/-- A call that neither executes nor appends. -/
theorem nonces_of_quiet (follow : NoncesFollow transfer before world)
    (atStage : NoncesAt transfer before stage world)
    (made : Stage.Next stage request
      (perform workerIdOf worker request circumstance world.state).1 onward)
    (silent : nonceSubmitted transfer.id
      (world.exchange (perform workerIdOf) worker request circumstance) = none)
    (unappended : appendedBy circumstance.fault request = none)
    (written : onward.unlogged transfer.id = 0) :
    NoncesFollow transfer before (world.after (perform workerIdOf) worker request circumstance) ∧
      NoncesAt transfer before onward
        (world.after (perform workerIdOf) worker request circumstance) := by
  refine ⟨follow.after fun nonce submitted => ?_, current_of_next atStage.current made, ?_⟩
  · rw [silent] at submitted
    cases submitted
  · have behind := atStage.behind
    simp only [World.after]
    rw [logged_of_unappended (by simp [unappended]), submittedNonces_cons_of_none silent, written]
    omega

/-- An execution submits the next nonce. -/
theorem nonces_of_execution {now : Date} {copy : ScheduledTransfer} {priorExecutions : Nat}
    {due : List ScheduledTransfer} {signedNonce : Option Nat}
    (follow : NoncesFollow transfer before world)
    (atStage : NoncesAt transfer before (.counted now copy priorExecutions due) world)
    (made : Stage.Next (.counted now copy priorExecutions due)
      (.executeRelay copy.occurrence (copy.relayRequest priorExecutions) signedNonce)
      (perform workerIdOf worker (.executeRelay copy.occurrence (copy.relayRequest priorExecutions)
        signedNonce) circumstance world.state).1 onward)
    (written : onward.unlogged transfer.id ≤ if copy.id = transfer.id then 1 else 0) :
    NoncesFollow transfer before (world.after (perform workerIdOf) worker
        (.executeRelay copy.occurrence (copy.relayRequest priorExecutions) signedNonce)
        circumstance) ∧
      NoncesAt transfer before onward (world.after (perform workerIdOf) worker
        (.executeRelay copy.occurrence (copy.relayRequest priorExecutions) signedNonce)
        circumstance) := by
  have same : (perform workerIdOf worker (.executeRelay copy.occurrence
      (copy.relayRequest priorExecutions) signedNonce) circumstance world.state).2 =
        world.state := by
    obtain kept | kept := answered_cases circumstance.fault world.state
      (circumstance.response, world.state)
    · exact kept
    · exact kept
  have behind : (world.state.logged transfer.id).length ≤
      before + (submittedNonces transfer.id world.exchanges).length := atStage.behind
  have current := current_of_next atStage.current made
  refine ⟨follow.after ?_, current, ?_⟩
  · intro nonce submitted
    simp only [nonceSubmitted, World.exchange, Option.mem_def, Option.ite_none_right_eq_some,
      Option.some.injEq, ScheduledTransfer.occurrence] at submitted
    obtain ⟨sameId, rfl⟩ := submitted
    obtain ⟨stands, -⟩ := atStage.current.standing copy List.mem_cons_self
    have agreed := follow.agreed
    rw [← sameId, stands, Option.map_some, Option.some.injEq] at agreed
    have payload : copy.relayPayload = transfer.relayPayload := congrArg (·.2.2) agreed
    have found : priorExecutions = (world.state.listExecutions copy.id).length :=
      atStage.current.counted
    refine ⟨?_, behind⟩
    rw [← payload, ← sameId, ScheduledTransfer.relayRequest, found]
    rfl
  · simp only [World.after, same]
    by_cases sameId : copy.id = transfer.id
    · have one : nonceSubmitted transfer.id (world.exchange (perform workerIdOf) worker
          (.executeRelay copy.occurrence (copy.relayRequest priorExecutions) signedNonce)
          circumstance) = some (copy.relayRequest priorExecutions).nonce := if_pos sameId
      rw [if_pos sameId] at written
      rw [submittedNonces, List.filterMap_cons_some one, List.length_cons]
      change _ ≤ before + ((submittedNonces transfer.id world.exchanges).length + 1)
      omega
    · have none : nonceSubmitted transfer.id (world.exchange (perform workerIdOf) worker
          (.executeRelay copy.occurrence (copy.relayRequest priorExecutions) signedNonce)
          circumstance) = none := if_neg sameId
      rw [if_neg sameId] at written
      rw [submittedNonces_cons_of_none none]
      omega

/-- An entry is written for the execution in hand only. -/
theorem nonces_of_append {now : Date} {copy : ScheduledTransfer} {response : RelayExecuteResponse}
    {due : List ScheduledTransfer} (follow : NoncesFollow transfer before world)
    (atStage : NoncesAt transfer before (.answered now copy response due) world)
    (made : Stage.Next (.answered now copy response due)
      (.appendExecution (copy.executionLog now response))
      (perform workerIdOf worker (.appendExecution (copy.executionLog now response)) circumstance
        world.state).1 onward)
    (written : onward.unlogged transfer.id = 0) :
    NoncesFollow transfer before (world.after (perform workerIdOf) worker
        (.appendExecution (copy.executionLog now response)) circumstance) ∧
      NoncesAt transfer before onward (world.after (perform workerIdOf) worker
        (.appendExecution (copy.executionLog now response)) circumstance) := by
  refine ⟨follow.after ?_, current_of_next atStage.current made, ?_⟩
  · intro nonce submitted
    cases submitted
  · have length := @length_logged_append_le _ workerIdOf worker
      (copy.executionLog now response) circumstance world.state transfer.id
    have behind : (world.state.logged transfer.id).length +
        (if copy.id = transfer.id then 1 else 0) ≤
          before + (submittedNonces transfer.id world.exchanges).length := atStage.behind
    have silent : nonceSubmitted transfer.id (world.exchange (perform workerIdOf) worker
        (.appendExecution (copy.executionLog now response)) circumstance) = none := rfl
    simp only [World.after]
    rw [submittedNonces_cons_of_none silent, written]
    exact length.trans behind

end Steps

/-- Each call of a tick, of a worker that is alone. -/
theorem nonces_step [Subsingleton Worker] (transfer : ScheduledTransfer) (before : Nat) :
    OutlineStep (perform workerIdOf) Stage.Next (fun _ _ => True) (NoncesFollow transfer before)
      (fun (_ : Worker) => NoncesAt transfer before) := by
  intro worker stage request circumstance onward world follow atStage made _
  suffices own : NoncesFollow transfer before
      (world.after (perform workerIdOf) worker request circumstance) ∧
        NoncesAt transfer before onward
          (world.after (perform workerIdOf) worker request circumstance) from
    ⟨own.1, own.2, fun other different => absurd (Subsingleton.elim other worker) different⟩
  have outlined := made
  generalize (perform workerIdOf worker request circumstance world.state).1 = answer at outlined
  cases outlined with
  | listed _ => exact nonces_of_quiet follow atStage made rfl rfl rfl
  | unlisted _ => exact nonces_of_quiet follow atStage made rfl rfl rfl
  | acquired _ _ => exact nonces_of_quiet follow atStage made rfl rfl rfl
  | unacquired _ => exact nonces_of_quiet follow atStage made rfl rfl rfl
  | refused _ => exact nonces_of_quiet follow atStage made rfl rfl rfl
  | counted => exact nonces_of_quiet follow atStage made rfl rfl rfl
  | uncounted => exact nonces_of_quiet follow atStage made rfl rfl rfl
  | answered => exact nonces_of_execution follow atStage made le_rfl
  | unanswered => exact nonces_of_execution follow atStage made (Nat.zero_le _)
  | logged => exact nonces_of_append follow atStage made rfl
  | unlogged => exact nonces_of_append follow atStage made rfl
  | rolled => exact nonces_of_quiet follow atStage made rfl rfl rfl
  | settled => exact nonces_of_quiet follow atStage made rfl rfl rfl
  | released => exact nonces_of_quiet follow atStage made rfl rfl rfl
  | unreleased => exact nonces_of_quiet follow atStage made rfl rfl rfl

/-! ## Runs -/

theorem run_submits (workerIdOf : Unit → WorkerId) (store : AnyScheduledTransferStore)
    (turns : List (Turn Unit Date Circumstance)) {transfer : ScheduledTransfer}
    (stored : store.transfers.get transfer.id = some transfer) :
    Historically (SubmitsNext transfer (store.logged transfer.id).length)
      (schedulerRun workerIdOf store turns).world.exchanges := by
  have initial : NoncesFollow transfer (store.logged transfer.id).length
      (World.mk store [] : SchedulerWorld Unit) := ⟨by rw [stored, Option.map_some], trivial⟩
  have run := invariant_of_outline ScheduledTransferService.tick_follows
    (@nonces_step _ workerIdOf _ transfer (store.logged transfer.id).length) initial
    (fun _ => ⟨.idle, trivial, .idle store, le_rfl⟩) turns
    (historically_of_forall fun _ _ _ => trivial)
  exact run.1.submits

/-- The next two days are executed without a fault. -/
def twoDays : List (Turn Unit Date Circumstance) :=
  ticked 1000 (List.replicate 7 smoothly) ++ ticked 90000000 (List.replicate 7 smoothly)

/-- The daily transfer after fifty days. -/
def fiftiethDayStore : AnyScheduledTransferStore :=
  .postgres
    { transfers := ⟨[dailyTransfer], nodup_dailyTransfer⟩
      executions := List.replicate 50 ⟨7, 0, .success, none, none⟩
      leases := [] }

end Ancore.Relayer
