import Ancore.Library.Outline
import Ancore.Relayer.Scheduler

/-! # The stages of a tick

What `processDueTransfers` can do, said once: at which stage a worker makes which
call, and where it goes on.  Every law about runs of the scheduler is an
assertion at each stage. -/

namespace Ancore.Relayer

open Ancore.Library

/-- Where a worker stands.  `due` are the transfers still to come. -/
inductive Stage where
  | idle
  | between (now : Date) (due : List ScheduledTransfer)
  | acquired (now : Date) (transfer : ScheduledTransfer) (due : List ScheduledTransfer)
  | counted (now : Date) (transfer : ScheduledTransfer) (priorExecutions : Nat)
      (due : List ScheduledTransfer)
  | answered (now : Date) (transfer : ScheduledTransfer) (response : RelayExecuteResponse)
      (due : List ScheduledTransfer)
  | logged (now : Date) (transfer : ScheduledTransfer) (response : RelayExecuteResponse)
      (due : List ScheduledTransfer)
  | leaving (now : Date) (transfer : ScheduledTransfer) (due : List ScheduledTransfer)

namespace Stage

/-- No transfer is in hand. -/
def Rests : Stage → Prop
  | idle => True
  | between _ _ => True
  | _ => False

/-- The transfers whose copies are still to be used. -/
def copies : Stage → List ScheduledTransfer
  | idle => []
  | between _ due => due
  | acquired _ transfer due => transfer :: due
  | counted _ transfer _ due => transfer :: due
  | answered _ transfer _ due => transfer :: due
  | logged _ transfer _ due => transfer :: due
  | leaving _ _ due => due

end Stage

/-! ## What the calls are -/

/-- The request of an execution. -/
def ScheduledTransfer.relayRequest (transfer : ScheduledTransfer) (priorExecutions : Nat) :
    RelayExecuteRequest where
  sessionKey := transfer.relayPayload.sessionKey
  operation := transfer.relayPayload.operation
  parameters := transfer.relayPayload.parameters
  signature := transfer.relayPayload.signature
  nonce := transfer.relayPayload.nonce + priorExecutions

/-- The log entry of an execution. -/
def ScheduledTransfer.executionLog (transfer : ScheduledTransfer) (now : Date)
    (response : RelayExecuteResponse) : ScheduledTransferExecutionLog where
  scheduledTransferId := transfer.id
  executedAt := now
  outcome := if response.success then .success else .failed
  transactionId := response.transactionId
  error := response.errorMessage

/-- What an execution makes of the record. -/
def ScheduledTransfer.settlement (transfer : ScheduledTransfer) (now : Date) (success : Bool)
    (random : Random) : ExecutionPatch :=
  let failures := transfer.consecutiveFailures + 1
  if success then
    match computeNextRunAt now transfer.frequency transfer.endAt with
    | some nextRunAt => ⟨.active, nextRunAt, some now, 0⟩
    | none => ⟨.completed, transfer.nextRunAt, some now, 0⟩
  else if transfer.frequency = .once then ⟨.completed, transfer.nextRunAt, some now, failures⟩
  else if ScheduledTransferService.maxConsecutiveFailures ≤ failures then
    ⟨.failed, transfer.nextRunAt, some now, failures⟩
  else ⟨.active, nextRetryAfter (failures - 1) now random, some now, failures⟩

/-- From a stage, the calls and where they lead. -/
inductive Stage.Next : Outline Stage Answer
  | listed {stage now due} (rests : stage.Rests) :
      Next stage (.listDue now) (.ok due) (between now due)
  | unlisted {stage now rejection} (rests : stage.Rests) :
      Next stage (.listDue now) (.error rejection) idle
  | acquired {now due transfer rest} (suffix : transfer :: rest <:+ due)
      (isDue : isDue transfer.nextRunAt now = true) :
      Next (between now due) (.tryAcquireProcessing transfer.id) (.ok true)
        (acquired now transfer rest)
  | unacquired {now due transfer rest} (suffix : transfer :: rest <:+ due) :
      Next (between now due) (.tryAcquireProcessing transfer.id) (.ok false) (between now rest)
  | refused {now due transfer rest rejection} (suffix : transfer :: rest <:+ due) :
      Next (between now due) (.tryAcquireProcessing transfer.id) (.error rejection) idle
  | counted {now transfer due executions} :
      Next (acquired now transfer due) (.listExecutions transfer.id) (.ok executions)
        (counted now transfer executions.length due)
  | uncounted {now transfer due rejection} :
      Next (acquired now transfer due) (.listExecutions transfer.id) (.error rejection)
        (leaving now transfer due)
  | answered {now transfer priorExecutions due signedNonce response} :
      Next (counted now transfer priorExecutions due)
        (.executeRelay transfer.occurrence (transfer.relayRequest priorExecutions) signedNonce)
        (.ok response) (answered now transfer response due)
  | unanswered {now transfer priorExecutions due signedNonce rejection} :
      Next (counted now transfer priorExecutions due)
        (.executeRelay transfer.occurrence (transfer.relayRequest priorExecutions) signedNonce)
        (.error rejection) (leaving now transfer due)
  | logged {now transfer response due} :
      Next (answered now transfer response due)
        (.appendExecution (transfer.executionLog now response)) (.ok ())
        (logged now transfer response due)
  | unlogged {now transfer response due rejection} :
      Next (answered now transfer response due)
        (.appendExecution (transfer.executionLog now response)) (.error rejection)
        (leaving now transfer due)
  | rolled {now transfer response due random} :
      Next (logged now transfer response due) .mathRandom random (logged now transfer response due)
  | settled {now transfer response due random answer} :
      Next (logged now transfer response due)
        (.updateAfterExecution transfer.id (transfer.settlement now response.success random)) answer
        (leaving now transfer due)
  | released {now transfer due} :
      Next (leaving now transfer due) (.releaseProcessing transfer.id) (.ok ()) (between now due)
  | unreleased {now transfer due rejection} :
      Next (leaving now transfer due) (.releaseProcessing transfer.id) (.error rejection) idle

/-! ## The service follows the stages -/

namespace ScheduledTransferService

open Stage

/-- The worker is done with the transfer, whether or not the execution went through. -/
def Leaves (now : Date) (transfer : ScheduledTransfer) (due : List ScheduledTransfer)
    (stage : Stage) : Prop :=
  stage = leaving now transfer due

theorem updateAfterExecution_tracks {now : Date} {transfer : ScheduledTransfer}
    {response : RelayExecuteResponse} {due : List ScheduledTransfer} (random : Random) :
    Tracks Next (fun _ => Leaves now transfer due) (Leaves now transfer due)
      (updateAfterExecution transfer.id (transfer.settlement now response.success random))
      (logged now transfer response due) := by
  intro answer
  refine ⟨leaving now transfer due, .settled, ?_⟩
  cases answer with
  | ok _ => rfl
  | error _ => rfl

theorem recordSuccess_tracks {now : Date} {transfer : ScheduledTransfer}
    {response : RelayExecuteResponse} {due : List ScheduledTransfer}
    (succeeded : response.success = true) :
    Tracks Next (fun _ => Leaves now transfer due) (Leaves now transfer due)
      (recordSuccess transfer now) (logged now transfer response due) := by
  have settles : Tracks Next (fun _ => Leaves now transfer due) (Leaves now transfer due)
      (updateAfterExecution transfer.id (transfer.settlement now response.success noRandom))
      (logged now transfer response due) := updateAfterExecution_tracks noRandom
  simp only [ScheduledTransfer.settlement, succeeded, if_true] at settles
  unfold recordSuccess
  split
  · rename_i nextRunAt recurs
    rwa [recurs] at settles
  · rename_i ends
    rwa [ends] at settles

theorem recordFailure_tracks {now : Date} {transfer : ScheduledTransfer}
    {response : RelayExecuteResponse} {due : List ScheduledTransfer}
    (failed : response.success = false) :
    Tracks Next (fun _ => Leaves now transfer due) (Leaves now transfer due)
      (recordFailure transfer now) (logged now transfer response due) := by
  have settles (random : Random) :
      Tracks Next (fun _ => Leaves now transfer due) (Leaves now transfer due)
        (updateAfterExecution transfer.id (transfer.settlement now response.success random))
        (logged now transfer response due) := updateAfterExecution_tracks random
  simp only [ScheduledTransfer.settlement, failed, Bool.false_eq_true, if_false] at settles
  unfold recordFailure
  dsimp only
  split
  · rename_i once
    simpa only [once, if_true] using settles noRandom
  · rename_i recurring
    simp only [recurring, if_false] at settles
    split
    · rename_i tooMany
      simpa only [tooMany, if_true] using settles noRandom
    · rename_i fewEnough
      simp only [fewEnough, if_false] at settles
      exact fun random => ⟨_, .rolled, settles random⟩

theorem executeTransfer_tracks (now : Date) (transfer : ScheduledTransfer)
    (due : List ScheduledTransfer) :
    Tracks Next (fun _ => Leaves now transfer due) (Leaves now transfer due)
      (executeTransfer transfer now) (acquired now transfer due) := by
  intro executions
  cases executions with
  | error _ => exact ⟨_, .uncounted, rfl⟩
  | ok executions =>
    refine ⟨_, .counted, fun response => ?_⟩
    cases response with
    | error _ => exact ⟨_, .unanswered, rfl⟩
    | ok response =>
      refine ⟨_, .answered, fun appended => ?_⟩
      cases appended with
      | error _ => exact ⟨_, .unlogged, rfl⟩
      | ok _ =>
        refine ⟨_, .logged, ?_⟩
        change Tracks _ _ _ (if response.success then _ else _) _
        split
        · rename_i succeeded
          exact recordSuccess_tracks succeeded
        · rename_i failed
          exact recordFailure_tracks (Bool.eq_false_of_not_eq_true failed)

/-- The loop, by induction on the transfers still to come; those that are not due are skipped. -/
theorem processEach_tracks {now : Date} {listed : List ScheduledTransfer}
    (due : List ScheduledTransfer) (suffix : due <:+ listed) (processed : Nat) :
    Tracks Next (fun _ => Rests) Rests (processEach now due processed) (between now listed) := by
  induction due generalizing listed processed with
  | nil => exact Tracks.pure trivial
  | cons transfer due inductionHypothesis =>
    unfold processEach
    split
    · rename_i isDue
      intro acquired
      cases acquired with
      | error _ => exact ⟨_, .refused suffix, trivial⟩
      | ok acquired =>
        cases acquired with
        | false => exact ⟨_, .unacquired suffix, inductionHypothesis List.suffix_rfl processed⟩
        | true =>
          refine ⟨_, .acquired suffix isDue, ?_⟩
          refine (Tracks.observe (executeTransfer_tracks now transfer due)).bind ?_
          rintro executed stage rfl released
          cases released with
          | error _ => exact ⟨_, .unreleased, trivial⟩
          | ok _ => exact ⟨_, .released, inductionHypothesis List.suffix_rfl _⟩
    · exact inductionHypothesis ((List.suffix_cons transfer due).trans suffix) processed

theorem processDueTransfers_tracks {stage : Stage} (rests : stage.Rests) (now : Date) :
    Tracks Next (fun _ => Rests) Rests (processDueTransfers now) stage := by
  intro due
  cases due with
  | error _ => exact ⟨_, .unlisted rests, trivial⟩
  | ok due => exact ⟨_, .listed rests, processEach_tracks due List.suffix_rfl 0⟩

theorem tick_follows (now : Date) (stage : Stage) (rests : stage.Rests) :
    (tick now).Follows Next (fun _ => Rests) stage := by
  refine Program.Follows.bind (Program.Follows.mono (processDueTransfers_tracks rests now) ?_)
  intro result stage ended
  cases result with
  | ok _ => exact ended
  | error _ => exact ended

end ScheduledTransferService

end Ancore.Relayer
