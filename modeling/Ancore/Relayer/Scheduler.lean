import Ancore.Library.Interleaving
import Ancore.Relayer.TransferStores

/-! # The scheduled transfer service

`processDueTransfers` as a program over its awaited calls: those to the store, to
the relay service and to `Math.random`.  Workers run it side by side over one
store; a call is carried out at one instant, and it may reject, before or after
it was carried out. -/

namespace Ancore.Relayer

open Ancore.Library

structure RelayExecuteRequest where
  sessionKey : String
  operation : RelayOperation
  parameters : String
  signature : String
  nonce : Nat
  deriving DecidableEq, Repr

structure RelayExecuteResponse where
  success : Bool
  transactionId : Option String
  errorMessage : Option String
  deriving DecidableEq, Repr

/-- The run of a transfer that a call is made for: the transfer and its `nextRunAt`. -/
abbrev Occurrence : Type := TransferId × Date

def ScheduledTransfer.occurrence (transfer : ScheduledTransfer) : Occurrence :=
  (transfer.id, transfer.nextRunAt)

/-- The awaited calls.  The relay service is told the request and the signed nonce only; the
occurrence says what the call is for. -/
inductive SchedulerCall where
  | listDue (now : Date)
  | tryAcquireProcessing (id : TransferId)
  | releaseProcessing (id : TransferId)
  | listExecutions (id : TransferId)
  | executeRelay (occurrence : Occurrence) (request : RelayExecuteRequest)
      (signedNonce : Option Nat)
  | appendExecution (log : ScheduledTransferExecutionLog)
  | updateAfterExecution (id : TransferId) (patch : ExecutionPatch)
  | mathRandom

inductive Rejection where
  | rejected
  deriving DecidableEq, Repr

@[reducible] def Answer : SchedulerCall → Type
  | .listDue _ => Except Rejection (List ScheduledTransfer)
  | .tryAcquireProcessing _ => Except Rejection Bool
  | .releaseProcessing _ => Except Rejection Unit
  | .listExecutions _ => Except Rejection (List ScheduledTransferExecutionLog)
  | .executeRelay _ _ _ => Except Rejection RelayExecuteResponse
  | .appendExecution _ => Except Rejection Unit
  | .updateAfterExecution _ _ => Except Rejection Unit
  | .mathRandom => Random

/-! ## The service -/

/-- `async` code: what it awaits may reject. -/
abbrev Async (α : Type) : Type := ExceptT Rejection (Program Answer) α

def awaited (request : SchedulerCall) : Program Answer (Answer request) := .call request .done

namespace ScheduledTransferService

def listDue (now : Date) : Async (List ScheduledTransfer) :=
  ExceptT.mk (awaited (.listDue now))

def tryAcquireProcessing (id : TransferId) : Async Bool :=
  ExceptT.mk (awaited (.tryAcquireProcessing id))

def releaseProcessing (id : TransferId) : Async Unit :=
  ExceptT.mk (awaited (.releaseProcessing id))

def listExecutions (id : TransferId) : Async (List ScheduledTransferExecutionLog) :=
  ExceptT.mk (awaited (.listExecutions id))

def executeRelay (occurrence : Occurrence) (request : RelayExecuteRequest)
    (signedNonce : Option Nat) : Async RelayExecuteResponse :=
  ExceptT.mk (awaited (.executeRelay occurrence request signedNonce))

def appendExecution (log : ScheduledTransferExecutionLog) : Async Unit :=
  ExceptT.mk (awaited (.appendExecution log))

def updateAfterExecution (id : TransferId) (patch : ExecutionPatch) : Async Unit :=
  ExceptT.mk (awaited (.updateAfterExecution id patch))

def mathRandom : Async Random := ExceptT.lift (awaited .mathRandom)

def maxConsecutiveFailures : Nat := 5

/-- After a failed response.  The notifications of the source cannot reject and change no
transfer. -/
def recordFailure (transfer : ScheduledTransfer) (now : Date) : Async Unit :=
  let consecutiveFailures := transfer.consecutiveFailures + 1
  if transfer.frequency = .once then
    updateAfterExecution transfer.id
      { status := .completed
        nextRunAt := transfer.nextRunAt
        lastExecutionAt := some now
        consecutiveFailures := consecutiveFailures }
  else if maxConsecutiveFailures ≤ consecutiveFailures then
    updateAfterExecution transfer.id
      { status := .failed
        nextRunAt := transfer.nextRunAt
        lastExecutionAt := some now
        consecutiveFailures := consecutiveFailures }
  else do
    let random ← mathRandom
    updateAfterExecution transfer.id
      { status := .active
        nextRunAt := nextRetryAfter (consecutiveFailures - 1) now random
        lastExecutionAt := some now
        consecutiveFailures := consecutiveFailures }

/-- After a successful response. -/
def recordSuccess (transfer : ScheduledTransfer) (now : Date) : Async Unit :=
  match computeNextRunAt now transfer.frequency transfer.endAt with
  | some nextRunAt =>
    updateAfterExecution transfer.id
      { status := .active
        nextRunAt := nextRunAt
        lastExecutionAt := some now
        consecutiveFailures := 0 }
  | none =>
    updateAfterExecution transfer.id
      { status := .completed
        nextRunAt := transfer.nextRunAt
        lastExecutionAt := some now
        consecutiveFailures := 0 }

def executeTransfer (transfer : ScheduledTransfer) (now : Date) : Async Unit := do
  let approvedNonce := transfer.relayPayload.nonce
  let priorExecutions ← listExecutions transfer.id
  let nonce := approvedNonce + priorExecutions.length
  let response ← executeRelay transfer.occurrence
    { sessionKey := transfer.relayPayload.sessionKey
      operation := transfer.relayPayload.operation
      parameters := transfer.relayPayload.parameters
      signature := transfer.relayPayload.signature
      nonce := nonce }
    (if nonce = approvedNonce then none else some approvedNonce)
  appendExecution
    { scheduledTransferId := transfer.id
      executedAt := now
      outcome := if response.success then .success else .failed
      transactionId := response.transactionId
      error := response.errorMessage }
  if response.success then recordSuccess transfer now else recordFailure transfer now

/-- The loop over the transfers listed as due; `processed` counts those executed. -/
def processEach (now : Date) : List ScheduledTransfer → Nat → Async Nat
  | [], processed => pure processed
  | transfer :: due, processed =>
    if isDue transfer.nextRunAt now then do
      let acquired ← tryAcquireProcessing transfer.id
      if acquired then do
        -- `try .. catch .. finally`: a rejection is logged and the lease released.
        let executed ← ExceptT.lift (executeTransfer transfer now).run
        releaseProcessing transfer.id
        processEach now due (if executed.isOk then processed + 1 else processed)
      else processEach now due processed
    else processEach now due processed

def processDueTransfers (now : Date) : Async Nat := do
  let due ← listDue now
  processEach now due 0

/-- A tick of the scheduler, which swallows the rejection. -/
def tick (now : Date) : Program Answer Unit := do
  let _ ← (processDueTransfers now).run
  pure ()

end ScheduledTransferService

/-! ## Carrying out the calls -/

/-- When a call rejects, against its being carried out. -/
inductive Fault where
  | before
  | after
  deriving DecidableEq, Repr

/-- What the store does not decide of a call. -/
structure Circumstance where
  /-- `Date.now()` of the worker. -/
  dateNow : Date
  /-- `NOW()` of the database. -/
  databaseNow : Date
  fault : Option Fault
  response : RelayExecuteResponse
  random : Random

/-- A call that is carried out unless a fault comes before it. -/
def answered {α : Type} (fault : Option Fault) (store : AnyScheduledTransferStore)
    (carriedOut : α × AnyScheduledTransferStore) :
    Except Rejection α × AnyScheduledTransferStore :=
  match fault with
  | none => (.ok carriedOut.1, carriedOut.2)
  | some .before => (.error .rejected, store)
  | some .after => (.error .rejected, carriedOut.2)

/-- A call that answers was carried out. -/
theorem carriedOut_of_ok {α : Type} {fault : Option Fault} {store : AnyScheduledTransferStore}
    {carriedOut : α × AnyScheduledTransferStore} {value : α}
    (ok : (answered fault store carriedOut).1 = .ok value) :
    carriedOut.1 = value ∧ (answered fault store carriedOut).2 = carriedOut.2 := by
  cases fault with
  | none => exact ⟨Except.ok.inj ok, rfl⟩
  | some fault => cases fault <;> cases ok

/-- Whether it answers or not, a call is carried out or it is not. -/
theorem answered_cases {α : Type} (fault : Option Fault) (store : AnyScheduledTransferStore)
    (carriedOut : α × AnyScheduledTransferStore) :
    (answered fault store carriedOut).2 = store ∨
      (answered fault store carriedOut).2 = carriedOut.2 := by
  cases fault with
  | none => exact .inr rfl
  | some fault =>
    cases fault with
    | before => exact .inl rfl
    | after => exact .inr rfl

variable {Worker : Type} (workerIdOf : Worker → WorkerId)

/-- `workerIdOf` gives the store instance of a worker; several workers may share one. -/
def perform (worker : Worker) (request : SchedulerCall) (circumstance : Circumstance)
    (store : AnyScheduledTransferStore) : Answer request × AnyScheduledTransferStore :=
  match request with
  | .listDue now => answered circumstance.fault store
      (store.listDue now circumstance.databaseNow, store)
  | .tryAcquireProcessing id => answered circumstance.fault store
      (store.tryAcquireProcessing id (workerIdOf worker) circumstance.dateNow
        circumstance.databaseNow)
  | .releaseProcessing id => answered circumstance.fault store
      ((), store.releaseProcessing id (workerIdOf worker))
  | .listExecutions id => answered circumstance.fault store (store.listExecutions id, store)
  | .executeRelay _ _ _ => answered circumstance.fault store (circumstance.response, store)
  | .appendExecution log => answered circumstance.fault store ((), store.appendExecution log)
  | .updateAfterExecution id patch =>
    match store.updateAfterExecution id patch with
    | some next => answered circumstance.fault store ((), next)
    | none => (.error .rejected, store)
  | .mathRandom => (circumstance.random, store)

/-- A call made by a worker, and the calls of all workers so far. -/
abbrev SchedulerExchange (Worker : Type) : Type :=
  Exchange Worker Circumstance AnyScheduledTransferStore Answer

abbrev SchedulerWorld (Worker : Type) : Type :=
  World Worker Circumstance AnyScheduledTransferStore Answer

/-- The occurrence a call pays. -/
def paidBy (exchange : SchedulerExchange Worker) : Option Occurrence :=
  match exchange.request with
  | .executeRelay occurrence _ _ => some occurrence
  | _ => none

/-- The occurrences `executeRelay` was called for, the latest first. -/
def relayed (exchanges : List (SchedulerExchange Worker)) : List Occurrence :=
  exchanges.filterMap paidBy

/-- Workers running `processDueTransfers` over one store, turn by turn. -/
def schedulerRun [DecidableEq Worker] (store : AnyScheduledTransferStore)
    (turns : List (Turn Worker Date Circumstance)) :
    System Worker Circumstance AnyScheduledTransferStore Answer :=
  interleaved (perform workerIdOf) ScheduledTransferService.tick store turns

/-! ### A sample -/

/-- A daily transfer that is due. -/
def dailyTransfer : ScheduledTransfer where
  id := 7
  callerId := "caller-a"
  frequency := .daily
  status := .active
  nextRunAt := 0
  endAt := none
  relayPayload := ⟨"session", .relayExecute, "\x7b\x7d", "signature", 1⟩
  consecutiveFailures := 0
  lastExecutionAt := none

def dailyStore : AnyScheduledTransferStore :=
  .postgres { transfers := ⟨[dailyTransfer], by decide⟩, executions := [], leases := [] }

theorem nodup_dailyTransfer : ([dailyTransfer].map ScheduledTransfer.id).Nodup := by decide

/-- Some value of `Math.random()`, where it plays no part. -/
def ScheduledTransferService.noRandom : Random := ⟨0, le_rfl, zero_lt_one⟩

/-- A call at the epoch that succeeds. -/
def smoothly : Circumstance where
  dateNow := 0
  databaseNow := 0
  fault := none
  response := ⟨true, some "transaction", none⟩
  random := ScheduledTransferService.noRandom

/-- A call at the epoch to a relay service that answers with a failure. -/
def failing : Circumstance := { smoothly with response := ⟨false, none, some "refused"⟩ }

def resumed (worker calls : Nat) : List (Turn Nat Date Circumstance) :=
  List.replicate calls (.resume worker smoothly)

/-- A tick of a worker that is alone. -/
def ticked (now : Date) (calls : List Circumstance) : List (Turn Unit Date Circumstance) :=
  .start () now :: calls.map (.resume ())

end Ancore.Relayer
