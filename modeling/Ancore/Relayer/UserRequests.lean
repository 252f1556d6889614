import Ancore.Relayer.Records

/-! # The requests of users

`pause` and `cancel` read a record and then write its status, while workers
execute transfers over the same store. -/

namespace Ancore.Relayer

open Ancore.Library

inductive UserCall where
  | getByIdForCaller (id : TransferId) (callerId : String)
  | updateStatus (id : TransferId) (status : ScheduledTransferStatus)

@[reducible] def UserAnswer : UserCall → Type
  | .getByIdForCaller _ _ => Except Rejection (Option ScheduledTransfer)
  | .updateStatus _ _ => Except Rejection (Option ScheduledTransfer)

/-- The calls of the service: those of the scheduler and those of the users. -/
abbrev ServiceCall : Type := SchedulerCall ⊕ UserCall

abbrev ServiceAnswer : ServiceCall → Type := Sum.elim Answer UserAnswer

namespace ScheduledTransferService

def getByIdForCaller (id : TransferId) (callerId : String) :
    ExceptT Rejection (Program ServiceAnswer) (Option ScheduledTransfer) :=
  ExceptT.mk (.call (.inr (.getByIdForCaller id callerId)) .done)

def updateStatus (id : TransferId) (status : ScheduledTransferStatus) :
    ExceptT Rejection (Program ServiceAnswer) (Option ScheduledTransfer) :=
  ExceptT.mk (.call (.inr (.updateStatus id status)) .done)

def pause (id : TransferId) (callerId : String) :
    ExceptT Rejection (Program ServiceAnswer) (Option ScheduledTransfer) := do
  match ← getByIdForCaller id callerId with
  | none => pure none
  | some transfer =>
    if transfer.status ≠ .active then pure none else updateStatus id .paused

def cancel (id : TransferId) (callerId : String) :
    ExceptT Rejection (Program ServiceAnswer) (Option ScheduledTransfer) := do
  match ← getByIdForCaller id callerId with
  | none => pure none
  | some transfer =>
    if transfer.status = .cancelled ∨ transfer.status = .completed ∨ transfer.status = .failed then
      pure none
    else updateStatus id .cancelled

end ScheduledTransferService

/-- What a worker of the service is given to do. -/
inductive ServiceTask where
  | tick (now : Date)
  | pause (id : TransferId) (callerId : String)
  | cancel (id : TransferId) (callerId : String)

/-- The answer to the user plays no further part. -/
def serviceProgram : ServiceTask → Program ServiceAnswer Unit
  | .tick now => (ScheduledTransferService.tick now).left
  | .pause id callerId => do
    let _ ← (ScheduledTransferService.pause id callerId).run
    pure ()
  | .cancel id callerId => do
    let _ ← (ScheduledTransferService.cancel id callerId).run
    pure ()

variable {Worker : Type} (workerIdOf : Worker → WorkerId)

def servicePerform (worker : Worker) (request : ServiceCall) (circumstance : Circumstance)
    (store : AnyScheduledTransferStore) : ServiceAnswer request × AnyScheduledTransferStore :=
  match request with
  | .inl request => perform workerIdOf worker request circumstance store
  | .inr (.getByIdForCaller id callerId) =>
    answered circumstance.fault store (store.getByIdForCaller id callerId, store)
  | .inr (.updateStatus id status) =>
    match store.updateStatus id status with
    | some carriedOut => answered circumstance.fault store carriedOut
    | none => (.error .rejected, store)

abbrev ServiceExchange (Worker : Type) : Type :=
  Exchange Worker Circumstance AnyScheduledTransferStore ServiceAnswer

abbrev ServiceWorld (Worker : Type) : Type :=
  World Worker Circumstance AnyScheduledTransferStore ServiceAnswer

/-- Workers that run ticks and serve users over one store, turn by turn. -/
def serviceRun [DecidableEq Worker] (store : AnyScheduledTransferStore)
    (turns : List (Turn Worker ServiceTask Circumstance)) :
    System Worker Circumstance AnyScheduledTransferStore ServiceAnswer :=
  interleaved (servicePerform workerIdOf) serviceProgram store turns

/-! ## The outline of the service -/

/-- A worker that serves a user has no transfer in hand; users pause and cancel only. -/
def ServiceNext : Outline Stage ServiceAnswer
  | stage, .inl request, answer, onward => Stage.Next stage request answer onward
  | stage, .inr (.getByIdForCaller _ _), _, onward => stage.Rests ∧ onward = stage
  | stage, .inr (.updateStatus _ status), _, onward =>
    stage.Rests ∧ onward = stage ∧ (status = .paused ∨ status = .cancelled)

theorem userRequest_follows {id : TransferId} {callerId : String}
    {serve : Option ScheduledTransfer →
      ExceptT Rejection (Program ServiceAnswer) (Option ScheduledTransfer)}
    {stage : Stage} (rests : stage.Rests)
    (serves : ∀ found, serve found = pure none ∨ ∃ status,
      (status = .paused ∨ status = .cancelled) ∧
        serve found = ScheduledTransferService.updateStatus id status) :
    (do
      let _ ← (ScheduledTransferService.getByIdForCaller id callerId >>= serve).run
      pure () : Program ServiceAnswer Unit).Follows ServiceNext (fun _ => Stage.Rests) stage := by
  intro answer
  refine ⟨stage, ⟨rests, rfl⟩, ?_⟩
  cases answer with
  | error _ => exact rests
  | ok found =>
    change Program.Follows _ _ (Program.bind (serve found).run _) _
    obtain nothing | ⟨status, allowed, writes⟩ := serves found
    · rw [nothing]
      exact rests
    · rw [writes]
      intro written
      exact ⟨stage, ⟨rests, rfl, allowed⟩, rests⟩

theorem service_follows (task : ServiceTask) (stage : Stage) (rests : stage.Rests) :
    (serviceProgram task).Follows ServiceNext (fun _ => Stage.Rests) stage := by
  cases task with
  | tick now =>
    refine (ScheduledTransferService.tick_follows now stage rests).left.outline_mono ?_
    intro stage request answer onward made
    cases request with
    | inl request => exact made
    | inr _ => exact made.elim
  | pause id callerId =>
    refine userRequest_follows rests fun found => ?_
    cases found with
    | none => exact .inl rfl
    | some transfer =>
      dsimp only
      split
      · exact .inl rfl
      · exact .inr ⟨.paused, .inl rfl, rfl⟩
  | cancel id callerId =>
    refine userRequest_follows rests fun found => ?_
    cases found with
    | none => exact .inl rfl
    | some transfer =>
      dsimp only
      split
      · exact .inl rfl
      · exact .inr ⟨.cancelled, .inr rfl, rfl⟩

end Ancore.Relayer
