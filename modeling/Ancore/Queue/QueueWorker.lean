import Ancore.Library.Outline
import Ancore.Queue.Jobs

/-! # The queue worker

A worker polls a queue for a job, hands it to the handler of its type and reports
back to the queue.  It knows the queue by its contract only.  A worker that crashes
takes no further turn. -/

namespace Ancore.Queue

open Ancore.Library

/-- The calls: the handlers', and the requests to a queue. -/
inductive Call (Request : Type) where
  | handle (job : Job)
  | ask (request : Request)
  deriving DecidableEq

variable {Request : Type}

/-- Any call may reject, with the message of an error. -/
@[reducible] def Answer (Value : Request → Type) : Call Request → Type
  | .handle _ => Except String Unit
  | .ask request => Except String (Value request)

/-- `async` code. -/
abbrev Async (Value : Request → Type) (α : Type) : Type := ExceptT String (Program (Answer Value)) α

variable {Value : Request → Type}

def handled (job : Job) : Async Value Unit := ExceptT.mk (.call (.handle job) .done)

def asked (request : Request) : Async Value (Value request) :=
  ExceptT.mk (.call (.ask request) .done)

/-- What a worker and those who enqueue need of a queue. -/
structure JobQueueContract (Value : Request → Type) where
  enqueue : EnqueueOptions → Async Value Job
  dequeue : Async Value (Option Job)
  ack : (id : String) → Async Value Unit
  nack : (id message : String) → Async Value Unit
  getById : (id : String) → Async Value (Option Job)

/-- The types of jobs that have a handler. -/
abbrev HandlerRegistry : Type := JobType → Bool

def noHandler (type : JobType) : String :=
  "No handler registered for job type \"" ++ type.text ++ "\""

namespace QueueWorker

variable (queue : JobQueueContract Value) (handlers : HandlerRegistry)

/-- The job is handled and acknowledged. -/
def settle (job : Job) : Async Value Unit :=
  if !handlers job.type then throw (noHandler job.type)
  else do
    handled job
    queue.ack job.id

/-- `finish`; whatever it rejects with stays unhandled. -/
def finish (job : Job) : Async Value Unit := do
  match ← ExceptT.lift (settle queue handlers job).run with
  | .ok () => pure ()
  | .error message => do
    queue.nack job.id message
    let _updated ← queue.getById job.id
    pure ()

/-- One job is polled. -/
def poll : Async Value Unit := do
  match ← queue.dequeue with
  | none => pure ()
  | some job => finish queue handlers job

end QueueWorker

/-- What is done on a queue: somebody enqueues, or a worker polls. -/
inductive QueueTask where
  | enqueue (options : EnqueueOptions)
  | poll

/-- A task from its start to its end. -/
def work (queue : JobQueueContract Value) (handlers : HandlerRegistry) (task : QueueTask) :
    Program (Answer Value) Unit :=
  match task with
  | .enqueue options => do
    let _ ← (queue.enqueue options).run
    pure ()
  | .poll => do
    let _ ← (QueueWorker.poll queue handlers).run
    pure ()

/-! ## Carrying out the calls -/

/-- When a statement of the database fails, against its being carried out, and with what message. -/
inductive Fault where
  | before (message : String)
  | after (message : String)

/-- What the queue does not decide of a call. -/
structure Circumstance where
  /-- The clock of the process. -/
  dateNow : Millis
  /-- `NOW()` of the database. -/
  databaseNow : Millis
  randomUUID : String
  random : RandomDraw
  /-- The rows that are locked by other statements. -/
  locked : List String
  fault : Option Fault
  handled : Except String Unit

/-- A call to a handler leaves the queue. -/
def performWith {State Worker : Type}
    (carryOut : (request : Request) → Circumstance → State →
      Except String (Value request) × State)
    (_worker : Worker) (call : Call Request) (circumstance : Circumstance) (state : State) :
    Answer Value call × State :=
  match call with
  | .handle _ => (circumstance.handled, state)
  | .ask request => carryOut request circumstance state

end Ancore.Queue
