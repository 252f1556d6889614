import Ancore.Library.RecordTable

/-! # Jobs

A job is enqueued under an idempotency key, taken by a worker, and acknowledged
when it is completed or given back for a retry, until its attempts are used up. -/

namespace Ancore.Queue

open Ancore.Library

/-- Milliseconds since the epoch. -/
abbrev Millis : Type := Int

inductive JobStatus where
  | pending
  | processing
  | completed
  | failed
  | dead
  deriving DecidableEq, Repr

/-- Neither status is left again. -/
def JobStatus.isTerminal : JobStatus → Bool
  | .completed => true
  | .dead => true
  | _ => false

inductive JobType where
  | relayExecute
  | addSessionKey
  | revokeSessionKey
  deriving DecidableEq, Repr

def JobType.text : JobType → String
  | .relayExecute => "relay_execute"
  | .addSessionKey => "add_session_key"
  | .revokeSessionKey => "revoke_session_key"

structure Job where
  id : String
  idempotencyKey : String
  type : JobType
  /-- The text of the JSON value. -/
  payload : String
  requestId : Option String
  status : JobStatus
  attempts : Nat
  maxAttempts : Nat
  createdAt : Millis
  updatedAt : Millis
  retryAfter : Option Millis
  lastError : Option String
  deriving DecidableEq, Repr

structure EnqueueOptions where
  idempotencyKey : String
  type : JobType
  payload : String
  maxAttempts : Option Nat
  requestId : Option String
  deriving DecidableEq, Repr

def defaultMaxAttempts : Nat := 5

/-- The job that is enqueued. -/
def EnqueueOptions.job (options : EnqueueOptions) (id : String) (requestId : Option String)
    (now : Millis) : Job where
  id := id
  idempotencyKey := options.idempotencyKey
  type := options.type
  payload := options.payload
  requestId := requestId
  status := .pending
  attempts := 0
  maxAttempts := options.maxAttempts.getD defaultMaxAttempts
  createdAt := now
  updatedAt := now
  retryAfter := none
  lastError := none

/-! ## The delay of a retry -/

/-- A number that `Math.random` draws is one of `2 ^ 53` equal steps from zero to one. -/
abbrev RandomDraw : Type := Fin (2 ^ 53)

def computeBackoffMs (attempt baseMs capMs : Nat) (random : RandomDraw) : Nat :=
  let exponential := min capMs (baseMs * 2 ^ attempt)
  random * exponential / 2 ^ 53

/-- With the default base of a second and cap of a minute. -/
def nextRetryAfter (attempt : Nat) (random : RandomDraw) (now : Millis) : Millis :=
  now + computeBackoffMs attempt 1000 60000 random

/-! ## What the queues change of a job -/

namespace Job

variable (job : Job) (now : Millis)

/-- Not before its time for a retry. -/
def isDue : Bool :=
  match job.retryAfter with
  | none => true
  | some retryAfter => retryAfter ≤ now

def taken : Job := { job with status := .processing, updatedAt := now }

def acked : Job := { job with status := .completed, updatedAt := now }

def buried (attempts : Nat) (message : String) : Job :=
  { job with status := .dead, attempts := attempts, lastError := some message, updatedAt := now }

def retried (attempts : Nat) (message : String) (retryAfter : Millis) : Job :=
  { job with
    status := .pending
    attempts := attempts
    lastError := some message
    retryAfter := some retryAfter
    updatedAt := now }

@[simp] theorem id_taken : (job.taken now).id = job.id := rfl

@[simp] theorem id_acked : (job.acked now).id = job.id := rfl

@[simp] theorem id_buried (attempts : Nat) (message : String) :
    (job.buried now attempts message).id = job.id := rfl

@[simp] theorem id_retried (attempts : Nat) (message : String) (retryAfter : Millis) :
    (job.retried now attempts message retryAfter).id = job.id := rfl

end Job

/-- The first of the jobs that were created earliest. -/
def earliest : List Job → Option Job
  | [] => none
  | job :: jobs =>
    match earliest jobs with
    | none => some job
    | some other => if other.createdAt < job.createdAt then some other else some job

theorem mem_of_earliest {jobs : List Job} {job : Job} (found : earliest jobs = some job) :
    job ∈ jobs := by
  induction jobs with
  | nil => cases found
  | cons first jobs inductionHypothesis =>
    unfold earliest at found
    cases isEarliest : earliest jobs with
    | none =>
      rw [isEarliest] at found
      rw [← Option.some.inj found]
      exact List.mem_cons_self
    | some other =>
      simp only [isEarliest] at found
      split at found
      · exact List.mem_cons_of_mem first (inductionHypothesis (isEarliest.trans found))
      · rw [← Option.some.inj found]
        exact List.mem_cons_self

end Ancore.Queue
