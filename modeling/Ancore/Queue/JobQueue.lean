import Ancore.Library.KeyedTable
import Ancore.Queue.QueueWorker

/-! # The queue in memory

Each method is one uninterrupted call. -/

namespace Ancore.Queue

open Ancore.Library

/-- The jobs by their ids, in the order they were enqueued, and the id of the job last enqueued
under each key. -/
structure JobQueue where
  jobs : List Job
  distinct : (jobs.map Job.id).Nodup
  idempotencyIndex : List (String × String)

inductive Method where
  | enqueue (options : EnqueueOptions)
  | dequeue
  | ack (id : String)
  | nack (id message : String)
  | getById (id : String)
  deriving DecidableEq

@[reducible] def Method.Value : Method → Type
  | .enqueue _ => Job
  | .dequeue => Option Job
  | .ack _ => Unit
  | .nack _ _ => Unit
  | .getById _ => Option Job

namespace JobQueue

def empty : JobQueue where
  jobs := []
  distinct := List.nodup_nil
  idempotencyIndex := []

def getById (queue : JobQueue) (id : String) : Option Job := rowOf Job.id queue.jobs id

def update (queue : JobQueue) (id : String) (patch : Job → Job)
    (keepsId : ∀ job, (patch job).id = job.id) : JobQueue where
  jobs := modifyRow Job.id queue.jobs id patch
  distinct := (map_key_modifyRow fun job same => (keepsId job).trans same).symm ▸ queue.distinct
  idempotencyIndex := queue.idempotencyIndex

/-- The job under the key that is not in a terminal state. -/
def existing (queue : JobQueue) (idempotencyKey : String) : Option Job :=
  ((queue.idempotencyIndex.lookup idempotencyKey).bind queue.getById).filter
    fun job => !job.status.isTerminal

def enqueue (queue : JobQueue) (options : EnqueueOptions) (randomUUID : String) (now : Millis) :
    Job × JobQueue :=
  match queue.existing options.idempotencyKey with
  | some existing => (existing, queue)
  | none =>
    let requestId := options.requestId.filter fun requestId => requestId ≠ ""
    let job := options.job randomUUID requestId now
    (job, {
      jobs := putRow Job.id queue.jobs job
      distinct := nodup_putRow queue.distinct
      idempotencyIndex := upsert queue.idempotencyIndex options.idempotencyKey job.id })

def isEligible (now : Millis) (job : Job) : Bool := job.status = .pending && job.isDue now

def dequeue (queue : JobQueue) (now : Millis) : Option Job × JobQueue :=
  match earliest (queue.jobs.filter (isEligible now)) with
  | none => (none, queue)
  | some candidate =>
    (some (candidate.taken now),
      queue.update candidate.id (fun job => job.taken now) fun job => job.id_taken now)

def ack (queue : JobQueue) (id : String) (now : Millis) : JobQueue :=
  queue.update id (fun job => job.acked now) fun job => job.id_acked now

def nack (queue : JobQueue) (id message : String) (random : RandomDraw) (now : Millis) :
    JobQueue :=
  match queue.getById id with
  | none => queue
  | some job =>
    let attempts := job.attempts + 1
    if attempts ≥ job.maxAttempts then
      queue.update id (fun job => job.buried now attempts message)
        fun job => job.id_buried now attempts message
    else
      let retryAfter := nextRetryAfter attempts random now
      queue.update id (fun job => job.retried now attempts message retryAfter)
        fun job => job.id_retried now attempts message retryAfter

/-- No method rejects. -/
def carryOut (method : Method) (circumstance : Circumstance) (queue : JobQueue) :
    Except String method.Value × JobQueue :=
  match method with
  | .enqueue options =>
    (queue.enqueue options circumstance.randomUUID circumstance.dateNow).map .ok id
  | .dequeue => (queue.dequeue circumstance.dateNow).map .ok id
  | .ack id => (.ok (), queue.ack id circumstance.dateNow)
  | .nack id message => (.ok (), queue.nack id message circumstance.random circumstance.dateNow)
  | .getById id => (.ok (queue.getById id), queue)

def contract : JobQueueContract Method.Value where
  enqueue options := asked (Method.enqueue options)
  dequeue := asked Method.dequeue
  ack id := asked (Method.ack id)
  nack id message := asked (Method.nack id message)
  getById id := asked (Method.getById id)

/-! ## The methods -/

variable {queue : JobQueue} {id other : String} {now : Millis}

theorem getById_update (patch : Job → Job) (keepsId : ∀ job, (patch job).id = job.id) :
    (queue.update id patch keepsId).getById other =
      if other = id then (queue.getById id).map patch else queue.getById other :=
  rowOf_modifyRow fun job same => (keepsId job).trans same

/-- Nothing is enqueued, or a job that is pending under the id that was drawn. -/
theorem getById_enqueue (queue : JobQueue) (options : EnqueueOptions) (randomUUID : String)
    (now : Millis) :
    (queue.enqueue options randomUUID now).2 = queue ∨
      ∃ requestId, ∀ id, (queue.enqueue options randomUUID now).2.getById id =
        if id = randomUUID then some (options.job randomUUID requestId now)
        else queue.getById id := by
  unfold enqueue
  split
  · exact .inl rfl
  · exact .inr ⟨_, fun id => rowOf_putRow⟩

/-- What is dequeued was pending and due, and is processing from then on. -/
theorem dequeue_cases (queue : JobQueue) (now : Millis) :
    queue.dequeue now = (none, queue) ∨
      ∃ job, queue.getById job.id = some job ∧ isEligible now job = true ∧
        (queue.dequeue now).1 = some (job.taken now) ∧
          ∀ other, (queue.dequeue now).2.getById other =
            if other = job.id then some (job.taken now) else queue.getById other := by
  unfold dequeue
  split
  · exact .inl rfl
  · rename_i candidate isEarliest
    obtain ⟨member, eligible⟩ := List.mem_filter.mp (mem_of_earliest isEarliest)
    have isThere : queue.getById candidate.id = some candidate :=
      (rowOf_eq_some_iff queue.distinct).mpr ⟨member, rfl⟩
    refine .inr ⟨candidate, isThere, eligible, rfl, fun other => ?_⟩
    rw [getById_update, isThere, Option.map_some]

theorem getById_ack :
    (queue.ack id now).getById other =
      if other = id then (queue.getById id).map fun job => job.acked now
      else queue.getById other :=
  getById_update _ _

/-- What is given back is dead when its attempts are used up, and else pending again. -/
theorem nack_cases (queue : JobQueue) (id message : String) (random : RandomDraw)
    (now : Millis) :
    queue.getById id = none ∧ queue.nack id message random now = queue ∨
      ∃ job job', queue.getById id = some job ∧
        (job' = job.buried now (job.attempts + 1) message ∨
          job.attempts + 1 < job.maxAttempts ∧
            ∃ retryAfter, job' = job.retried now (job.attempts + 1) message retryAfter) ∧
          ∀ other, (queue.nack id message random now).getById other =
            if other = id then some job' else queue.getById other := by
  unfold nack
  cases isThere : queue.getById id with
  | none => exact .inl ⟨rfl, rfl⟩
  | some job =>
    dsimp only
    split
    · refine .inr ⟨job, _, rfl, .inl rfl, fun other => ?_⟩
      rw [getById_update, isThere, Option.map_some]
    · rename_i left
      refine .inr ⟨job, _, rfl, .inr ⟨Nat.lt_of_not_ge left,
        nextRetryAfter (job.attempts + 1) random now, rfl⟩, fun other => ?_⟩
      rw [getById_update, isThere, Option.map_some]

end JobQueue

/-! ## Workers on one queue -/

abbrev MethodExchange (Worker : Type) : Type :=
  Exchange Worker Circumstance JobQueue (Answer Method.Value)

abbrev MethodWorld (Worker : Type) : Type :=
  World Worker Circumstance JobQueue (Answer Method.Value)

/-- Tasks carried out side by side on one queue, turn by turn. -/
def jobQueueRun {Worker : Type} [DecidableEq Worker] (handlers : HandlerRegistry)
    (queue : JobQueue) (turns : List (Turn Worker QueueTask Circumstance)) :
    System Worker Circumstance JobQueue (Answer Method.Value) :=
  interleaved (performWith JobQueue.carryOut) (work JobQueue.contract handlers) queue turns

end Ancore.Queue
