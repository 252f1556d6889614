import Ancore.Queue.JobQueue
import Ancore.Queue.PgJobQueue

/-! # The stages of a worker

What a worker can do of a queue, said once for each queue; and that a worker follows
it because the methods of the queue do. -/

namespace Ancore.Queue

open Ancore.Library

/-- Where a worker stands with a job. -/
inductive Stage where
  | idle
  | holding (id : String)
  | nacking (id : String) (currentAttempts maxAttempts : Nat)

/-- No job is in hand. -/
def Stage.Rests (stage : Stage) : Prop := stage = .idle

/-! ## Workers -/

section Workers

variable {Request : Type} {Value : Request → Type} {next : Outline Stage (Answer Value)}
  {queue : JobQueueContract Value}

/-- What the methods of a queue do, from one stage to another. -/
structure ContractFollows (next : Outline Stage (Answer Value)) (queue : JobQueueContract Value) :
    Prop where
  enqueue : ∀ options, Tracks next (fun _ => Stage.Rests) Stage.Rests (queue.enqueue options) .idle
  dequeue : Tracks next
    (fun found stage => stage = found.elim .idle fun job => .holding job.id) Stage.Rests
    queue.dequeue .idle
  handle : ∀ job answer, next (.holding job.id) (.handle job) answer (.holding job.id)
  ack : ∀ id, Tracks next (fun _ => Stage.Rests) (· = .holding id) (queue.ack id) (.holding id)
  nack : ∀ id message, Tracks next (fun _ => Stage.Rests) Stage.Rests (queue.nack id message)
    (.holding id)
  getById : ∀ id, Tracks next (fun _ => Stage.Rests) Stage.Rests (queue.getById id) .idle

variable {handlers : HandlerRegistry} {job : Job}

/-- A request after which no job is in hand. -/
theorem asked_tracks {request : Request} {stage : Stage}
    (made : ∀ answer, next stage (.ask request) answer .idle) :
    Tracks next (fun _ => Stage.Rests) Stage.Rests (asked request) stage := by
  intro answer
  refine ⟨.idle, made answer, ?_⟩
  cases answer with
  | ok _ => exact rfl
  | error _ => exact rfl

theorem settle_tracks (follows : ContractFollows next queue) :
    Tracks next (fun _ => Stage.Rests) (· = .holding job.id)
      (QueueWorker.settle queue handlers job) (.holding job.id) := by
  unfold QueueWorker.settle
  split
  · exact rfl
  · have handling : Tracks next (fun _ => (· = .holding job.id)) (· = .holding job.id)
        (handled job : Async Value Unit) (.holding job.id) := by
      intro answer
      refine ⟨_, follows.handle job answer, ?_⟩
      cases answer with
      | ok _ => exact rfl
      | error _ => exact rfl
    refine Tracks.bind handling ?_
    rintro _ _ rfl
    exact follows.ack job.id

theorem finish_tracks (follows : ContractFollows next queue) :
    Tracks next (fun _ => Stage.Rests) Stage.Rests (QueueWorker.finish queue handlers job)
      (.holding job.id) := by
  refine Program.Follows.bind (Program.Follows.bind (Program.Follows.mono (settle_tracks follows)
    fun result stage ended => ?_))
  cases result with
  | ok _ => exact ended
  | error message =>
    rw [show stage = .holding job.id from ended]
    refine Tracks.bind (follows.nack job.id message) fun _ stage rests => ?_
    rw [show stage = .idle from rests]
    exact Tracks.bind (follows.getById job.id) fun _ _ rests => rests

theorem poll_tracks (follows : ContractFollows next queue) :
    Tracks next (fun _ => Stage.Rests) Stage.Rests (QueueWorker.poll queue handlers) .idle := by
  refine Tracks.bind follows.dequeue ?_
  rintro found _ rfl
  cases found with
  | none => exact rfl
  | some job => exact finish_tracks follows

theorem work_follows (follows : ContractFollows next queue) (task : QueueTask) (stage : Stage)
    (rests : stage.Rests) :
    (work queue handlers task).Follows next (fun _ => Stage.Rests) stage := by
  rw [show stage = .idle from rests]
  have ended {α : Type} {code : Async Value α}
      (tracks : Tracks next (fun _ => Stage.Rests) Stage.Rests code .idle) :
      (code.run >>= fun _ => pure ()).Follows next (fun _ => Stage.Rests) .idle := by
    refine Program.Follows.bind (Program.Follows.mono tracks fun result _ rests => ?_)
    cases result with
    | ok _ => exact rests
    | error _ => exact rests
  cases task with
  | enqueue options => exact ended (follows.enqueue options)
  | poll => exact ended (poll_tracks follows)

end Workers

/-! ## The queue in memory -/

/-- From a stage, the calls and where they lead. -/
inductive JobQueue.Next : Outline Stage (Answer Method.Value)
  | enqueued {options answer} : Next .idle (.ask (.enqueue options)) answer .idle
  | dequeued {job} : Next .idle (.ask .dequeue) (.ok (some job)) (.holding job.id)
  | nothing : Next .idle (.ask .dequeue) (.ok none) .idle
  | undequeued {message} : Next .idle (.ask .dequeue) (.error message) .idle
  | handled {id job answer} : Next (.holding id) (.handle job) answer (.holding id)
  | acked {id} : Next (.holding id) (.ask (.ack id)) (.ok ()) .idle
  | unacked {id message} : Next (.holding id) (.ask (.ack id)) (.error message) (.holding id)
  | nacked {id message answer} : Next (.holding id) (.ask (.nack id message)) answer .idle
  | read {id answer} : Next .idle (.ask (.getById id)) answer .idle

theorem JobQueue.contract_follows : ContractFollows JobQueue.Next JobQueue.contract where
  enqueue options := asked_tracks fun _ => .enqueued
  dequeue answer := by
    match answer with
    | .ok none => exact ⟨.idle, .nothing, rfl⟩
    | .ok (some job) => exact ⟨.holding job.id, .dequeued, rfl⟩
    | .error message => exact ⟨.idle, .undequeued, rfl⟩
  handle job answer := .handled
  ack id answer := by
    cases answer with
    | ok _ => exact ⟨.idle, .acked, rfl⟩
    | error message => exact ⟨.holding id, .unacked, rfl⟩
  nack id message := asked_tracks fun _ => .nacked
  getById id := asked_tracks fun _ => .read

/-! ## The queue in Postgres -/

/-- From a stage, the calls and where they lead. -/
inductive PgJobQueue.Next : Outline Stage (Answer Statement.Value)
  | searched {idempotencyKey answer} : Next .idle (.ask (.selectActive idempotencyKey)) answer .idle
  | inserted {options answer} : Next .idle (.ask (.insertJob options)) answer .idle
  | dequeued {job} : Next .idle (.ask .dequeue) (.ok (some job)) (.holding job.id)
  | nothing : Next .idle (.ask .dequeue) (.ok none) .idle
  | undequeued {message} : Next .idle (.ask .dequeue) (.error message) .idle
  | handled {id job answer} : Next (.holding id) (.handle job) answer (.holding id)
  | acked {id} : Next (.holding id) (.ask (.ack id)) (.ok ()) .idle
  | unacked {id message} : Next (.holding id) (.ask (.ack id)) (.error message) (.holding id)
  | counted {id currentAttempts maxAttempts} :
      Next (.holding id) (.ask (.selectAttempts id)) (.ok (some (currentAttempts, maxAttempts)))
        (.nacking id currentAttempts maxAttempts)
  | missing {id} : Next (.holding id) (.ask (.selectAttempts id)) (.ok none) .idle
  | uncounted {id message} :
      Next (.holding id) (.ask (.selectAttempts id)) (.error message) .idle
  | buried {id currentAttempts maxAttempts message answer}
      (exhausted : currentAttempts + 1 ≥ maxAttempts) :
      Next (.nacking id currentAttempts maxAttempts)
        (.ask (.bury id (currentAttempts + 1) message)) answer .idle
  | retried {id currentAttempts maxAttempts message answer}
      (left : ¬ currentAttempts + 1 ≥ maxAttempts) :
      Next (.nacking id currentAttempts maxAttempts)
        (.ask (.retry id (currentAttempts + 1) message)) answer .idle
  | read {id answer} : Next .idle (.ask (.getById id)) answer .idle

namespace PgJobQueue

theorem enqueueRaced_tracks (options : EnqueueOptions) :
    Tracks Next (fun _ => Stage.Rests) Stage.Rests (enqueueRaced options) .idle := by
  intro answer
  refine ⟨.idle, .searched, ?_⟩
  match answer with
  | .ok none => exact rfl
  | .ok (some job) => exact rfl
  | .error message => exact rfl

theorem enqueue_tracks (options : EnqueueOptions) :
    Tracks Next (fun _ => Stage.Rests) Stage.Rests (enqueue options) .idle := by
  intro answer
  refine ⟨.idle, .searched, ?_⟩
  match answer with
  | .ok (some existing) => exact rfl
  | .error message => exact rfl
  | .ok none =>
    intro inserted
    refine ⟨.idle, .inserted, ?_⟩
    match inserted with
    | .ok (some job) => exact rfl
    | .ok none => exact enqueueRaced_tracks options
    | .error message => exact enqueueRaced_tracks options

theorem nack_tracks (id message : String) :
    Tracks Next (fun _ => Stage.Rests) Stage.Rests (nack id message) (.holding id) := by
  intro answer
  match answer with
  | .ok none => exact ⟨.idle, .missing, rfl⟩
  | .error message => exact ⟨.idle, .uncounted, rfl⟩
  | .ok (some (currentAttempts, maxAttempts)) =>
    refine ⟨_, .counted, ?_⟩
    change Tracks _ _ _ (if currentAttempts + 1 ≥ maxAttempts then _ else _) _
    split
    · exact asked_tracks fun _ => .buried ‹_›
    · exact asked_tracks fun _ => .retried ‹_›

theorem contract_follows : ContractFollows Next contract where
  enqueue := enqueue_tracks
  dequeue answer := by
    match answer with
    | .ok none => exact ⟨.idle, .nothing, rfl⟩
    | .ok (some job) => exact ⟨.holding job.id, .dequeued, rfl⟩
    | .error message => exact ⟨.idle, .undequeued, rfl⟩
  handle job answer := .handled
  ack id answer := by
    cases answer with
    | ok _ => exact ⟨.idle, .acked, rfl⟩
    | error message => exact ⟨.holding id, .unacked, rfl⟩
  nack := nack_tracks
  getById id := asked_tracks fun _ => .read

end PgJobQueue

end Ancore.Queue
