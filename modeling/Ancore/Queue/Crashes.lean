import Ancore.Queue.Dispatches
import Ancore.Queue.Terminal

/-! # Jobs whose workers crash

A worker that crashes neither acknowledges its job nor gives it back.  Only what is
given back is counted as an attempt, so a job is dispatched within its attempts where
it is not reclaimed, and is never dead where all of its workers crash. -/

namespace Ancore.Queue

open Ancore.Library

variable {Worker : Type}

/-- A job is pending or in processing, if it is there. -/
def Undecided (found : Option Job) : Prop :=
  ∀ job ∈ found, job.status = .pending ∨ job.status = .processing

theorem undecided_of_changed {found : String → Option Job} {changed : Option Job}
    {id other : String} (undecided : Undecided (found id))
    (decided : id = other → Undecided changed) :
    Undecided (if id = other then changed else found id) := by
  split
  · exact decided ‹_›
  · exact undecided

section Runs

variable {State Request : Type} {Value : Request → Type} {getById : State → String → Option Job}
  {id : String}

/-- From one point to a later one an undecided job stays so. -/
def StaysUndecided (getById : State → String → Option Job) (id : String)
    (before after : World Worker Circumstance State (Answer Value)) : Prop :=
  Undecided (getById before.state id) → Undecided (getById after.state id)

theorem StaysUndecided.refl (world : World Worker Circumstance State (Answer Value)) :
    StaysUndecided getById id world world :=
  fun undecided => undecided

theorem StaysUndecided.trans (first second third : World Worker Circumstance State (Answer Value))
    (early : StaysUndecided getById id first second)
    (late : StaysUndecided getById id second third) : StaysUndecided getById id first third :=
  fun undecided => late (early undecided)

theorem undecided_of_absent {state : State} (absent : getById state id = none) :
    Undecided (getById state id) := by
  intro job found
  rw [absent] at found
  cases found

end Runs

/-! ## In memory -/

namespace JobQueue

/-- The job is acknowledged or given back. -/
def ReportsOn (id : String) (exchange : MethodExchange Worker) : Prop :=
  match exchange.request with
  | .ask (.ack acked) => acked = id
  | .ask (.nack nacked _) => nacked = id
  | _ => False

instance (id : String) (exchange : MethodExchange Worker) : Decidable (ReportsOn id exchange) :=
  match exchange with
  | ⟨_, _, .ask (.ack _), _, _⟩ => inferInstanceAs (Decidable (_ = _))
  | ⟨_, _, .ask (.nack _ _), _, _⟩ => inferInstanceAs (Decidable (_ = _))
  | ⟨_, _, .ask (.enqueue _), _, _⟩ => isFalse fun impossible => impossible
  | ⟨_, _, .ask .dequeue, _, _⟩ => isFalse fun impossible => impossible
  | ⟨_, _, .ask (.getById _), _, _⟩ => isFalse fun impossible => impossible
  | ⟨_, _, .handle _, _, _⟩ => isFalse fun impossible => impossible

/-- A job that has an attempt is not dispatched more often than it has attempts. -/
def WithinAttempts (id : String) (world : MethodWorld Worker) : Prop :=
  ∀ job ∈ world.state.getById id, 1 ≤ job.maxAttempts →
    dispatches id world.exchanges ≤ job.maxAttempts

theorem undecided_after {id : String} (world : MethodWorld Worker) (worker : Worker)
    (call : Call Method) (circumstance : Circumstance)
    (unreported : ¬ ReportsOn id (world.exchange (performWith carryOut) worker call circumstance)) :
    StaysUndecided getById id world
      (world.after (performWith carryOut) worker call circumstance) := by
  intro undecided
  cases call with
  | handle job => exact undecided
  | ask method =>
    cases method with
    | enqueue options =>
      obtain unchanged | ⟨requestId, enqueued⟩ := getById_enqueue world.state options
        circumstance.randomUUID circumstance.dateNow
      · exact (congrArg (fun queue => Undecided (getById queue id)) unchanged).mpr undecided
      · refine (congrArg Undecided (enqueued id)).mpr (undecided_of_changed undecided fun _ => ?_)
        rintro _ ⟨⟩
        exact .inl rfl
    | dequeue =>
      obtain nothing | ⟨job, -, -, -, after⟩ := dequeue_cases world.state circumstance.dateNow
      · refine (congrArg (fun queue => Undecided (getById queue id)) ?_).mpr undecided
        exact congrArg Prod.snd nothing
      · refine (congrArg Undecided (after id)).mpr (undecided_of_changed undecided fun _ => ?_)
        rintro _ ⟨⟩
        exact .inr rfl
    | ack acked =>
      refine (congrArg Undecided getById_ack).mpr (undecided_of_changed undecided fun same => ?_)
      exact absurd same.symm unreported
    | nack nacked message =>
      obtain ⟨-, unchanged⟩ | ⟨_, _, -, -, after⟩ :=
        nack_cases world.state nacked message circumstance.random circumstance.dateNow
      · exact (congrArg (fun queue => Undecided (getById queue id)) unchanged).mpr undecided
      · refine (congrArg Undecided (after id)).mpr (undecided_of_changed undecided fun same => ?_)
        exact absurd same.symm unreported
    | getById asked => exact undecided

/-- A job that is never reported on is not dead. -/
theorem undecided_of_unreported [DecidableEq Worker] (handlers : HandlerRegistry) (queue : JobQueue)
    {id : String}
    (absent : queue.getById id = none) (turns : List (Turn Worker QueueTask Circumstance))
    (unreported : ∀ exchange ∈ (jobQueueRun handlers queue turns).world.exchanges,
      ¬ ReportsOn id exchange) :
    Undecided ((jobQueueRun handlers queue turns).world.state.getById id) := by
  exact related_of_run StaysUndecided.refl StaysUndecided.trans undecided_after queue [] turns
    unreported (undecided_of_absent absent)

end JobQueue

/-! ## In Postgres -/

/-- It writes of the job what a worker reports. -/
def Statement.Reports (statement : Statement) (id : String) : Prop :=
  match statement with
  | .ack acked => acked = id
  | .bury buried _ _ => buried = id
  | .retry retried _ _ => retried = id
  | _ => False

namespace JobTable

/-- The job is acknowledged or given back. -/
def ReportsOn (id : String) (exchange : StatementExchange Worker) : Prop :=
  match exchange.request with
  | .ask statement => statement.Reports id
  | .handle _ => False

instance (id : String) (exchange : StatementExchange Worker) : Decidable (ReportsOn id exchange) :=
  match exchange with
  | ⟨_, _, .ask (.ack _), _, _⟩ => inferInstanceAs (Decidable (_ = _))
  | ⟨_, _, .ask (.bury _ _ _), _, _⟩ => inferInstanceAs (Decidable (_ = _))
  | ⟨_, _, .ask (.retry _ _ _), _, _⟩ => inferInstanceAs (Decidable (_ = _))
  | ⟨_, _, .ask (.selectActive _), _, _⟩ => isFalse fun impossible => impossible
  | ⟨_, _, .ask (.insertJob _), _, _⟩ => isFalse fun impossible => impossible
  | ⟨_, _, .ask .dequeue, _, _⟩ => isFalse fun impossible => impossible
  | ⟨_, _, .ask (.selectAttempts _), _, _⟩ => isFalse fun impossible => impossible
  | ⟨_, _, .ask (.getById _), _, _⟩ => isFalse fun impossible => impossible
  | ⟨_, _, .handle _, _, _⟩ => isFalse fun impossible => impossible

/-- A job that has an attempt is not dispatched more often than it has attempts. -/
def WithinAttempts (id : String) (world : StatementWorld Worker) : Prop :=
  ∀ job ∈ world.state.getById id, 1 ≤ job.maxAttempts →
    dispatches id world.exchanges ≤ job.maxAttempts

instance (id : String) (world : StatementWorld Worker) : Decidable (WithinAttempts id world) :=
  inferInstanceAs (Decidable (∀ _ ∈ _, _))

theorem undecided_of_execute {id : String} {table changed : JobTable} {statement : Statement}
    {circumstance : Circumstance} {value : statement.Value}
    (executed : table.execute statement circumstance = .ok (value, changed))
    (unreported : ¬ statement.Reports id)
    (undecided : Undecided (table.getById id)) : Undecided (changed.getById id) := by
  cases statement with
  | selectActive idempotencyKey =>
    cases executed
    exact undecided
  | insertJob options =>
    obtain rfl | ⟨-, inserted⟩ := insertJob_cases executed
    · exact undecided
    · rw [inserted]
      refine undecided_of_changed undecided fun _ => ?_
      rintro _ ⟨⟩
      exact .inl rfl
  | dequeue =>
    obtain ⟨-, rfl⟩ | ⟨job, -, -, -, after⟩ := dequeue_cases executed
    · exact undecided
    · rw [after]
      refine undecided_of_changed undecided fun _ => ?_
      rintro _ ⟨⟩
      exact .inr rfl
  | ack acked =>
    rw [getById_of_ack executed]
    exact undecided_of_changed undecided fun same => absurd same.symm unreported
  | selectAttempts asked =>
    cases executed
    exact undecided
  | bury buried attempts message =>
    rw [getById_of_bury executed]
    exact undecided_of_changed undecided fun same => absurd same.symm unreported
  | retry retried attempts message =>
    obtain ⟨retryAfter, after⟩ := getById_of_retry executed
    rw [after]
    exact undecided_of_changed undecided fun same => absurd same.symm unreported
  | getById asked =>
    cases executed
    exact undecided

theorem undecided_after {id : String} (world : StatementWorld Worker) (worker : Worker)
    (call : Call Statement) (circumstance : Circumstance)
    (unreported : ¬ ReportsOn id (world.exchange (performWith carryOut) worker call circumstance)) :
    StaysUndecided getById id world
      (world.after (performWith carryOut) worker call circumstance) := by
  intro undecided
  cases call with
  | handle job => exact undecided
  | ask statement =>
    obtain ⟨unchanged, -⟩ | ⟨value, executed, -⟩ :=
      carryOut_cases statement circumstance world.state
    · exact (congrArg (fun table => Undecided (getById table id)) unchanged).mpr undecided
    · exact undecided_of_execute executed unreported undecided

/-- A job that is never reported on is not dead. -/
theorem undecided_of_unreported [DecidableEq Worker] (handlers : HandlerRegistry) (table : JobTable)
    {id : String}
    (absent : table.getById id = none) (turns : List (Turn Worker QueueTask Circumstance))
    (unreported : ∀ exchange ∈ (pgJobQueueRun handlers table turns).world.exchanges,
      ¬ ReportsOn id exchange) :
    Undecided ((pgJobQueueRun handlers table turns).world.state.getById id) :=
  related_of_run StaysUndecided.refl StaysUndecided.trans undecided_after table [] turns
    unreported (undecided_of_absent absent)

end JobTable

/-! ## Either queue -/

theorem Job.allowed_eq {job : Job} (positive : 1 ≤ job.maxAttempts) :
    job.allowed = job.maxAttempts :=
  max_eq_right positive

/-- A job is dispatched within its attempts, in Postgres where it is not reclaimed; and in neither
queue it is dead where all of its workers crash. -/
theorem dispatches_within_attempts [DecidableEq Worker] (handlers : HandlerRegistry) (id : String)
    (turns : List (Turn Worker QueueTask Circumstance)) (queue : JobQueue)
    (unqueued : queue.getById id = none)
    (fresh : ∀ exchange ∈ (jobQueueRun handlers queue turns).world.exchanges,
      JobQueue.DrawsFresh exchange)
    (table : JobTable) (unlisted : table.getById id = none) :
    JobQueue.WithinAttempts id (jobQueueRun handlers queue turns).world ∧
      ((∀ exchange ∈ (pgJobQueueRun handlers table turns).world.exchanges,
          JobTable.NotReclaimed id exchange) →
        JobTable.WithinAttempts id (pgJobQueueRun handlers table turns).world) ∧
      ((∀ exchange ∈ (jobQueueRun handlers queue turns).world.exchanges,
          ¬ JobQueue.ReportsOn id exchange) →
        ∀ job ∈ (jobQueueRun handlers queue turns).world.state.getById id, job.status ≠ .dead) ∧
      ((∀ exchange ∈ (pgJobQueueRun handlers table turns).world.exchanges,
          ¬ JobTable.ReportsOn id exchange) →
        ∀ job ∈ (pgJobQueueRun handlers table turns).world.state.getById id,
          job.status ≠ .dead) := by
  have alive {found : Option Job} (undecided : Undecided found) :
      ∀ job ∈ found, job.status ≠ .dead := by
    intro job isFound dead
    obtain pending | processing := undecided job isFound
    · cases pending.symm.trans dead
    · cases processing.symm.trans dead
  refine ⟨?_, ?_, ?_, ?_⟩
  · intro job found positive
    rw [← Job.allowed_eq positive]
    exact JobQueue.dispatches_le handlers queue unqueued turns fresh found
  · intro notReclaimed job found positive
    rw [← Job.allowed_eq positive]
    exact JobTable.dispatches_le handlers table unlisted turns notReclaimed found
  · exact fun unreported =>
      alive (JobQueue.undecided_of_unreported handlers queue unqueued turns unreported)
  · exact fun unreported =>
      alive (JobTable.undecided_of_unreported handlers table unlisted turns unreported)

/-! ### A job that crashes its workers -/

/-- A job with one attempt is enqueued and dequeued by a worker that crashes. -/
def untilCrash : List (Turn Nat QueueTask Circumstance) :=
  [.start 0 (.enqueue ⟨"key", .relayExecute, "{}", some 1, none⟩), .resume 0 (callAt 0 (.ok ())),
    .resume 0 (callAt 0 (.ok ())), .start 1 .poll, .resume 1 (callAt 0 (.ok ()))]

theorem dispatches_within_attempts_of_sample :
    JobQueue.WithinAttempts "job" (jobQueueRun (fun _ => true) .empty untilCrash).world ∧
      JobTable.WithinAttempts "job" (pgJobQueueRun (fun _ => true) .empty untilCrash).world ∧
      (∀ job ∈ (jobQueueRun (fun _ => true) .empty untilCrash).world.state.getById "job",
        job.status ≠ .dead) ∧
      ∀ job ∈ (pgJobQueueRun (fun _ => true) .empty untilCrash).world.state.getById "job",
        job.status ≠ .dead := by
  obtain ⟨memory, postgres, crashed, crashed'⟩ := dispatches_within_attempts (fun _ => true) "job"
    untilCrash .empty rfl (by decide) .empty rfl
  exact ⟨memory, postgres (by decide), crashed (by decide), crashed' (by decide)⟩

/-- After five minutes the job is dispatched again, and is in processing. -/
theorem crashing_job_dispatched_again :
    ¬ JobTable.WithinAttempts "job" (pgJobQueueRun (fun _ => true) .empty
        (untilCrash ++ [.start 2 .poll, .resume 2 (callAt 300000 (.ok ()))])).world ∧
      (pgJobQueueRun (fun _ => true) .empty
        (untilCrash ++ [.start 2 .poll, .resume 2 (callAt 300000 (.ok ()))])).world.state.statusOf
          "job" = some .processing := by
  decide

end Ancore.Queue
