import Ancore.Queue.PgJobQueue

/-! # Jobs in a terminal state

A job in processing whose worker is not heard of for five minutes is dequeued again,
and the first worker may still report on it.  An acknowledgement or a failure is
written by the id of the job alone, so what comes late may find the job in a terminal
state and change it.  Where nothing comes late, terminal jobs stay as they are. -/

namespace Ancore.Queue

open Ancore.Library

variable {Worker : Type}

/-- From one point to a later one no job in a terminal state changed its status, and none was
dequeued. -/
structure KeepsTerminal (before after : StatementWorld Worker) : Prop where
  status : ∀ id status, status.isTerminal = true → before.state.statusOf id = some status →
    after.state.statusOf id = some status
  notDequeued : ∃ recent, after.exchanges = recent ++ before.exchanges ∧
    ∀ exchange ∈ recent, ∀ job ∈ dequeued exchange, ∀ status,
      before.state.statusOf job.id = some status → status.isTerminal = false

/-- No two jobs that are not in a terminal state have the same key. -/
def OneActiveJob (table : JobTable) : Prop :=
  ∀ job ∈ table.rows, ∀ job' ∈ table.rows, job.status.isTerminal = false →
    job'.status.isTerminal = false → job.idempotencyKey = job'.idempotencyKey → job = job'

/-- What is written of a job finds it in no terminal state but the one that is written. -/
def JobTable.InTime (table : JobTable) (statement : Statement) : Prop :=
  match statement with
  | .ack id => table.statusOf id ≠ some .dead
  | .bury id _ _ => table.statusOf id ≠ some .completed
  | .retry id _ _ => table.statusOf id ≠ some .completed ∧ table.statusOf id ≠ some .dead
  | _ => True

instance (table : JobTable) (statement : Statement) : Decidable (table.InTime statement) :=
  match statement with
  | .ack _ => inferInstanceAs (Decidable (_ ≠ _))
  | .bury _ _ _ => inferInstanceAs (Decidable (_ ≠ _))
  | .retry _ _ _ => inferInstanceAs (Decidable (_ ∧ _))
  | .selectActive _ => isTrue trivial
  | .insertJob _ => isTrue trivial
  | .dequeue => isTrue trivial
  | .selectAttempts _ => isTrue trivial
  | .getById _ => isTrue trivial

def ComesInTime (exchange : StatementExchange Worker) : Prop :=
  match exchange.request with
  | .handle _ => True
  | .ask statement => exchange.found.InTime statement

instance (exchange : StatementExchange Worker) : Decidable (ComesInTime exchange) :=
  match exchange with
  | ⟨_, _, .handle _, _, _⟩ => isTrue trivial
  | ⟨_, table, .ask statement, _, _⟩ => inferInstanceAs (Decidable (table.InTime statement))

namespace KeepsTerminal

theorem refl (world : StatementWorld Worker) : KeepsTerminal world world where
  status _ _ _ found := found
  notDequeued := ⟨[], rfl, fun _ member => absurd member List.not_mem_nil⟩

theorem trans (first second third : StatementWorld Worker) (early : KeepsTerminal first second)
    (late : KeepsTerminal second third) : KeepsTerminal first third := by
  refine ⟨fun id status terminal found =>
    late.status id status terminal (early.status id status terminal found), ?_⟩
  obtain ⟨recent, extended, undequeued⟩ := early.notDequeued
  obtain ⟨recent', extended', undequeued'⟩ := late.notDequeued
  refine ⟨recent' ++ recent, by rw [extended', extended, List.append_assoc], ?_⟩
  intro exchange member job isDequeued status found
  obtain later | earlier := List.mem_append.mp member
  · by_contra terminal
    rw [Bool.not_eq_false] at terminal
    have still := early.status job.id status terminal found
    exact absurd terminal (by simp [undequeued' exchange later job isDequeued status still])
  · exact undequeued exchange earlier job isDequeued status found

end KeepsTerminal

/-! ## The statements -/

section Statements

variable {table changed : JobTable} {id other : String} {old status : JobStatus} {now : Millis}
  {statement : Statement} {circumstance : Circumstance}

/-- An eligible job is in no terminal state. -/
theorem not_terminal_of_eligible {job : Job} (eligible : JobTable.isEligible now job = true) :
    job.status.isTerminal = false := by
  unfold JobTable.isEligible at eligible
  cases status : job.status with
  | pending => rfl
  | processing => rfl
  | completed => simp [status] at eligible
  | failed => rfl
  | dead => simp [status] at eligible

/-- A job whose status is written, and every other one. -/
theorem statusOf_update {change : Job → Job} (updated : table.update id change = .ok changed)
    (keepsId : ∀ job, (change job).id = job.id) (written : ∀ job, (change job).status = status)
    (found : table.statusOf other = some old)
    (stays : other = id → status = old) : changed.statusOf other = some old := by
  unfold JobTable.statusOf at *
  rw [JobTable.getById_update change keepsId updated]
  split
  · rename_i same
    subst same
    cases isThere : table.getById other with
    | none =>
      rw [isThere] at found
      cases found
    | some job => exact congrArg some ((written job).trans (stays rfl))
  · exact found

/-- The status of a job in a terminal state stays. -/
theorem statusOf_execute {value : statement.Value}
    (executed : table.execute statement circumstance = .ok (value, changed))
    (inTime : table.InTime statement) (terminal : old.isTerminal = true)
    (found : table.statusOf other = some old) : changed.statusOf other = some old := by
  have written {status : JobStatus} {id : String} (unlike : ∀ late : JobStatus,
      late.isTerminal = true → table.statusOf id = some late → status = late)
      (same : other = id) : status = old :=
    unlike old terminal (same ▸ found)
  cases statement with
  | selectActive idempotencyKey =>
    cases executed
    exact found
  | insertJob options =>
    obtain rfl | ⟨absent, inserted⟩ := JobTable.insertJob_cases executed
    · exact found
    · unfold JobTable.statusOf at *
      rw [inserted]
      split
      · rename_i same
        rw [same, absent] at found
        cases found
      · exact found
  | dequeue =>
    obtain ⟨-, rfl⟩ | ⟨job, isThere, eligible, -, after⟩ := JobTable.dequeue_cases executed
    · exact found
    · unfold JobTable.statusOf at *
      rw [after]
      split
      · rename_i same
        rw [same, isThere] at found
        rw [← Option.some.inj found] at terminal
        exact absurd terminal (by simp [not_terminal_of_eligible eligible])
      · exact found
  | ack id =>
    have acked : table.ack id circumstance.databaseNow = .ok changed :=
      JobTable.of_map_eq_ok executed
    refine statusOf_update acked (fun _ => rfl) (fun _ => rfl) found
      (written fun late isTerminal isLate => ?_)
    cases late with
    | completed => rfl
    | dead => exact absurd isLate inTime
    | _ => cases isTerminal
  | selectAttempts id =>
    cases executed
    exact found
  | bury id attempts message =>
    have buried : table.bury id attempts message circumstance.databaseNow = .ok changed :=
      JobTable.of_map_eq_ok executed
    refine statusOf_update buried (fun _ => rfl) (fun _ => rfl) found
      (written fun late isTerminal isLate => ?_)
    cases late with
    | completed => exact absurd isLate inTime
    | dead => rfl
    | _ => cases isTerminal
  | retry id attempts message =>
    have retried := JobTable.of_map_eq_ok executed
    refine statusOf_update retried (fun _ => rfl) (fun _ => rfl) found
      (written fun late isTerminal isLate => ?_)
    cases late with
    | completed => exact absurd isLate inTime.1
    | dead => exact absurd isLate inTime.2
    | _ => cases isTerminal
  | getById id =>
    cases executed
    exact found

/-- A job that is dequeued is in no terminal state. -/
theorem not_terminal_of_dequeued {worker : Worker} {job : Job}
    (isDequeued : job ∈ dequeued (⟨worker, table, .ask statement, circumstance,
      (JobTable.carryOut statement circumstance table).1⟩ : StatementExchange Worker))
    (found : table.statusOf job.id = some status) : status.isTerminal = false := by
  have executes := JobTable.carryOut_cases statement circumstance table
  cases statement with
  | dequeue =>
    obtain ⟨-, message, failed⟩ | ⟨value, executed, answered | ⟨message, failed⟩⟩ := executes
    · rw [failed] at isDequeued
      cases isDequeued
    · rw [answered] at isDequeued
      obtain ⟨rfl, -⟩ | ⟨next, isThere, eligible, rfl, -⟩ := JobTable.dequeue_cases executed
      · cases isDequeued
      · cases isDequeued
        have status_next : some next.status = some status :=
          (congrArg (Option.map Job.status) isThere).symm.trans found
        rw [← Option.some.inj status_next]
        exact not_terminal_of_eligible eligible
    · rw [failed] at isDequeued
      cases isDequeued
  | selectActive idempotencyKey => cases isDequeued
  | insertJob options => cases isDequeued
  | ack id => cases isDequeued
  | selectAttempts id => cases isDequeued
  | bury id attempts message => cases isDequeued
  | retry id attempts message => cases isDequeued
  | getById id => cases isDequeued

end Statements

/-! ## Runs -/

/-- A call that comes in time keeps the terminal jobs. -/
theorem keepsTerminal_after (world : StatementWorld Worker) (worker : Worker)
    (call : Call Statement) (circumstance : Circumstance)
    (inTime : ComesInTime (world.exchange (performWith JobTable.carryOut) worker call
      circumstance)) :
    KeepsTerminal world
      (world.after (performWith JobTable.carryOut) worker call circumstance) := by
  cases call with
  | handle job =>
    refine ⟨fun id status terminal found => found, ⟨[_], rfl, ?_⟩⟩
    intro exchange member job' isDequeued
    rw [List.mem_singleton.mp member] at isDequeued
    cases isDequeued
  | ask statement =>
    have executes := JobTable.carryOut_cases statement circumstance world.state
    refine ⟨fun id status terminal found => ?_, ⟨[_], rfl, ?_⟩⟩
    · obtain ⟨same, -⟩ | ⟨value, executed, -⟩ := executes
      · exact (congrArg (JobTable.statusOf · id) same).trans found
      · exact statusOf_execute executed inTime terminal found
    · intro exchange member job isDequeued status found
      rw [List.mem_singleton.mp member] at isDequeued
      exact not_terminal_of_dequeued isDequeued found

theorem oneActiveJob (table : JobTable) : OneActiveJob table := by
  intro job isThere job' isThere' active active' same
  have distinct := List.inj_on_of_nodup_map table.constrained.2
  exact distinct (List.mem_filter.mpr ⟨isThere, by simp [active]⟩)
    (List.mem_filter.mpr ⟨isThere', by simp [active']⟩) same

/-- In every run in which what is written of jobs comes in time, jobs that are completed or dead
stay so and are not dequeued, and no two of the other jobs have one key. -/
theorem terminal_jobs_stay [DecidableEq Worker] (handlers : HandlerRegistry) (table : JobTable)
    (turns later : List (Turn Worker QueueTask Circumstance))
    (inTime : ∀ exchange ∈ (pgJobQueueRun handlers table (turns ++ later)).world.exchanges,
      ComesInTime exchange) :
    KeepsTerminal (pgJobQueueRun handlers table turns).world
        (pgJobQueueRun handlers table (turns ++ later)).world ∧
      OneActiveJob (pgJobQueueRun handlers table (turns ++ later)).world.state :=
  ⟨related_of_run KeepsTerminal.refl KeepsTerminal.trans keepsTerminal_after table turns later
    inTime, oneActiveJob _⟩

/-! ### A late failure -/

/-- A call at a time, by which nothing fails but the handler that throws. -/
def callAt (now : Millis) (handled : Except String Unit) : Circumstance where
  dateNow := now
  databaseNow := now
  randomUUID := "job"
  random := 0
  locked := []
  fault := none
  handled := handled

/-- A job is enqueued, dequeued by one worker and, five minutes later, dequeued and completed by
another. -/
def untilCompleted : List (Turn Nat QueueTask Circumstance) :=
  [.start 0 (.enqueue ⟨"key", .relayExecute, "{}", none, none⟩), .resume 0 (callAt 0 (.ok ())),
    .resume 0 (callAt 0 (.ok ())), .start 1 .poll, .resume 1 (callAt 0 (.ok ())), .start 2 .poll] ++
    List.replicate 3 (.resume 2 (callAt 300000 (.ok ())))

/-- The handler of the first worker fails, and the job is given back. -/
def lateFailure : List (Turn Nat QueueTask Circumstance) :=
  List.replicate 3 (.resume 1 (callAt 300001 (.error "timeout")))

theorem terminal_jobs_stay_of_sample :
    KeepsTerminal (pgJobQueueRun (fun _ => true) .empty (untilCompleted.take 8)).world
        (pgJobQueueRun (fun _ => true) .empty
          (untilCompleted.take 8 ++ untilCompleted.drop 8)).world ∧
      OneActiveJob (pgJobQueueRun (fun _ => true) .empty
        (untilCompleted.take 8 ++ untilCompleted.drop 8)).world.state :=
  terminal_jobs_stay (fun _ => true) .empty (untilCompleted.take 8) (untilCompleted.drop 8)
    (by decide)

/-- The completed job is pending again. -/
theorem completed_job_revived :
    ¬ KeepsTerminal (pgJobQueueRun (fun _ => true) .empty untilCompleted).world
      (pgJobQueueRun (fun _ => true) .empty (untilCompleted ++ lateFailure)).world := by
  intro keeps
  exact absurd (keeps.status "job" .completed rfl (by decide)) (by decide)

end Ancore.Queue
