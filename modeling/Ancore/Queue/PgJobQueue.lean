import Ancore.Queue.QueueWorker

/-! # The queue in Postgres

The jobs are the rows of a table that keeps its constraints: a statement that would
break one is refused.  Each method is one or more statements, and other workers go
on between them. -/

namespace Ancore.Queue

open Ancore.Library

/-- The primary key, and the index `idx_jobs_active_idempotency`. -/
def Constrained (rows : List Job) : Prop :=
  (rows.map Job.id).Nodup ∧
    ((rows.filter fun job => !job.status.isTerminal).map Job.idempotencyKey).Nodup

instance (rows : List Job) : Decidable (Constrained rows) := inferInstanceAs (Decidable (_ ∧ _))

/-- The table `jobs`. -/
structure JobTable where
  rows : List Job
  constrained : Constrained rows

/-- The statements of the queue. -/
inductive Statement where
  | selectActive (idempotencyKey : String)
  | insertJob (options : EnqueueOptions)
  | dequeue
  | ack (id : String)
  | selectAttempts (id : String)
  | bury (id : String) (attempts : Nat) (message : String)
  | retry (id : String) (attempts : Nat) (message : String)
  | getById (id : String)
  deriving DecidableEq

/-- The attempts are read with the most that are allowed. -/
@[reducible] def Statement.Value : Statement → Type
  | .selectActive _ => Option Job
  | .insertJob _ => Option Job
  | .dequeue => Option Job
  | .ack _ => Unit
  | .selectAttempts _ => Option (Nat × Nat)
  | .bury _ _ _ => Unit
  | .retry _ _ _ => Unit
  | .getById _ => Option Job

/-! ## The methods -/

namespace PgJobQueue

def enqueueFailed (idempotencyKey : String) : String :=
  "Failed to enqueue job with idempotencyKey \"" ++ idempotencyKey ++ "\""

/-- What an insertion that inserted nothing is followed by. -/
def enqueueRaced (options : EnqueueOptions) : Async Statement.Value Job := do
  match ← asked (Statement.selectActive options.idempotencyKey) with
  | some job => pure job
  | none => throw (enqueueFailed options.idempotencyKey)

def enqueue (options : EnqueueOptions) : Async Statement.Value Job := do
  match ← asked (Statement.selectActive options.idempotencyKey) with
  | some existing => pure existing
  | none => do
    -- whatever the insertion rejects with is caught
    match ← ExceptT.lift (asked (Statement.insertJob options) : Async Statement.Value _).run with
    | .ok (some job) => pure job
    | .ok none => enqueueRaced options
    | .error _ => enqueueRaced options

def nack (id message : String) : Async Statement.Value Unit := do
  match ← asked (Statement.selectAttempts id) with
  | none => pure ()
  | some (currentAttempts, maxAttempts) =>
    let attempts := currentAttempts + 1
    if attempts ≥ maxAttempts then asked (Statement.bury id attempts message)
    else asked (Statement.retry id attempts message)

def contract : JobQueueContract Statement.Value where
  enqueue := enqueue
  dequeue := asked Statement.dequeue
  ack id := asked (Statement.ack id)
  nack := nack
  getById id := asked (Statement.getById id)

end PgJobQueue

/-! ## The statements -/

/-- `INTERVAL '5 minutes'` -/
def reclaimMs : Int := 300000

namespace JobTable

def empty : JobTable where
  rows := []
  constrained := ⟨List.nodup_nil, List.nodup_nil⟩

def uniqueViolation : String := "duplicate key value violates unique constraint"

/-- The table with other rows, unless the constraints refuse them. -/
def checked (rows : List Job) : Except String JobTable :=
  if constrained : Constrained rows then .ok ⟨rows, constrained⟩ else .error uniqueViolation

variable (table : JobTable)

def getById (id : String) : Option Job := rowOf Job.id table.rows id

/-- There is at most one. -/
def selectActive (idempotencyKey : String) : Option Job :=
  table.rows.find? fun job => job.idempotencyKey = idempotencyKey && !job.status.isTerminal

/-- `UPDATE jobs SET .. WHERE id = ..` -/
def update (id : String) (change : Job → Job) : Except String JobTable :=
  checked (modifyRow Job.id table.rows id change)

/-- `ON CONFLICT .. DO NOTHING` -/
def insertJob (options : EnqueueOptions) (randomUUID : String) (now : Millis) :
    Except String (Option Job × JobTable) :=
  if (table.selectActive options.idempotencyKey).isSome then .ok (none, table)
  else
    (checked (table.rows ++ [options.job randomUUID none now])).map
      (Prod.mk (some (options.job randomUUID none now)))

/-- A pending job that is due, or one in processing whose worker is not heard of. -/
def isEligible (now : Millis) (job : Job) : Bool :=
  (job.status = .pending && job.isDue now) ||
    (job.status = .processing && job.updatedAt ≤ now - reclaimMs)

/-- `FOR UPDATE SKIP LOCKED` -/
def dequeue (locked : List String) (now : Millis) : Except String (Option Job × JobTable) :=
  match earliest (table.rows.filter fun job => isEligible now job && job.id ∉ locked) with
  | none => .ok (none, table)
  | some nextJob =>
    (table.update nextJob.id fun job => job.taken now).map (Prod.mk (some (nextJob.taken now)))

def ack (id : String) (now : Millis) : Except String JobTable :=
  table.update id fun job => job.acked now

def bury (id : String) (attempts : Nat) (message : String) (now : Millis) :
    Except String JobTable :=
  table.update id fun job => job.buried now attempts message

def retry (id : String) (attempts : Nat) (message : String) (retryAfter now : Millis) :
    Except String JobTable :=
  table.update id fun job => job.retried now attempts message retryAfter

/-- A statement that the database does not fail. -/
def execute (statement : Statement) (circumstance : Circumstance) :
    Except String (statement.Value × JobTable) :=
  let now := circumstance.databaseNow
  match statement with
  | .selectActive idempotencyKey => .ok (table.selectActive idempotencyKey, table)
  | .insertJob options => table.insertJob options circumstance.randomUUID now
  | .dequeue => table.dequeue circumstance.locked now
  | .ack id => (table.ack id now).map (Prod.mk ())
  | .selectAttempts id =>
    .ok ((table.getById id).map fun job => (job.attempts, job.maxAttempts), table)
  | .bury id attempts message => (table.bury id attempts message now).map (Prod.mk ())
  | .retry id attempts message =>
    let retryAfter := nextRetryAfter attempts circumstance.random circumstance.dateNow
    (table.retry id attempts message retryAfter now).map (Prod.mk ())
  | .getById id => .ok (table.getById id, table)

/-- A statement that fails may have been carried out. -/
def carryOut (statement : Statement) (circumstance : Circumstance) (table : JobTable) :
    Except String statement.Value × JobTable :=
  match circumstance.fault, table.execute statement circumstance with
  | some (.before message), _ => (.error message, table)
  | _, .error message => (.error message, table)
  | some (.after message), .ok (_, changed) => (.error message, changed)
  | none, .ok (value, changed) => (.ok value, changed)

end JobTable

/-! ## Workers on one queue -/

abbrev StatementExchange (Worker : Type) : Type :=
  Exchange Worker Circumstance JobTable (Answer Statement.Value)

abbrev StatementWorld (Worker : Type) : Type :=
  World Worker Circumstance JobTable (Answer Statement.Value)

/-- Tasks carried out side by side on one table, turn by turn. -/
def pgJobQueueRun {Worker : Type} [DecidableEq Worker] (handlers : HandlerRegistry)
    (table : JobTable) (turns : List (Turn Worker QueueTask Circumstance)) :
    System Worker Circumstance JobTable (Answer Statement.Value) :=
  interleaved (performWith JobTable.carryOut) (work PgJobQueue.contract handlers) table turns

def JobTable.statusOf (table : JobTable) (id : String) : Option JobStatus :=
  (table.getById id).map Job.status

/-- The job a worker got. -/
def dequeued {Worker : Type} (exchange : StatementExchange Worker) : Option Job :=
  match exchange with
  | ⟨_, _, .ask .dequeue, _, .ok found⟩ => found
  | _ => none

/-! ## What the statements do -/

namespace JobTable

variable {table changed : JobTable} {id other : String} {statement : Statement}
  {circumstance : Circumstance} {now : Millis}

theorem checked_eq_ok {rows : List Job} (accepted : checked rows = .ok changed) :
    changed.rows = rows := by
  unfold checked at accepted
  split at accepted
  · rw [← Except.ok.inj accepted]
  · cases accepted

/-- A write that is carried out. -/
theorem of_map_eq_ok {α : Type} {value value' : α} {written : Except String JobTable}
    (done : written.map (Prod.mk value) = .ok (value', changed)) : written = .ok changed := by
  cases written with
  | error message => cases done
  | ok table =>
    cases done
    rfl

theorem getById_eq_some_iff {job : Job} :
    table.getById id = some job ↔ job ∈ table.rows ∧ job.id = id :=
  rowOf_eq_some_iff table.constrained.1

theorem getById_update (change : Job → Job) (keepsId : ∀ job, (change job).id = job.id)
    (updated : table.update id change = .ok changed) :
    changed.getById other =
      if other = id then (table.getById id).map change else table.getById other := by
  unfold getById
  rw [checked_eq_ok updated]
  exact rowOf_modifyRow fun job same => (keepsId job).trans same

/-- A statement leaves the table, or it is carried out; its answer is the value then, unless it
fails after that. -/
theorem carryOut_cases (statement : Statement) (circumstance : Circumstance) (table : JobTable) :
    ((carryOut statement circumstance table).2 = table ∧
        ∃ message, (carryOut statement circumstance table).1 = .error message) ∨
      ∃ value, table.execute statement circumstance =
          .ok (value, (carryOut statement circumstance table).2) ∧
        ((carryOut statement circumstance table).1 = .ok value ∨
          ∃ message, (carryOut statement circumstance table).1 = .error message) := by
  unfold carryOut
  split
  · exact .inl ⟨rfl, _, rfl⟩
  · exact .inl ⟨rfl, _, rfl⟩
  · exact .inr ⟨_, ‹_›, .inr ⟨_, rfl⟩⟩
  · exact .inr ⟨_, ‹_›, .inl rfl⟩

/-- A statement that only reads. -/
theorem unchanged_of_read {value : statement.Value}
    (reads : table.execute statement circumstance = .ok (value, table)) :
    (carryOut statement circumstance table).2 = table := by
  obtain ⟨unchanged, -⟩ | ⟨value', executed, -⟩ := carryOut_cases statement circumstance table
  · exact unchanged
  · exact (Prod.mk.inj (Except.ok.inj (executed.symm.trans reads))).2

/-- A job is inserted under an id that is not there. -/
theorem insertJob_cases {options : EnqueueOptions} {randomUUID : String} {inserted : Option Job}
    (done : table.insertJob options randomUUID now = .ok (inserted, changed)) :
    changed = table ∨ table.getById randomUUID = none ∧ ∀ id, changed.getById id =
      if id = randomUUID then some (options.job randomUUID none now) else table.getById id := by
  unfold insertJob at done
  split at done
  · cases done
    exact .inl rfl
  · cases accepted : checked (table.rows ++ [options.job randomUUID none now]) with
    | error message =>
      rw [accepted] at done
      cases done
    | ok inserted =>
      rw [accepted] at done
      cases done
      have rows := checked_eq_ok accepted
      have absent : table.getById randomUUID = none := by
        have distinct := changed.constrained.1
        rw [rows, List.map_append] at distinct
        exact rowOf_eq_none_iff.mpr fun present =>
          (List.nodup_append.mp distinct).2.2 _ present _ List.mem_cons_self rfl
      refine .inr ⟨absent, fun id => ?_⟩
      unfold getById at *
      rw [rows, rowOf_concat]
      by_cases same : id = randomUUID
      · rw [if_pos same, same, absent]
        exact if_pos rfl
      · rw [if_neg same]
        exact (congrArg _ (if_neg (Ne.symm same))).trans Option.or_none

/-- What is dequeued was eligible, and is processing from then on. -/
theorem dequeue_cases {locked : List String} {found : Option Job}
    (done : table.dequeue locked now = .ok (found, changed)) :
    found = none ∧ changed = table ∨
      ∃ job, table.getById job.id = some job ∧ isEligible now job = true ∧
        found = some (job.taken now) ∧
          ∀ other, changed.getById other =
            if other = job.id then some (job.taken now) else table.getById other := by
  unfold dequeue at done
  split at done
  · cases done
    exact .inl ⟨rfl, rfl⟩
  · rename_i nextJob isEarliest
    obtain ⟨member, eligible⟩ := List.mem_filter.mp (mem_of_earliest isEarliest)
    have isThere : table.getById nextJob.id = some nextJob := getById_eq_some_iff.mpr ⟨member, rfl⟩
    cases updated : table.update nextJob.id fun job => job.taken now with
    | error message =>
      rw [updated] at done
      cases done
    | ok after =>
      rw [updated] at done
      cases done
      refine .inr ⟨nextJob, isThere, (Bool.and_eq_true_iff.mp eligible).1, rfl, fun other => ?_⟩
      rw [getById_update (fun job => job.taken now) (fun _ => rfl) updated, isThere,
        Option.map_some]

theorem getById_of_ack {value : Unit}
    (executed : table.execute (.ack id) circumstance = .ok (value, changed)) :
    changed.getById other =
      if other = id then (table.getById id).map fun job => job.acked circumstance.databaseNow
      else table.getById other :=
  getById_update (fun job => job.acked _) (fun job => job.id_acked _) (of_map_eq_ok executed)

theorem getById_of_bury {attempts : Nat} {message : String} {value : Unit}
    (executed : table.execute (.bury id attempts message) circumstance = .ok (value, changed)) :
    changed.getById other =
      if other = id then
        (table.getById id).map fun job => job.buried circumstance.databaseNow attempts message
      else table.getById other :=
  getById_update (fun job => job.buried _ attempts message)
    (fun job => job.id_buried _ attempts message) (of_map_eq_ok executed)

theorem getById_of_retry {attempts : Nat} {message : String} {value : Unit}
    (executed : table.execute (.retry id attempts message) circumstance = .ok (value, changed)) :
    ∃ retryAfter, ∀ other, changed.getById other =
      if other = id then
        (table.getById id).map fun job =>
          job.retried circumstance.databaseNow attempts message retryAfter
      else table.getById other :=
  ⟨nextRetryAfter attempts circumstance.random circumstance.dateNow, fun _ =>
    getById_update (fun job => job.retried _ attempts message _)
      (fun job => job.id_retried _ attempts message _) (of_map_eq_ok executed)⟩

end JobTable

end Ancore.Queue
