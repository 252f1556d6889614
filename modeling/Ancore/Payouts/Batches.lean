import Ancore.Library.Numbers
import Ancore.Library.Records
import Ancore.Library.Runs
import Ancore.Library.WorkerPool

/-! # Batches of payouts

`executeBulkPayoutBatch` submits the rows of a batch through a pool of workers and
checkpoints every row that settles in one place of a storage, which all batches share.
A run goes step by step: it starts, a worker takes a row and submits it, a submission
settles, and the run returns where all workers have; it may be cut off before.  The two
halves of what a worker does between awaits are steps of their own, so that more orders
are allowed than a browser goes in.
-/

namespace Ancore.Payouts

open Ancore.Library Ancore.Library.EcmaScript

structure BulkPayoutRow where
  id : String
  lineNumber : Nat
  recipient : String
  amount : String
  signedTransactionXdr : Option String
  errors : List String
deriving DecidableEq

def createRow (lineNumber : Nat) (recipient amount : String)
    (signedTransactionXdr : Option String) (errors : List String) : BulkPayoutRow where
  id := toString lineNumber ++ "-" ++ recipient ++ "-" ++ amount
  lineNumber
  recipient
  amount
  signedTransactionXdr
  errors

/-- The status of a row that is settled. -/
inductive SettledStatus where
  | success
  | failed
deriving DecidableEq

structure BulkPayoutExecution where
  row : BulkPayoutRow
  /-- Nothing where it is undefined. -/
  status : Option SettledStatus
  error : Option String
deriving DecidableEq

structure BulkPayoutExecutionSummary where
  total : Nat
  successful : Nat
  failed : Nat
  results : List BulkPayoutExecution
deriving DecidableEq

structure PayoutSubmission where
  recipient : String
  amount : String
  signedTransactionXdr : Option String
  idempotencyKey : String
deriving DecidableEq

/-! ## The checkpoint -/

structure CheckpointEntry where
  status : SettledStatus
  error : Option String
deriving DecidableEq

def CheckpointEntry.execution (entry : CheckpointEntry) (row : BulkPayoutRow) :
    BulkPayoutExecution :=
  ⟨row, some entry.status, entry.error⟩

abbrev CheckpointEntries : Type := Record String CheckpointEntry

/-- What the entry of a row says of it. -/
def CheckpointEntries.of (entries : CheckpointEntries) (row : BulkPayoutRow) :
    Option BulkPayoutExecution :=
  (entries.lookup row.id).map fun entry => entry.execution row

structure BulkPayoutCheckpoint where
  version : Int
  batchId : String
  entries : CheckpointEntries
deriving DecidableEq

/-- The item of the storage; a text that is no checkpoint counts as no item. -/
abbrev CheckpointStorage : Type := Option BulkPayoutCheckpoint

/-- `CHECKPOINT_VERSION` -/
def checkpointVersion : Int := 1

/-- The checkpoint is of the batch, and of the current shape. -/
def BulkPayoutCheckpoint.Of (checkpoint : BulkPayoutCheckpoint) (batchId : String) : Prop :=
  checkpoint.version = checkpointVersion ∧ checkpoint.batchId = batchId

instance (checkpoint : BulkPayoutCheckpoint) (batchId : String) :
    Decidable (checkpoint.Of batchId) :=
  inferInstanceAs (Decidable (_ ∧ _))

/-- A batch without an id is not checkpointed. -/
def checkpointed : Option String → Option String
  | none => none
  | some batchId => if batchId = "" then none else some batchId

def readCheckpoint (storage : CheckpointStorage) (batchId : Option String) : CheckpointEntries :=
  match storage, checkpointed batchId with
  | some parsed, some batchId => if parsed.Of batchId then parsed.entries else ∅
  | _, _ => ∅

def writeCheckpoint (storage : CheckpointStorage) (batchId : Option String)
    (entries : CheckpointEntries) : CheckpointStorage :=
  match checkpointed batchId with
  | none => storage
  | some batchId => some ⟨checkpointVersion, batchId, entries⟩

/-- The properties that every object has. -/
def objectPrototype : List String :=
  ["constructor", "__defineGetter__", "__defineSetter__", "hasOwnProperty", "__lookupGetter__",
    "__lookupSetter__", "isPrototypeOf", "propertyIsEnumerable", "toString", "valueOf",
    "__proto__", "toLocaleString"]

/-- What `entries[row.id]` makes of a row: the entry of the row, or a property that every object
has, which has no status. -/
def recorded (entries : CheckpointEntries) (row : BulkPayoutRow) : Option BulkPayoutExecution :=
  match entries.of row with
  | some execution => some execution
  | none => if row.id ∈ objectPrototype then some ⟨row, none, none⟩ else none

/-! ## Runs -/

/-- The rows of a batch have different ids. -/
structure Batch where
  rows : List BulkPayoutRow
  batchId : Option String
  distinct : (rows.map BulkPayoutRow.id).Nodup

/-- What is called for a batch; the default of `concurrency` is `BULK_PAYOUT_CONCURRENCY`. -/
structure Execution where
  batch : Batch
  concurrency : Option Number

/-- `BULK_PAYOUT_CONCURRENCY` -/
def bulkPayoutConcurrency : Number := 4

def Execution.limit (execution : Execution) : Number :=
  execution.concurrency.getD bulkPayoutConcurrency

/-- `Math.max(1, Math.min(concurrency, rows.length || 1))` -/
def Execution.workers (execution : Execution) : Number :=
  let length := execution.batch.rows.length
  Number.max 1 (Number.min execution.limit (.finite (if length = 0 then 1 else length : Nat)))

/-- What a run of `executeBulkPayoutBatch` keeps; `pending` and `cursor` are the items of the pool
and its cursor. -/
structure Run where
  execution : Execution
  entries : CheckpointEntries
  settled : List (Option BulkPayoutExecution)
  pool : Pool Nat

namespace Run

def rows (run : Run) : List BulkPayoutRow := run.execution.batch.rows

/-- The run up to its first worker. -/
def start (storage : CheckpointStorage) (execution : Execution) : Run :=
  let entries := readCheckpoint storage execution.batch.batchId
  let pending := execution.batch.rows.findIdxs fun row => (recorded entries row).isNone
  { execution
    entries
    settled := execution.batch.rows.map (recorded entries)
    pool := .start pending execution.workers.toLength }

def results (run : Run) : List BulkPayoutExecution := run.settled.filterMap id

def summary (run : Run) : BulkPayoutExecutionSummary :=
  let successful := (run.results.filter fun result => result.status = some .success).length
  { total := run.rows.length
    successful
    failed := run.results.length - successful
    results := run.results }

end Run

def BulkPayoutRow.submission (row : BulkPayoutRow) : PayoutSubmission where
  recipient := row.recipient
  amount := row.amount
  signedTransactionXdr := row.signedTransactionXdr
  idempotencyKey := "bulk-payout-" ++ row.id

/-- What becomes of a submission; what is thrown may be no `Error`, and then has no message. -/
inductive Outcome where
  | fulfilled
  | rejected (message : Option String)
deriving DecidableEq

def Outcome.entry : Outcome → CheckpointEntry
  | fulfilled => ⟨.success, none⟩
  | rejected message => ⟨.failed, some (message.getD "Payout execution failed")⟩

/-! ## Steps -/

structure World where
  storage : CheckpointStorage
  running : Option Run

inductive Event where
  | execute (execution : Execution)
  | take (worker : Nat)
  | settle (worker : Nat) (outcome : Outcome)
  | finish
  | cutOff

/-- What a step is seen to do, with the id under which the batch is checkpointed.  A run that starts
adopts what the checkpoint says. -/
inductive Observation where
  | started (adopted : List BulkPayoutExecution)
  | submitted (batchId : Option String) (row : BulkPayoutRow)
  | stopped
  | settled (batchId : Option String) (execution : BulkPayoutExecution)
  | finished (summary : BulkPayoutExecutionSummary)
  | ended

/-- `executeBulkPayoutBatch` is called. -/
def World.execute (world : World) (execution : Execution) : Option (Observation × World) :=
  match world.running with
  | some _ => none
  | none =>
    let run := Run.start world.storage execution
    some (.started (run.rows.filterMap run.entries.of), { world with running := some run })

/-- A worker takes the next row and submits it. -/
def Run.take (run : Run) (worker : Nat) : Option (Observation × Run) :=
  match run.pool.take worker with
  | none => none
  | some (none, pool) => some (.stopped, { run with pool })
  | some (some index, pool) =>
    match run.rows[index]? with
    | none => none
    | some row =>
      some (.submitted (checkpointed run.execution.batch.batchId) row, { run with pool })

/-- A submission settles, and its row is recorded. -/
def Run.settle (run : Run) (worker : Nat) (outcome : Outcome) : Option (Observation × Run) :=
  match run.pool.release worker with
  | none => none
  | some (index, pool) =>
    match run.rows[index]? with
    | none => none
    | some row =>
      let execution := outcome.entry.execution row
      some (.settled (checkpointed run.execution.batch.batchId) execution,
        { run with
          entries := run.entries.insert row.id outcome.entry
          settled := run.settled.set index (some execution)
          pool })

def step : Event → World → Option (Observation × World)
  | .execute execution, world => world.execute execution
  | .take worker, world => do
    let run ← world.running
    let (observation, run) ← run.take worker
    pure (observation, { world with running := some run })
  | .settle worker outcome, world => do
    let run ← world.running
    let (observation, run) ← run.settle worker outcome
    pure (observation,
      { storage := writeCheckpoint world.storage run.execution.batch.batchId run.entries
        running := some run })
  | .finish, world => do
    let run ← world.running
    if run.pool.allStopped then
      pure (.finished run.summary, { world with running := none })
    else none
  | .cutOff, world => do
    let _ ← world.running
    pure (.ended, { world with running := none })

end Ancore.Payouts
