import Ancore.Indexer.Worker

/-! # The worker over Postgres

The Postgres stores run one statement at a time, each of them atomic, and the first
that fails ends the call.  A batch is a list of statements; running such a list
again over what an earlier, unfinished attempt has left is as good as running it
once (`batch_repeatable`).
-/

namespace Ancore.Indexer

open Ancore.Library

/-! ## Statements -/

/-- A statement that writes. -/
inductive Statement where
  | deadLetter (record : DeadLetterRecord)
  | contractEvent (event : CanonicalEvent)
  | activity (event : CanonicalEvent)
  | saveCheckpoint (checkpoint : Checkpoint)

section Statements

variable {ν : Type} (columns : Columns ν)

def Statement.run : Statement → Database ν → Option (Database ν)
  | .deadLetter record => insertDeadLetter columns record
  | .contractEvent event => insertContractEvent columns event
  | .activity event => insertActivity columns event
  | .saveCheckpoint checkpoint => Indexer.saveCheckpoint columns checkpoint

/-- The database has seen the statement already. -/
def Statement.Settled (db : Database ν) : Statement → Prop
  | .deadLetter record => ∃ row, deadLetterRow columns record = some row ∧
      row.key ∈ db.deadLetters.map DeadLetterRow.key
  | .contractEvent event => ∃ row, contractEventRow columns event = some row ∧
      row.key ∈ db.contractEvents.map ContractEventRow.key
  | .activity event => ∃ row, activityRow columns event = some row ∧
      row.key ∈ db.accountActivity.map ActivityRow.key
  | .saveCheckpoint checkpoint => ∃ stream, columns.varchar 64 checkpoint.stream = some stream ∧
      db.checkpoints stream = some checkpoint.lastLedgerSeq

/-- No key is lost. -/
structure Grows (db after : Database ν) : Prop where
  deadLetters : db.deadLetters.map DeadLetterRow.key ⊆ after.deadLetters.map DeadLetterRow.key
  contractEvents :
    db.contractEvents.map ContractEventRow.key ⊆ after.contractEvents.map ContractEventRow.key
  accountActivity :
    db.accountActivity.map ActivityRow.key ⊆ after.accountActivity.map ActivityRow.key

variable {columns} {statement other : Statement} {db after : Database ν}

/-- Inserting into one of the tables. -/
theorem insert_eq_self_iff {ρ κ : Type} [DecidableEq κ] {key : ρ → κ} {row? : Option ρ}
    {table : List ρ} (put : List ρ → Database ν) (injective : Function.Injective put) :
    row?.map (fun row => put (insertNew key table row)) = some (put table) ↔
      ∃ row, row? = some row ∧ key row ∈ table.map key := by
  simp only [Option.map_eq_some_iff, injective.eq_iff, insertNew_eq_self_iff]

theorem run_eq_self_iff : statement.run columns db = some db ↔ statement.Settled columns db := by
  cases statement with
  | deadLetter record =>
    apply insert_eq_self_iff fun rows => { db with deadLetters := rows }
    exact fun rows rows' same => congrArg Database.deadLetters same
  | contractEvent event =>
    apply insert_eq_self_iff fun rows => { db with contractEvents := rows }
    exact fun rows rows' same => congrArg Database.contractEvents same
  | activity event =>
    apply insert_eq_self_iff fun rows => { db with accountActivity := rows }
    exact fun rows rows' same => congrArg Database.accountActivity same
  | saveCheckpoint checkpoint =>
    simp only [Statement.run, Indexer.saveCheckpoint, Statement.Settled, Option.map_eq_some_iff]
    constructor
    · rintro ⟨stream, isStream, same⟩
      have saved := congrArg (fun db => db.checkpoints stream) same
      exact ⟨stream, isStream, by rw [← saved]; simp⟩
    · rintro ⟨stream, isStream, saved⟩
      exact ⟨stream, isStream, by rw [← saved, Function.update_eq_self]⟩

theorem settled_of_run (ran : statement.run columns db = some after) :
    statement.Settled columns after := by
  cases statement with
  | deadLetter record =>
    obtain ⟨row, isRow, rfl⟩ := Option.map_eq_some_iff.mp ran
    exact ⟨row, isRow, mem_keys_insertNew.mpr (.inr rfl)⟩
  | contractEvent event =>
    obtain ⟨row, isRow, rfl⟩ := Option.map_eq_some_iff.mp ran
    exact ⟨row, isRow, mem_keys_insertNew.mpr (.inr rfl)⟩
  | activity event =>
    obtain ⟨row, isRow, rfl⟩ := Option.map_eq_some_iff.mp ran
    exact ⟨row, isRow, mem_keys_insertNew.mpr (.inr rfl)⟩
  | saveCheckpoint checkpoint =>
    obtain ⟨stream, isStream, rfl⟩ := Option.map_eq_some_iff.mp ran
    exact ⟨stream, isStream, Function.update_self ..⟩

theorem grows_of_run (ran : statement.run columns db = some after) : Grows db after := by
  cases statement with
  | deadLetter record =>
    obtain ⟨row, _, rfl⟩ := Option.map_eq_some_iff.mp ran
    exact ⟨fun _ member => mem_keys_insertNew.mpr (.inl member), fun _ => id, fun _ => id⟩
  | contractEvent event =>
    obtain ⟨row, _, rfl⟩ := Option.map_eq_some_iff.mp ran
    exact ⟨fun _ => id, fun _ member => mem_keys_insertNew.mpr (.inl member), fun _ => id⟩
  | activity event =>
    obtain ⟨row, _, rfl⟩ := Option.map_eq_some_iff.mp ran
    exact ⟨fun _ => id, fun _ => id, fun _ member => mem_keys_insertNew.mpr (.inl member)⟩
  | saveCheckpoint checkpoint =>
    obtain ⟨stream, _, rfl⟩ := Option.map_eq_some_iff.mp ran
    exact ⟨fun _ => id, fun _ => id, fun _ => id⟩

/-- Only saving a checkpoint changes one. -/
theorem checkpoints_of_run (ran : statement.run columns db = some after)
    (isInsert : ∀ checkpoint, statement ≠ .saveCheckpoint checkpoint) :
    after.checkpoints = db.checkpoints := by
  cases statement with
  | deadLetter record =>
    obtain ⟨row, _, rfl⟩ := Option.map_eq_some_iff.mp ran
    rfl
  | contractEvent event =>
    obtain ⟨row, _, rfl⟩ := Option.map_eq_some_iff.mp ran
    rfl
  | activity event =>
    obtain ⟨row, _, rfl⟩ := Option.map_eq_some_iff.mp ran
    rfl
  | saveCheckpoint checkpoint => exact absurd rfl (isInsert checkpoint)

/-- Other statements leave a settled statement settled; two checkpoints would overwrite one
another. -/
theorem Statement.Settled.of_run (settled : statement.Settled columns db)
    (ran : other.run columns db = some after)
    (single : ∀ checkpoint, other = .saveCheckpoint checkpoint →
      ∀ saved, statement = .saveCheckpoint saved → saved = checkpoint) :
    statement.Settled columns after := by
  have grows := grows_of_run ran
  cases statement with
  | deadLetter record =>
    obtain ⟨row, isRow, member⟩ := settled
    exact ⟨row, isRow, grows.deadLetters member⟩
  | contractEvent event =>
    obtain ⟨row, isRow, member⟩ := settled
    exact ⟨row, isRow, grows.contractEvents member⟩
  | activity event =>
    obtain ⟨row, isRow, member⟩ := settled
    exact ⟨row, isRow, grows.accountActivity member⟩
  | saveCheckpoint saved =>
    by_cases isInsert : ∀ checkpoint, other ≠ .saveCheckpoint checkpoint
    · obtain ⟨stream, isStream, equal⟩ := settled
      exact ⟨stream, isStream, by rw [checkpoints_of_run ran isInsert, equal]⟩
    · push Not at isInsert
      obtain ⟨checkpoint, isOther⟩ := isInsert
      have same := single checkpoint isOther saved rfl
      subst isOther same
      exact settled_of_run ran

end Statements

/-! ## The statements of a batch -/

/-- `persist` for one event. -/
def eventStatements (event : CanonicalEvent) : List Statement :=
  [.contractEvent event, .activity event]

/-- A batch, in the order of the worker. -/
def batchStatements (stream : String) (lastSeq : Nat) (failures : List DeadLetterRecord)
    (canonical : List CanonicalEvent) (maxLedger : Nat) : List Statement :=
  failures.map .deadLetter ++ canonical.flatMap eventStatements ++
    if lastSeq < maxLedger then
      [.saveCheckpoint { stream := stream, lastLedgerSeq := maxLedger }]
    else []

section Batch

variable {ν : Type} {columns : Columns ν} {stream : String} {lastSeq maxLedger : Nat}
  {failures : List DeadLetterRecord} {canonical : List CanonicalEvent}

/-- The only checkpoint of a batch is its last statement. -/
theorem batchStatements_checkpoint {checkpoint : Checkpoint}
    (member : .saveCheckpoint checkpoint ∈
      batchStatements stream lastSeq failures canonical maxLedger) :
    checkpoint = { stream := stream, lastLedgerSeq := maxLedger } := by
  unfold batchStatements at member
  rcases List.mem_append.mp member with insert | save
  · rcases List.mem_append.mp insert with deadLetter | event
    · obtain ⟨_, _, equal⟩ := List.mem_map.mp deadLetter
      cases equal
    · obtain ⟨_, _, equal⟩ := List.mem_flatMap.mp event
      simp [eventStatements] at equal
  · split at save
    · cases List.mem_singleton.mp save
      rfl
    · cases save

/-- A batch can be written again. -/
theorem batch_repeatable :
    Repeatable ((batchStatements stream lastSeq failures canonical maxLedger).map
      (Statement.run columns)) where
  idempotent := by
    intro op member db after ran
    obtain ⟨statement, _, rfl⟩ := List.mem_map.mp member
    exact run_eq_self_iff.mpr (settled_of_run ran)
  stable := by
    intro op member otherOp otherMember db after settled ran
    obtain ⟨statement, inBatch, rfl⟩ := List.mem_map.mp member
    obtain ⟨other, otherInBatch, rfl⟩ := List.mem_map.mp otherMember
    apply run_eq_self_iff.mpr
    apply (run_eq_self_iff.mp settled).of_run ran
    rintro checkpoint rfl saved rfl
    rw [batchStatements_checkpoint inBatch, batchStatements_checkpoint otherInBatch]

end Batch

/-! ## What statements leave -/

section Leave

variable {ν : Type} {columns : Columns ν} {db after : Database ν}

/-- Running one statement after the other. -/
def runAll (columns : Columns ν) (statements : List Statement) (db : Database ν) :
    Option (Database ν) :=
  applyAll (statements.map (Statement.run columns)) db

theorem runAll_append (first second : List Statement) :
    runAll columns (first ++ second) db =
      (runAll columns first db).bind (runAll columns second) := by
  rw [runAll, List.map_append, applyAll_append]
  rfl

theorem runAll_deadLetters_iff (records : List DeadLetterRecord) :
    runAll columns (records.map .deadLetter) db = some after ↔
      ∃ rows, rows.map some = records.map (deadLetterRow columns) ∧
        after = { db with deadLetters := insertAll DeadLetterRow.key db.deadLetters rows } := by
  induction records generalizing db with
  | nil =>
    simp only [runAll, List.map_nil, applyAll_nil, Option.some.injEq, List.map_eq_nil_iff,
      exists_eq_left, insertAll_nil]
    exact eq_comm
  | cons record records inductionHypothesis =>
    constructor
    · intro ran
      obtain ⟨middle, first, rest⟩ := Option.bind_eq_some_iff.mp ran
      obtain ⟨row, isRow, rfl⟩ := Option.map_eq_some_iff.mp first
      obtain ⟨rows, areRows, rfl⟩ := inductionHypothesis.mp rest
      exact ⟨row :: rows, by rw [List.map_cons, List.map_cons, isRow, areRows], rfl⟩
    · rintro ⟨rows, areRows, rfl⟩
      cases rows with
      | nil => cases areRows
      | cons row rows =>
        obtain ⟨isRow, areRows⟩ := List.cons.inj areRows
        exact Option.bind_eq_some_iff.mpr ⟨_, Option.map_eq_some_iff.mpr ⟨row, isRow.symm, rfl⟩,
          inductionHypothesis.mpr ⟨rows, areRows, rfl⟩⟩

theorem runAll_events_iff (canonical : List CanonicalEvent) :
    runAll columns (canonical.flatMap eventStatements) db = some after ↔
      ∃ contracts activities, contracts.map some = canonical.map (contractEventRow columns) ∧
        activities.map some = canonical.map (activityRow columns) ∧
        after = { db with
          contractEvents := insertAll ContractEventRow.key db.contractEvents contracts
          accountActivity := insertAll ActivityRow.key db.accountActivity activities } := by
  induction canonical generalizing db with
  | nil =>
    simp only [runAll, List.flatMap_nil, List.map_nil, applyAll_nil, Option.some.injEq,
      List.map_eq_nil_iff, exists_and_left, exists_eq_left, insertAll_nil]
    exact eq_comm
  | cons event canonical inductionHypothesis =>
    constructor
    · intro ran
      obtain ⟨middle, first, rest⟩ := Option.bind_eq_some_iff.mp ran
      obtain ⟨contract, isContract, rfl⟩ := Option.map_eq_some_iff.mp first
      obtain ⟨next, second, rest⟩ := Option.bind_eq_some_iff.mp rest
      obtain ⟨activity, isActivity, rfl⟩ := Option.map_eq_some_iff.mp second
      obtain ⟨contracts, activities, areContracts, areActivities, rfl⟩ :=
        inductionHypothesis.mp rest
      exact ⟨contract :: contracts, activity :: activities,
        by rw [List.map_cons, List.map_cons, isContract, areContracts],
        by rw [List.map_cons, List.map_cons, isActivity, areActivities], rfl⟩
    · rintro ⟨contracts, activities, areContracts, areActivities, rfl⟩
      cases contracts with
      | nil => cases areContracts
      | cons contract contracts =>
        cases activities with
        | nil => cases areActivities
        | cons activity activities =>
          obtain ⟨isContract, areContracts⟩ := List.cons.inj areContracts
          obtain ⟨isActivity, areActivities⟩ := List.cons.inj areActivities
          refine Option.bind_eq_some_iff.mpr ⟨_, Option.map_eq_some_iff.mpr
            ⟨contract, isContract.symm, rfl⟩, ?_⟩
          exact Option.bind_eq_some_iff.mpr ⟨_, Option.map_eq_some_iff.mpr
            ⟨activity, isActivity.symm, rfl⟩,
            inductionHypothesis.mpr ⟨contracts, activities, areContracts, areActivities, rfl⟩⟩

/-- What a batch leaves when all of it was written. -/
structure Written (columns : Columns ν) (stream : String) (lastSeq : Nat)
    (failures : List DeadLetterRecord) (canonical : List CanonicalEvent) (maxLedger : Nat)
    (db after : Database ν) : Prop where
  deadLetters : ∃ rows, rows.map some = failures.map (deadLetterRow columns) ∧
    after.deadLetters = insertAll DeadLetterRow.key db.deadLetters rows
  events : ∃ contracts activities, contracts.map some = canonical.map (contractEventRow columns) ∧
    activities.map some = canonical.map (activityRow columns) ∧
    after.contractEvents = insertAll ContractEventRow.key db.contractEvents contracts ∧
    after.accountActivity = insertAll ActivityRow.key db.accountActivity activities
  checkpoints : after.checkpoints = db.checkpoints ∨
    ∃ name, lastSeq < maxLedger ∧
      after.checkpoints = Function.update db.checkpoints name (some maxLedger)

theorem written_of_runAll {stream : String} {lastSeq maxLedger : Nat}
    {failures : List DeadLetterRecord} {canonical : List CanonicalEvent}
    (ran : runAll columns (batchStatements stream lastSeq failures canonical maxLedger) db =
      some after) :
    Written columns stream lastSeq failures canonical maxLedger db after := by
  rw [batchStatements, List.append_assoc, runAll_append] at ran
  obtain ⟨lettered, letters, rest⟩ := Option.bind_eq_some_iff.mp ran
  obtain ⟨rows, areRows, rfl⟩ := (runAll_deadLetters_iff failures).mp letters
  rw [runAll_append] at rest
  obtain ⟨inserted, insertions, save⟩ := Option.bind_eq_some_iff.mp rest
  obtain ⟨contracts, activities, areContracts, areActivities, rfl⟩ :=
    (runAll_events_iff canonical).mp insertions
  by_cases advanced : lastSeq < maxLedger
  · rw [if_pos advanced] at save
    obtain ⟨saved, isSaved, done⟩ := Option.bind_eq_some_iff.mp save
    obtain ⟨name, _, rfl⟩ := Option.map_eq_some_iff.mp isSaved
    cases done
    exact ⟨⟨rows, areRows, rfl⟩, ⟨contracts, activities, areContracts, areActivities, rfl, rfl⟩,
      .inr ⟨name, advanced, rfl⟩⟩
  · rw [if_neg advanced] at save
    cases save
    exact ⟨⟨rows, areRows, rfl⟩, ⟨contracts, activities, areContracts, areActivities, rfl, rfl⟩,
      .inl rfl⟩

end Leave

/-! ## The stores -/

section Stores

variable {ν : Type} (columns : Columns ν)

/-- `PostgresCheckpointStore` -/
def postgresCheckpointStore : CheckpointStore (Faulty (Database ν)) where
  load stream state := (.ok (loadCheckpoint stream state.store), state)
  save checkpoint := write ["save checkpoint"] (saveCheckpoint columns checkpoint)

/-- `PostgresEventSink` -/
def postgresEventSink : EventSink (Faulty (Database ν)) where
  persist := Attempt.forEach fun event => do
    write ["insert_contract_event"] (insertContractEvent columns event)
    write ["insert_activity"] (insertActivity columns event)

/-- `PostgresDeadLetterStore` -/
def postgresDeadLetterStore : DeadLetterStore (Faulty (Database ν)) where
  persistFailures := Attempt.forEach fun record =>
    write ["persist dead-letter record"] (insertDeadLetter columns record)

/-- The worker over Postgres, with a source that gives the same answer to the same question. -/
def postgresWorker (config : WorkerConfig) (events : Nat → Nat → List RawEvent) :
    IngestWorker (Faulty (Database ν)) where
  config := config
  checkpoint := postgresCheckpointStore columns
  source := steadySource events
  sink := postgresEventSink columns
  deadLetters := postgresDeadLetterStore columns

end Stores

/-! ## The statements a call runs -/

/-- A row without the time at which it was recorded. -/
def DeadLetterRow.timeless (row : DeadLetterRow) : DeadLetterRow := { row with createdAt := 0 }

/-- A database without the times at which dead letters were recorded. -/
def Database.timeless {ν : Type} (db : Database ν) : Database ν :=
  { db with deadLetters := db.deadLetters.map DeadLetterRow.timeless }

section Performs

variable {ν : Type} {columns : Columns ν} {config : WorkerConfig}
  {events : Nat → Nat → List RawEvent} {db : Database ν} {lastSeq : Nat}

theorem timeless_deadLetterRow (record : DeadLetterRecord) :
    deadLetterRow columns record.timeless =
      (deadLetterRow columns record).map DeadLetterRow.timeless := by
  simp only [deadLetterRow, DeadLetterRecord.timeless, DeadLetterRow.timeless, Option.map_bind,
    Function.comp_def, bind, pure, Option.map_some]

/-- A statement does the same to a database whose times are hidden. -/
theorem timeless_insertDeadLetter (record : DeadLetterRecord) :
    insertDeadLetter columns record.timeless db.timeless =
      (insertDeadLetter columns record db).map Database.timeless := by
  simp only [insertDeadLetter, timeless_deadLetterRow, Option.map_map, Database.timeless]
  congr 1
  funext row
  simp only [Function.comp_apply]
  have rows : (insertNew DeadLetterRow.key db.deadLetters row).map DeadLetterRow.timeless =
      insertNew DeadLetterRow.key (db.deadLetters.map DeadLetterRow.timeless) row.timeless :=
    map_insertNew fun _ => rfl
  rw [← rows]
  rfl

theorem timeless_insertContractEvent (event : CanonicalEvent) :
    insertContractEvent columns event db.timeless =
      (insertContractEvent columns event db).map Database.timeless := by
  simp only [insertContractEvent, Option.map_map]
  rfl

theorem timeless_insertActivity (event : CanonicalEvent) :
    insertActivity columns event db.timeless =
      (insertActivity columns event db).map Database.timeless := by
  simp only [insertActivity, Option.map_map]
  rfl

theorem timeless_saveCheckpoint (checkpoint : Checkpoint) :
    saveCheckpoint columns checkpoint db.timeless =
      (saveCheckpoint columns checkpoint db).map Database.timeless := by
  simp only [saveCheckpoint, Option.map_map]
  rfl

variable (columns) in
/-- The sink writes two statements for every event. -/
theorem persist_performs {view : Database ν → Database ν}
    (contract : ∀ event db, insertContractEvent columns event (view db) =
      (insertContractEvent columns event db).map view)
    (activity : ∀ event db, insertActivity columns event (view db) =
      (insertActivity columns event db).map view) (canonical : List CanonicalEvent) :
    Performs view ((canonical.flatMap eventStatements).map (Statement.run columns))
      ((postgresEventSink columns).persist canonical) := by
  rw [List.map_flatMap]
  exact Performs.forEach (fun event => (Performs.write _ (contract event)).bind fun _ =>
    Performs.write _ (activity event)) canonical

variable (columns) in
/-- The dead-letter store writes one statement for every record. -/
theorem persistFailures_performs (records : List DeadLetterRecord) :
    Performs Database.timeless
      ((records.map DeadLetterRecord.timeless).map fun record =>
        Statement.run columns (.deadLetter record))
      ((postgresDeadLetterStore columns).persistFailures records) := by
  rw [List.map_map, List.map_eq_flatMap]
  exact Performs.forEach (fun record =>
    Performs.write _ fun db => timeless_insertDeadLetter record) records

variable (columns config events lastSeq) in
/-- The writes of a batch are its statements. -/
theorem commit_performs (collected : Batch) :
    Performs Database.timeless
      ((batchStatements config.stream lastSeq
        (collected.failures.map DeadLetterRecord.timeless) collected.canonical
        collected.maxLedger).map (Statement.run columns))
      (commit (postgresWorker columns config events) lastSeq collected) := by
  have deadLetters := persistFailures_performs columns collected.failures
  have canonical : Performs Database.timeless
      ((collected.canonical.flatMap eventStatements).map (Statement.run columns))
      ((postgresEventSink columns).persist collected.canonical) :=
    persist_performs columns (fun event db => timeless_insertContractEvent event)
      (fun event db => timeless_insertActivity event) collected.canonical
  have checkpoint : Performs Database.timeless
      [Statement.run columns (.saveCheckpoint ⟨config.stream, collected.maxLedger⟩)]
      ((postgresCheckpointStore columns).save ⟨config.stream, collected.maxLedger⟩) :=
    Performs.write _ fun db => timeless_saveCheckpoint _
  rw [batchStatements, List.map_append, List.map_append, List.append_assoc, List.map_map]
  unfold commit
  apply Performs.bind
  · apply Performs.when
    · exact fun _ => deadLetters.mapError _
    · intro none
      rw [not_not.mp none, List.map_nil, List.map_nil]
  intro _
  apply Performs.bind
  · apply Performs.when
    · exact fun _ => canonical.mapError _
    · intro none
      rw [not_not.mp none, List.flatMap_nil, List.map_nil]
  intro _
  apply Performs.when
  · intro advanced
    rw [if_pos advanced]
    exact checkpoint.mapError _
  · intro stays
    rw [if_neg stays, List.map_nil]

end Performs

/-! ## One call -/

section Call

variable {ν : Type} (columns : Columns ν) (config : WorkerConfig)
  (events : Nat → Nat → List RawEvent) (decodeTopic : String → String)

/-- The ledger of the checkpoint, zero without one. -/
def Database.position {ν : Type} (db : Database ν) (stream : String) : Nat :=
  (db.checkpoints stream).getD 0

/-- The events a call does not skip. -/
def batchOf (db : Database ν) : List RawEvent :=
  fresh (db.position config.stream) (events (db.position config.stream) config.batchSize)

/-- The statements of a call, as the checkpoint and the source determine them. -/
def statementsOf (db : Database ν) : List Statement :=
  batchStatements config.stream (db.position config.stream)
    ((batchOf config events db).filterMap (rejected decodeTopic config.stream))
    ((batchOf config events db).filterMap (accepted decodeTopic))
    (((batchOf config events db).map RawEvent.ledgerSeq).foldl max (db.position config.stream))

variable {columns} {config} {events} {decodeTopic} {clock : Nat → Timestamp}
  {before after : Faulty (Database ν)} {stats : BatchStats} {error : IngestError}

theorem loaded_checkpoint (db : Database ν) (stream : String) :
    ((loadCheckpoint stream db).map Checkpoint.lastLedgerSeq).getD 0 = db.position stream := by
  unfold loadCheckpoint Database.position
  cases db.checkpoints stream <;> rfl

/-- A call writes its statements: all of them when it succeeds, a part of them when it fails. -/
theorem runOnce_writes :
    (∀ stats, runOnce (postgresWorker columns config events) decodeTopic clock before =
        (.ok stats, after) →
      Finished Database.timeless
        ((statementsOf config events decodeTopic before.store).map (Statement.run columns))
        before after) ∧
    (∀ error, runOnce (postgresWorker columns config events) decodeTopic clock before =
        (.error error, after) →
      Stopped Database.timeless
        ((statementsOf config events decodeTopic before.store).map (Statement.run columns))
        before after) := by
  have position := loaded_checkpoint before.store config.stream
  generalize reached : before.store.position config.stream = lastSeq at position
  by_cases nothing : events lastSeq config.batchSize = []
  · obtain ⟨stats, _, run⟩ :=
      runOnce_of_nothing (postgresWorker columns config events) decodeTopic clock before rfl
        position rfl nothing
    have none : statementsOf config events decodeTopic before.store = [] := by
      simp [statementsOf, batchOf, batchStatements, reached, nothing, fresh]
    rw [run, none]
    refine ⟨?_, ?_⟩
    · rintro stats ⟨⟩
      exact ⟨rfl, le_rfl⟩
    · rintro error ⟨⟩
  · have run := runOnce_of_fetched (postgresWorker columns config events) decodeTopic clock before
      rfl position rfl nothing
    have commits := commit_performs columns config events lastSeq
      (collect decodeTopic config.stream clock lastSeq (events lastSeq config.batchSize))
    have performs := commits.bind fun _ => Performs.pure
      ((collect decodeTopic config.stream clock lastSeq
        (events lastSeq config.batchSize)).stats (events lastSeq config.batchSize).length)
    rw [collect_failures, collect_canonical, collect_maxLedger, List.append_nil] at performs
    simp only [statementsOf, batchOf, reached]
    exact ⟨fun stats done => performs.finished (run.symm.trans done),
      fun error failed => performs.stopped (run.symm.trans failed)⟩

end Call

end Ancore.Indexer