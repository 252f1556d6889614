import Ancore.Library.Attempt
import Ancore.Library.KeyedTable
import Ancore.Indexer.Events

/-! # The indexer's tables

The four tables ingestion writes to and the statements that write them.  Every
insert is `ON CONFLICT .. DO NOTHING` on the table's unique key, so the first row
of a key stays; the checkpoint is an upsert.

What Postgres makes of a text bound to a column, or refuses, is the parameter
`columns`.
-/

namespace Ancore.Indexer

open Ancore.Library

/-- How the database takes texts: into a `VARCHAR(n)` column, or cast to `NUMERIC`.  `none` is an
error of the statement. -/
structure Columns (ν : Type) where
  varchar : Nat → String → Option String
  numeric : String → Option ν
  /-- Whether a document holding these texts is accepted as `JSONB`. -/
  jsonb : List String → Bool

/-- Columns that take every short text and no amount. -/
def sampleColumns : Columns Int where
  varchar _ text := some text
  numeric _ := none
  jsonb _ := true

/-! ## Rows -/

/-- The JSON document stored with a contract event. -/
structure EventData where
  kind : String
  topics : List String
  amount : Option String
  asset : Option String
  counterparty : Option String
  data : String
deriving DecidableEq

def EventData.texts (document : EventData) : List String :=
  document.kind :: document.data :: document.topics ++
    [document.amount, document.asset, document.counterparty].reduceOption

structure ContractEventRow where
  contractAddress : String
  accountId : String
  eventType : String
  ledgerSeq : Nat
  timestamp : Timestamp
  txHash : String
  data : EventData
deriving DecidableEq

structure ActivityRow (ν : Type) where
  accountId : String
  activityType : String
  amount : Option ν
  asset : Option String
  assetCode : Option String
  assetIssuer : Option String
  counterparty : Option String
  txHash : String
  ledgerSeq : Nat
  createdAt : Timestamp
deriving DecidableEq

structure DeadLetterRow where
  stream : String
  ledgerSeq : Nat
  txHash : String
  contractId : String
  errorMessage : String
  rawPayload : RawEvent
  createdAt : Timestamp
  reprocessedAt : Option Timestamp
deriving DecidableEq

/-- The unique key `(tx_hash, event_type, ledger_seq)`. -/
def ContractEventRow.key (row : ContractEventRow) : String × String × Nat :=
  (row.txHash, row.eventType, row.ledgerSeq)

/-- The unique key `(tx_hash, activity_type, ledger_seq)`. -/
def ActivityRow.key {ν : Type} (row : ActivityRow ν) : String × String × Nat :=
  (row.txHash, row.activityType, row.ledgerSeq)

/-- The unique key `(stream, ledger_seq, tx_hash)`. -/
def DeadLetterRow.key (row : DeadLetterRow) : String × Nat × String :=
  (row.stream, row.ledgerSeq, row.txHash)

structure Database (ν : Type) where
  contractEvents : List ContractEventRow
  accountActivity : List (ActivityRow ν)
  deadLetters : List DeadLetterRow
  /-- `last_ledger_seq` of each stream. -/
  checkpoints : String → Option Nat

def Database.empty {ν : Type} : Database ν where
  contractEvents := []
  accountActivity := []
  deadLetters := []
  checkpoints _ := none

/-! ## Records -/

/-- A raw event that could not be normalised. -/
structure DeadLetterRecord where
  stream : String
  ledgerSeq : Nat
  error : String
  raw : RawEvent
  failedAt : Timestamp
deriving DecidableEq

structure Checkpoint where
  stream : String
  lastLedgerSeq : Nat
deriving DecidableEq

/-- `str::split_once` -/
def splitOnce (separator : Char) (text : String) : Option (String × String) :=
  match text.toList.span (· ≠ separator) with
  | (_, []) => none
  | (head, _ :: tail) => some (String.ofList head, String.ofList tail)

/-- Split a raw asset string into asset code and issuer. -/
def normalizeAsset : Option String → Option String × Option String
  | none => (none, none)
  | some "native" => (some "XLM", none)
  | some asset =>
    match splitOnce ':' asset with
    | some (code, issuer) => (some code, some issuer)
    | none => (some asset, none)

/-! ## Statements -/

section Statements

variable {ν : Type} (columns : Columns ν)

/-- A nullable text column. -/
def Columns.varchar? (width : Nat) : Option String → Option (Option String)
  | none => some none
  | some text => (columns.varchar width text).map some

/-- A nullable `NUMERIC` column. -/
def Columns.numeric? : Option String → Option (Option ν)
  | none => some none
  | some text => (columns.numeric text).map some

/-- A `JSONB` column. -/
def Columns.document {α : Type} (texts : List String) (document : α) : Option α :=
  if columns.jsonb texts then some document else none

/-- The document the sink stores with an event. -/
def eventData (event : CanonicalEvent) : EventData where
  kind := event.kind.toText
  topics := event.raw.topics
  amount := event.amount
  asset := event.asset
  counterparty := event.counterparty
  data := event.raw.data

/-- The row of `insert_contract_event`, as the sink fills it. -/
def contractEventRow (event : CanonicalEvent) : Option ContractEventRow := do
  return {
    contractAddress := ← columns.varchar 56 event.contractId
    accountId := ← columns.varchar 56 event.accountId
    eventType := ← columns.varchar 50 event.kind.toText
    ledgerSeq := event.ledgerSeq
    timestamp := event.occurredAt
    txHash := ← columns.varchar 64 event.txHash
    data := ← columns.document (eventData event).texts (eventData event) }

/-- The row of `insert_activity`, as the sink fills it. -/
def activityRow (event : CanonicalEvent) : Option (ActivityRow ν) := do
  return {
    accountId := ← columns.varchar 56 event.accountId
    activityType := ← columns.varchar 50 event.kind.toText
    amount := ← columns.numeric? event.amount
    asset := ← columns.varchar? 100 event.asset
    assetCode := ← columns.varchar? 12 (normalizeAsset event.asset).1
    assetIssuer := ← columns.varchar? 56 (normalizeAsset event.asset).2
    counterparty := ← columns.varchar? 56 event.counterparty
    txHash := ← columns.varchar 64 event.txHash
    ledgerSeq := event.ledgerSeq
    createdAt := event.occurredAt }

/-- The row of a dead-letter record. -/
def deadLetterRow (record : DeadLetterRecord) : Option DeadLetterRow := do
  return {
    stream := ← columns.varchar 64 record.stream
    ledgerSeq := record.ledgerSeq
    txHash := ← columns.varchar 64 record.raw.txHash
    contractId := ← columns.varchar 56 record.raw.contractId
    errorMessage := record.error
    rawPayload := ← columns.document record.raw.texts record.raw
    createdAt := record.failedAt
    reprocessedAt := none }

/-- `insert_contract_event` -/
def insertContractEvent (event : CanonicalEvent) (db : Database ν) : Option (Database ν) :=
  (contractEventRow columns event).map fun row =>
    { db with contractEvents := insertNew ContractEventRow.key db.contractEvents row }

/-- `insert_activity` -/
def insertActivity (event : CanonicalEvent) (db : Database ν) : Option (Database ν) :=
  (activityRow columns event).map fun row =>
    { db with accountActivity := insertNew ActivityRow.key db.accountActivity row }

def insertDeadLetter (record : DeadLetterRecord) (db : Database ν) : Option (Database ν) :=
  (deadLetterRow columns record).map fun row =>
    { db with deadLetters := insertNew DeadLetterRow.key db.deadLetters row }

/-- `checkpoint::save` -/
def saveCheckpoint (checkpoint : Checkpoint) (db : Database ν) : Option (Database ν) :=
  (columns.varchar 64 checkpoint.stream).map fun stream =>
    { db with
      checkpoints := Function.update db.checkpoints stream (some checkpoint.lastLedgerSeq) }

/-- `checkpoint::load` -/
def loadCheckpoint (stream : String) (db : Database ν) : Option Checkpoint :=
  (db.checkpoints stream).map fun seq => { stream := stream, lastLedgerSeq := seq }

/-! ## The keys of the rows -/

variable {columns} {event : CanonicalEvent} {record : DeadLetterRecord}

theorem contractEventRow_key {row : ContractEventRow}
    (isRow : contractEventRow columns event = some row) :
    columns.varchar 64 event.txHash = some row.txHash ∧
      columns.varchar 50 event.kind.toText = some row.eventType ∧
      row.ledgerSeq = event.ledgerSeq := by
  simp only [contractEventRow, bind, pure, Option.bind_eq_some_iff, Option.some.injEq] at isRow
  obtain ⟨_, _, _, _, eventType, isType, txHash, isHash, _, _, rfl⟩ := isRow
  exact ⟨isHash, isType, rfl⟩

theorem activityRow_key {row : ActivityRow ν} (isRow : activityRow columns event = some row) :
    columns.varchar 64 event.txHash = some row.txHash ∧
      columns.varchar 50 event.kind.toText = some row.activityType ∧
      row.ledgerSeq = event.ledgerSeq := by
  simp only [activityRow, bind, pure, Option.bind_eq_some_iff, Option.some.injEq] at isRow
  obtain ⟨_, _, activityType, isType, _, _, _, _, _, _, _, _, _, _, txHash, isHash, rfl⟩ := isRow
  exact ⟨isHash, isType, rfl⟩

/-- Both rows of an event have one key. -/
theorem activity_key_eq {contract : ContractEventRow} {activity : ActivityRow ν}
    (isContract : contractEventRow columns event = some contract)
    (isActivity : activityRow columns event = some activity) : activity.key = contract.key := by
  obtain ⟨contractHash, contractType, contractLedger⟩ := contractEventRow_key isContract
  obtain ⟨activityHash, activityType, activityLedger⟩ := activityRow_key isActivity
  have sameHash := Option.some.inj (activityHash.symm.trans contractHash)
  have sameType := Option.some.inj (activityType.symm.trans contractType)
  simp only [ActivityRow.key, ContractEventRow.key, sameHash, sameType, activityLedger,
    contractLedger]

theorem deadLetterRow_key {row : DeadLetterRow} (isRow : deadLetterRow columns record = some row) :
    columns.varchar 64 record.stream = some row.stream ∧ row.ledgerSeq = record.ledgerSeq ∧
      columns.varchar 64 record.raw.txHash = some row.txHash ∧ row.rawPayload = record.raw := by
  simp only [deadLetterRow, Columns.document, bind, pure, Option.bind_eq_some_iff,
    Option.some.injEq] at isRow
  obtain ⟨stream, isStream, txHash, isHash, _, _, payload, isPayload, rfl⟩ := isRow
  split at isPayload
  · exact ⟨isStream, rfl, isHash, (Option.some.inj isPayload).symm⟩
  · cases isPayload

end Statements

end Ancore.Indexer
