import Ancore.Indexer.Recovery

/-! # What becomes of rejected events

The unique key of the dead letters is made of stream, ledger and transaction hash,
so that a retried batch adds no row.  A rejected event often lacks its transaction
hash; then all such events of a ledger have one key, and only the first is kept.
-/

namespace Ancore.Indexer

open Ancore.Library

/-- The record a row was written from. -/
def DeadLetterRow.record (row : DeadLetterRow) : DeadLetterRecord where
  stream := row.stream
  ledgerSeq := row.ledgerSeq
  error := row.errorMessage
  raw := row.rawPayload
  failedAt := row.createdAt

/-- List up to `limit` dead-letter rows not yet marked reprocessed, oldest first. -/
def listUnprocessed {ν : Type} (limit : Nat) (db : Database ν) : List DeadLetterRecord :=
  (((db.deadLetters.filter fun row => row.reprocessedAt.isNone).insertionSort
    fun one other => one.createdAt ≤ other.createdAt).take limit).map DeadLetterRow.record

/-- What the unique key sees of a rejected event. -/
def letterKey {ν : Type} (columns : Columns ν) (stream : String) (raw : RawEvent) :
    Option String × Nat × Option String :=
  (columns.varchar 64 stream, raw.ledgerSeq, columns.varchar 64 raw.txHash)

/-- A key of the table, as a key of an event. -/
def DeadLetterRow.letterKey (row : DeadLetterRow) : Option String × Nat × Option String :=
  (some row.stream, row.ledgerSeq, some row.txHash)

/-- The events of a batch that have no canonical form. -/
def rejects (config : WorkerConfig) (events : Nat → Nat → List RawEvent)
    (decodeTopic : String → String) {ν : Type} (db : Database ν) : List RawEvent :=
  (batchOf config events db).filter fun raw => (rejected decodeTopic config.stream raw).isSome

section Letters

variable {ν : Type} {columns : Columns ν} {config : WorkerConfig}
  {events : Nat → Nat → List RawEvent} {decodeTopic : String → String}
  {clock : Nat → Timestamp} {before after : Faulty (Database ν)} {db : Database ν}

/-- A row that is not reprocessed can be listed. -/
theorem listed_of_unprocessed {row : DeadLetterRow} (member : row ∈ db.deadLetters)
    (unprocessed : row.reprocessedAt = none) :
    ∃ limit, row.record ∈ listUnprocessed limit db := by
  refine ⟨(db.deadLetters.filter fun row => row.reprocessedAt.isNone).length, ?_⟩
  apply List.mem_map_of_mem
  rw [List.take_of_length_le (List.length_insertionSort _ _).le, List.mem_insertionSort]
  exact List.mem_filter.mpr ⟨member, by simp [unprocessed]⟩

/-- The row written for a rejected event. -/
theorem letter_of_rejected {stream : String} {raw : RawEvent} {record : DeadLetterRecord}
    {row : DeadLetterRow} (isRejected : rejected decodeTopic stream raw = some record)
    (isRow : deadLetterRow columns record = some row) :
    row.letterKey = letterKey columns stream raw ∧ row.rawPayload = raw := by
  obtain ⟨isRaw, isStream, isLedger⟩ := raw_of_rejected isRejected
  obtain ⟨streamStored, ledgerStored, hashStored, payload⟩ := deadLetterRow_key isRow
  rw [isStream] at streamStored
  rw [isRaw] at hashStored payload
  refine ⟨?_, payload⟩
  rw [DeadLetterRow.letterKey, letterKey, streamStored, hashStored, ledgerStored, isLedger]

theorem letterKey_eq_iff {one other : DeadLetterRow} :
    one.letterKey = other.letterKey ↔ one.key = other.key := by
  simp [DeadLetterRow.letterKey, DeadLetterRow.key]

/-- A row with the key of an event holds its payload. -/
def Holds (db : Database ν) (key : Option String × Nat × Option String) (raw : RawEvent) : Prop :=
  ∃ row ∈ db.deadLetters, row.letterKey = key ∧ row.rawPayload = raw

theorem holds_timeless_iff {key : Option String × Nat × Option String} {raw : RawEvent} :
    Holds db.timeless key raw ↔ Holds db key raw := by
  constructor
  · rintro ⟨_, member, isKey, payload⟩
    obtain ⟨row, inTable, rfl⟩ := List.mem_map.mp member
    exact ⟨row, inTable, isKey, payload⟩
  · rintro ⟨row, inTable, isKey, payload⟩
    exact ⟨row.timeless, List.mem_map_of_mem inTable, isKey, payload⟩

/-- What a successful call writes for the rejected events, times hidden. -/
theorem letters_of_ok {stats : BatchStats}
    (run : runOnce (postgresWorker columns config events) decodeTopic clock before =
      (.ok stats, after)) :
    ∃ rows, after.store.timeless.deadLetters =
        insertAll DeadLetterRow.key before.store.timeless.deadLetters rows ∧
      (∀ raw ∈ rejects config events decodeTopic before.store, ∃ row ∈ rows,
        row.letterKey = letterKey columns config.stream raw ∧ row.rawPayload = raw) ∧
      ∀ row ∈ rows, ∃ raw ∈ rejects config events decodeTopic before.store,
        row.letterKey = letterKey columns config.stream raw ∧ row.rawPayload = raw := by
  obtain ⟨rows, areRows, written⟩ := (written_of_ok run).deadLetters
  refine ⟨rows, written, ?_, ?_⟩
  · intro raw member
    obtain ⟨inBatch, isSome⟩ := List.mem_filter.mp member
    obtain ⟨record, isRejected⟩ := Option.isSome_iff_exists.mp isSome
    have isRecord := List.mem_map_of_mem (f := deadLetterRow columns)
      (List.mem_filterMap.mpr ⟨raw, inBatch, isRejected⟩)
    rw [← areRows] at isRecord
    obtain ⟨row, inRows, isRow⟩ := List.mem_map.mp isRecord
    exact ⟨row, inRows, letter_of_rejected isRejected isRow.symm⟩
  · intro row inRows
    have isRow := List.mem_map_of_mem (f := some) inRows
    rw [areRows] at isRow
    obtain ⟨record, isRecord, isRow⟩ := List.mem_map.mp isRow
    obtain ⟨raw, inBatch, isRejected⟩ := List.mem_filterMap.mp isRecord
    exact ⟨raw, List.mem_filter.mpr ⟨inBatch, by simp [isRejected]⟩,
      letter_of_rejected isRejected isRow⟩

section Insert

variable {table rows : List DeadLetterRow} {key : Option String × Nat × Option String}
  {row other : DeadLetterRow}

theorem taken_letter_kept (taken : ∃ row ∈ table, row.letterKey = key)
    (isKey : row.letterKey = key) :
    row ∈ insertAll DeadLetterRow.key table rows ↔ row ∈ table := by
  obtain ⟨first, inTable, isFirst⟩ := taken
  have sameKey : row.key = first.key := letterKey_eq_iff.mp (isKey.trans isFirst.symm)
  have taken : first.key ∈ table.map DeadLetterRow.key := List.mem_map_of_mem inTable
  have kept : (insertAll DeadLetterRow.key table rows).filter (fun row => row.key = first.key) =
      table.filter fun row => row.key = first.key :=
    filter_insertAll_of_mem taken
  have members : row ∈ _ ↔ row ∈ _ := Eq.to_iff (congrArg (row ∈ ·) kept)
  simpa [List.mem_filter, sameKey] using members

theorem free_letter_single (free : ∀ row ∈ table, row.letterKey ≠ key)
    (isRow : row ∈ insertAll DeadLetterRow.key table rows) (isKey : row.letterKey = key) :
    row ∈ rows ∧ ∀ other ∈ insertAll DeadLetterRow.key table rows, other.letterKey = key →
      other = row := by
  have isFree : row.key ∉ table.map DeadLetterRow.key := by
    intro taken
    obtain ⟨stored, inTable, same⟩ := List.mem_map.mp taken
    exact free stored inTable ((letterKey_eq_iff.mpr same).trans isKey)
  have only : (insertAll DeadLetterRow.key table rows).filter
      (fun stored => stored.key = row.key) =
        (rows.find? fun stored => stored.key = row.key).toList :=
    filter_insertAll_of_not_mem isFree
  have found : ∀ other ∈ insertAll DeadLetterRow.key table rows, other.letterKey = key →
      rows.find? (fun stored => stored.key = row.key) = some other := by
    intro other member otherKey
    have sameKey : other.key = row.key := letterKey_eq_iff.mp (otherKey.trans isKey.symm)
    have inFilter : other ∈ (insertAll DeadLetterRow.key table rows).filter
        fun stored => stored.key = row.key :=
      List.mem_filter.mpr ⟨member, decide_eq_true sameKey⟩
    rw [only, Option.mem_toList] at inFilter
    exact inFilter
  refine ⟨List.mem_of_find?_eq_some (found row isRow isKey), ?_⟩
  intro other member otherKey
  exact Option.some.inj ((found other member otherKey).symm.trans (found row isRow isKey))

end Insert

/-- Statements whose dead letters are stored already leave the table alone. -/
theorem runAll_keeps_letters {statements : List Statement} {reached : Database ν}
    (stored : ∀ record, .deadLetter record ∈ statements →
      (Statement.deadLetter record).Settled columns db)
    (ran : runAll columns statements db = some reached) : reached.deadLetters = db.deadLetters := by
  induction statements generalizing db with
  | nil =>
    cases ran
    rfl
  | cons statement statements inductionHypothesis =>
    obtain ⟨middle, first, rest⟩ := Option.bind_eq_some_iff.mp ran
    have same : middle.deadLetters = db.deadLetters := by
      cases statement with
      | deadLetter record =>
        have settled := run_eq_self_iff.mpr (stored record List.mem_cons_self)
        cases settled.symm.trans first
        rfl
      | contractEvent event =>
        obtain ⟨row, _, rfl⟩ := Option.map_eq_some_iff.mp first
        rfl
      | activity event =>
        obtain ⟨row, _, rfl⟩ := Option.map_eq_some_iff.mp first
        rfl
      | saveCheckpoint checkpoint =>
        obtain ⟨name, _, rfl⟩ := Option.map_eq_some_iff.mp first
        rfl
    rw [← same]
    apply inductionHypothesis _ rest
    intro record member
    obtain ⟨row, isRow, inTable⟩ := stored record (List.mem_cons_of_mem _ member)
    exact ⟨row, isRow, same ▸ inTable⟩

/-- The database after a batch, with the checkpoints from before it: the batch comes again. -/
def rewound (before after : Faulty (Database ν)) : Faulty (Database ν) :=
  { after with store := { after.store with checkpoints := before.store.checkpoints } }

/-- Retrying a batch adds no dead letter. -/
theorem retry_adds_no_letter {stats : BatchStats} {again : Faulty (Database ν)}
    {retryClock : Nat → Timestamp} {result : Except IngestError BatchStats}
    (run : runOnce (postgresWorker columns config events) decodeTopic clock before =
      (.ok stats, after))
    (retry : runOnce (postgresWorker columns config events) decodeTopic retryClock
      (rewound before after) = (result, again)) :
    again.store.deadLetters.length = after.store.deadLetters.length := by
  have sameStatements : statementsOf config events decodeTopic (rewound before after).store =
      statementsOf config events decodeTopic before.store := rfl
  have settled := applyAll_settled batch_repeatable (complete_of_ok run)
  obtain ⟨part, rest, split, ran⟩ : ∃ part rest,
      statementsOf config events decodeTopic before.store = part ++ rest ∧
        runAll columns part (rewound before after).store.timeless = some again.store.timeless := by
    rw [← sameStatements]
    cases result with
    | ok stats => exact ⟨_, [], by simp, (runOnce_writes.1 stats retry).applied⟩
    | error error =>
      obtain ⟨done, rest, split, _, written⟩ := (runOnce_writes.2 error retry).written
      obtain ⟨part, left, isSplit, rfl, rfl⟩ := List.map_eq_append_iff.mp split
      exact ⟨part, left, isSplit, written⟩
  have stored : ∀ record, .deadLetter record ∈ part →
      (Statement.deadLetter record).Settled columns (rewound before after).store.timeless := by
    intro record member
    have inBatch : .deadLetter record ∈ statementsOf config events decodeTopic before.store :=
      split ▸ List.mem_append_left rest member
    have isSettled : (Statement.deadLetter record).Settled columns after.store.timeless :=
      run_eq_self_iff.mp (settled _ (List.mem_map_of_mem inBatch))
    exact isSettled
  have kept := congrArg List.length (runAll_keeps_letters stored ran)
  simpa [Database.timeless, rewound] using kept

/-- The payload of every rejected event of a batch is stored after it, and a retry adds no row,
exactly when each of them finds its payload under its key already, or finds its key free of
earlier rows and of other rejected events of the batch. -/
theorem letters_kept_iff {stats : BatchStats}
    (run : runOnce (postgresWorker columns config events) decodeTopic clock before =
      (.ok stats, after)) :
    ((∀ raw ∈ rejects config events decodeTopic before.store, ∃ row ∈ after.store.deadLetters,
        row.letterKey = letterKey columns config.stream raw ∧ row.rawPayload = raw ∧
        (row.reprocessedAt = none → ∃ limit, row.record ∈ listUnprocessed limit after.store)) ∧
      ∀ retryClock result again, runOnce (postgresWorker columns config events) decodeTopic
          retryClock (rewound before after) = (result, again) →
        again.store.deadLetters.length = after.store.deadLetters.length) ↔
    ∀ raw ∈ rejects config events decodeTopic before.store,
      (∃ row ∈ before.store.deadLetters,
        row.letterKey = letterKey columns config.stream raw ∧ row.rawPayload = raw) ∨
      (∀ row ∈ before.store.deadLetters, row.letterKey ≠ letterKey columns config.stream raw) ∧
        ∀ other ∈ rejects config events decodeTopic before.store,
          letterKey columns config.stream other = letterKey columns config.stream raw →
            other = raw := by
  obtain ⟨rows, written, rowOf, ofRow⟩ := letters_of_ok run
  constructor
  · rintro ⟨kept, _⟩ raw member
    have holds : ∀ raw ∈ rejects config events decodeTopic before.store,
        Holds after.store.timeless (letterKey columns config.stream raw) raw := by
      intro raw member
      obtain ⟨row, inTable, isKey, payload, _⟩ := kept raw member
      exact holds_timeless_iff.mpr ⟨row, inTable, isKey, payload⟩
    obtain ⟨row, inTable, isKey, payload⟩ := holds raw member
    rw [written] at inTable
    by_cases taken : ∃ row ∈ before.store.timeless.deadLetters,
        row.letterKey = letterKey columns config.stream raw
    · left
      exact holds_timeless_iff.mp ⟨row, (taken_letter_kept taken isKey).mp inTable, isKey, payload⟩
    · right
      push Not at taken
      refine ⟨fun row inBefore => taken row.timeless (List.mem_map_of_mem inBefore), ?_⟩
      intro other otherMember sameKey
      obtain ⟨otherRow, otherInTable, otherKey, otherPayload⟩ := holds other otherMember
      rw [written] at otherInTable
      have same := (free_letter_single taken inTable isKey).2 otherRow otherInTable
        (otherKey.trans sameKey)
      rw [← otherPayload, ← payload, same]
  · intro condition
    refine ⟨?_, fun retryClock result again retry => retry_adds_no_letter run retry⟩
    intro raw member
    have holds : Holds after.store.timeless (letterKey columns config.stream raw) raw := by
      rcases condition raw member with earlier | ⟨free, single⟩
      · obtain ⟨row, inTable, isKey, payload⟩ := holds_timeless_iff.mpr earlier
        refine ⟨row, ?_, isKey, payload⟩
        rw [written]
        exact (taken_letter_kept ⟨row, inTable, isKey⟩ isKey).mpr inTable
      · obtain ⟨row, inRows, isKey, _⟩ := rowOf raw member
        have arrived : row.key ∈ (insertAll DeadLetterRow.key before.store.timeless.deadLetters
            rows).map DeadLetterRow.key :=
          mem_keys_insertAll.mpr (.inr (List.mem_map_of_mem inRows))
        obtain ⟨kept, inTable, sameKey⟩ := List.mem_map.mp arrived
        have keptKey : kept.letterKey = letterKey columns config.stream raw :=
          (letterKey_eq_iff.mpr sameKey).trans isKey
        have freeTimeless : ∀ row ∈ before.store.timeless.deadLetters,
            row.letterKey ≠ letterKey columns config.stream raw := by
          intro row inBefore
          obtain ⟨stored, inStored, rfl⟩ := List.mem_map.mp inBefore
          exact free stored inStored
        obtain ⟨other, otherMember, otherKey, payload⟩ :=
          ofRow kept (free_letter_single freeTimeless inTable keptKey).1
        have isRaw := single other otherMember (otherKey.symm.trans keptKey)
        exact ⟨kept, written ▸ inTable, keptKey, payload.trans isRaw⟩
    obtain ⟨row, inTable, isKey, payload⟩ := holds_timeless_iff.mp holds
    exact ⟨row, inTable, isKey, payload,
      fun unprocessed => listed_of_unprocessed inTable unprocessed⟩

end Letters

/-- An event without a transaction hash; the data tells two of them apart. -/
def sampleReject (data : String) : RawEvent where
  ledgerSeq := 5
  ledgerCloseTime := 0
  txHash := ""
  contractId := "CA"
  topics := ["upgraded"]
  data := data

/-- One rejected event in a ledger. -/
theorem letters_kept_of_sample :
    ∃ stats after, runOnce (postgresWorker sampleColumns ⟨"main", 2⟩ fun _ _ => [sampleReject "a"])
        id (fun _ => 1) ⟨Database.empty, []⟩ = (.ok stats, after) ∧
      ∃ row ∈ after.store.deadLetters, row.rawPayload = sampleReject "a" := by
  have succeeds : (runOnce (postgresWorker sampleColumns ⟨"main", 2⟩ fun _ _ => [sampleReject "a"])
      id (fun _ => 1) ⟨Database.empty, []⟩).1.isOk = true := by
    decide
  cases run : runOnce (postgresWorker sampleColumns ⟨"main", 2⟩ fun _ _ => [sampleReject "a"])
      id (fun _ => 1) ⟨Database.empty, []⟩ with
  | mk result after =>
    rw [run] at succeeds
    cases result with
    | error error => cases succeeds
    | ok stats =>
      obtain ⟨row, inTable, _, payload, _⟩ := ((letters_kept_iff run).mpr (by decide)).1
        (sampleReject "a") (by decide)
      exact ⟨stats, after, rfl, row, inTable, payload⟩

/-- Two rejected events in a ledger: the second is not stored. -/
theorem second_reject_not_stored :
    ¬ ∀ (config : WorkerConfig) (events : Nat → Nat → List RawEvent)
      (before after : Faulty (Database Int)) (stats : BatchStats),
      runOnce (postgresWorker sampleColumns config events) id (fun _ => 1) before =
        (.ok stats, after) →
      ∀ raw ∈ rejects config events id before.store,
        ∃ row ∈ after.store.deadLetters, row.rawPayload = raw := by
  intro claim
  have stored : (runOnce (postgresWorker sampleColumns ⟨"main", 2⟩
      fun _ _ => [sampleReject "a", sampleReject "b"]) id (fun _ => 1)
      ⟨Database.empty, []⟩).2.store.deadLetters.map DeadLetterRow.rawPayload =
        [sampleReject "a"] := by
    decide
  have succeeds : (runOnce (postgresWorker sampleColumns ⟨"main", 2⟩
      fun _ _ => [sampleReject "a", sampleReject "b"]) id (fun _ => 1)
      ⟨Database.empty, []⟩).1.isOk = true := by
    decide
  cases run : runOnce (postgresWorker sampleColumns ⟨"main", 2⟩
      fun _ _ => [sampleReject "a", sampleReject "b"]) id (fun _ => 1) ⟨Database.empty, []⟩ with
  | mk result after =>
    rw [run] at stored succeeds
    cases result with
    | error error => cases succeeds
    | ok stats =>
      obtain ⟨row, inTable, payload⟩ := claim _ _ _ after stats run (sampleReject "b") (by decide)
      have inList := List.mem_map_of_mem (f := DeadLetterRow.rawPayload) inTable
      rw [stored, payload] at inList
      exact absurd inList (by decide)

end Ancore.Indexer
