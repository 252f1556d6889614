import Ancore.Indexer.Postgres

/-! # Rows of persisted events

The unique keys of the event tables are made of transaction hash, kind and ledger.
They absorb every replay, and they keep events apart exactly as long as no two
events of one transaction are of one kind.
-/

namespace Ancore.Indexer

open Ancore.Library

section Persist

variable {ν : Type} {columns : Columns ν} {events : List CanonicalEvent} {db : Database ν}

/-- What the unique keys see of an event. -/
def eventKey (columns : Columns ν) (event : CanonicalEvent) :
    Option String × Option String × Nat :=
  (columns.varchar 64 event.txHash, columns.varchar 50 event.kind.toText, event.ledgerSeq)

/-- A key of a table, as a key of an event. -/
def storedKey (key : String × String × Nat) : Option String × Option String × Nat :=
  (some key.1, some key.2.1, key.2.2)

theorem storedKey_injective : Function.Injective storedKey := by
  rintro ⟨txHash, kind, ledgerSeq⟩ ⟨txHash', kind', ledgerSeq'⟩ same
  simpa [storedKey] using same

/-- The columns take the values of an event. -/
def Storable (columns : Columns ν) (event : CanonicalEvent) : Prop :=
  (contractEventRow columns event).isSome ∧ (activityRow columns event).isSome

/-- No row of either table has the key of an event. -/
def Unseen (columns : Columns ν) (db : Database ν) (event : CanonicalEvent) : Prop :=
  (∀ row ∈ db.contractEvents, storedKey row.key ≠ eventKey columns event) ∧
    ∀ row ∈ db.accountActivity, storedKey row.key ≠ eventKey columns event

theorem rows_exist_iff {α β : Type} {row? : α → Option β} {items : List α} :
    (∃ rows : List β, rows.map some = items.map row?) ↔ ∀ item ∈ items, (row? item).isSome := by
  constructor
  · rintro ⟨rows, areRows⟩ item member
    obtain ⟨row, _, isRow⟩ := List.mem_map.mp (areRows ▸ List.mem_map_of_mem (f := row?) member)
    rw [← isRow]
    rfl
  · intro allSome
    refine ⟨items.filterMap row?, ?_⟩
    induction items with
    | nil => rfl
    | cons item items inductionHypothesis =>
      rw [List.forall_mem_cons] at allSome
      obtain ⟨row, isRow⟩ := Option.isSome_iff_exists.mp allSome.1
      rw [List.filterMap_cons_some isRow, List.map_cons, List.map_cons, isRow,
        inductionHypothesis allSome.2]

/-- The keys of the rows of a list of events are those of the events. -/
theorem keys_of_rows {ρ : Type} {row? : CanonicalEvent → Option ρ} {key : ρ → String × String × Nat}
    (keyed : ∀ {event row}, row? event = some row → eventKey columns event = storedKey (key row))
    {rows : List ρ} (areRows : rows.map some = events.map row?) :
    events.map (eventKey columns) = (rows.map key).map storedKey := by
  induction events generalizing rows with
  | nil =>
    rw [List.map_eq_nil_iff.mp areRows]
    rfl
  | cons event events inductionHypothesis =>
    cases rows with
    | nil => cases areRows
    | cons row rows =>
      obtain ⟨isRow, areRows⟩ := List.cons.inj areRows
      rw [List.map_cons, List.map_cons, List.map_cons, keyed isRow.symm,
        inductionHypothesis areRows]

/-- A table gains one row for each event exactly when their keys are new and different. -/
theorem gains_rows_iff {ρ : Type} {row? : CanonicalEvent → Option ρ}
    {key : ρ → String × String × Nat}
    (keyed : ∀ {event row}, row? event = some row → eventKey columns event = storedKey (key row))
    {table rows : List ρ} (areRows : rows.map some = events.map row?) :
    insertAll key table rows = table ++ rows ↔
      (events.map (eventKey columns)).Nodup ∧
        ∀ event ∈ events, ∀ row ∈ table, storedKey (key row) ≠ eventKey columns event := by
  have keys := keys_of_rows keyed areRows
  rw [insertAll_eq_append_iff, keys, List.nodup_map_iff storedKey_injective]
  apply and_congr_right
  intro _
  constructor
  · intro unseen event member row inTable same
    obtain ⟨_, isKey, equal⟩ := List.mem_map.mp (keys ▸ List.mem_map_of_mem member)
    obtain ⟨fresh, freshMember, rfl⟩ := List.mem_map.mp isKey
    apply unseen fresh freshMember
    rw [← storedKey_injective (same.trans equal.symm)]
    exact List.mem_map_of_mem inTable
  · intro unseen fresh member taken
    obtain ⟨row, inTable, same⟩ := List.mem_map.mp taken
    have isKey : storedKey (key fresh) ∈ events.map (eventKey columns) :=
      keys ▸ List.mem_map_of_mem (List.mem_map_of_mem member)
    obtain ⟨event, eventMember, equal⟩ := List.mem_map.mp isKey
    exact unseen event eventMember row inTable (by rw [same, equal])

variable (columns) in
/-- The sink's writes, nothing hidden. -/
theorem persist_writes (canonical : List CanonicalEvent) :
    Performs id ((canonical.flatMap eventStatements).map (Statement.run columns))
      ((postgresEventSink columns).persist canonical) := by
  apply persist_performs
  · intro event db
    rw [Option.map_id]
    rfl
  · intro event db
    rw [Option.map_id]
    rfl

/-- Persisting what is persisted already changes nothing. -/
theorem replay_settled {replay : List CanonicalEvent} {contracts : List ContractEventRow}
    {activities : List (ActivityRow ν)} {before : Faulty (Database ν)} (calm : before.pending = 0)
    (areContracts : contracts.map some = events.map (contractEventRow columns))
    (areActivities : activities.map some = events.map (activityRow columns))
    (inContracts : contracts ⊆ before.store.contractEvents)
    (inActivities : activities ⊆ before.store.accountActivity) (part : replay ⊆ events) :
    ∃ again, (postgresEventSink columns).persist replay before = (.ok (), again) ∧
      again.store = before.store := by
  have settled : applyAll ((replay.flatMap eventStatements).map (Statement.run columns))
      before.store = some before.store := by
    apply applyAll_of_settled
    intro op member
    obtain ⟨statement, isStatement, rfl⟩ := List.mem_map.mp member
    obtain ⟨event, inReplay, ofEvent⟩ := List.mem_flatMap.mp isStatement
    apply run_eq_self_iff.mpr
    rcases List.mem_pair.mp ofEvent with rfl | rfl
    · obtain ⟨row, rowMember, isRow⟩ := List.mem_map.mp
        (areContracts ▸ List.mem_map_of_mem (f := contractEventRow columns) (part inReplay))
      exact ⟨row, isRow.symm, List.mem_map_of_mem (inContracts rowMember)⟩
    · obtain ⟨row, rowMember, isRow⟩ := List.mem_map.mp
        (areActivities ▸ List.mem_map_of_mem (f := activityRow columns) (part inReplay))
      exact ⟨row, isRow.symm, List.mem_map_of_mem (inActivities rowMember)⟩
  obtain ⟨_, again, run, same, _⟩ := (persist_writes columns replay).of_calm calm settled
  exact ⟨again, run, same⟩

/-- Persisting events gives each of them a row of its own in both tables, which no replay doubles,
exactly when the columns take their values, no two of them have the same transaction hash, kind and
ledger, and no row already has those of one of them. -/
theorem rows_apart_iff (columns : Columns ν) (events : List CanonicalEvent) (db : Database ν) :
    (∃ after, (postgresEventSink columns).persist events ⟨db, []⟩ = (.ok (), after) ∧
      (∃ contracts, contracts.map some = events.map (contractEventRow columns) ∧
        after.store.contractEvents = db.contractEvents ++ contracts) ∧
      (∃ activities, activities.map some = events.map (activityRow columns) ∧
        after.store.accountActivity = db.accountActivity ++ activities) ∧
      ∀ replay, replay ⊆ events → ∃ again,
        (postgresEventSink columns).persist replay after = (.ok (), again) ∧
          again.store = after.store) ↔
    (∀ event ∈ events, Storable columns event) ∧ (events.map (eventKey columns)).Nodup ∧
      ∀ event ∈ events, Unseen columns db event := by
  have performs := persist_writes columns events
  have contractKeyed : ∀ {event row}, contractEventRow columns event = some row →
      eventKey columns event = storedKey row.key := by
    intro event row isRow
    obtain ⟨isHash, isType, isLedger⟩ := contractEventRow_key isRow
    rw [eventKey, isHash, isType, ← isLedger]
    rfl
  have activityKeyed : ∀ {event} {row : ActivityRow ν}, activityRow columns event = some row →
      eventKey columns event = storedKey row.key := by
    intro event row isRow
    obtain ⟨isHash, isType, isLedger⟩ := activityRow_key isRow
    rw [eventKey, isHash, isType, ← isLedger]
    rfl
  constructor
  · rintro ⟨after, run, ⟨contracts, areContracts, gained⟩,
      ⟨activities, areActivities, gainedToo⟩, _⟩
    have applied := (performs.finished run).applied
    change runAll columns _ db = some after.store at applied
    obtain ⟨contracts', activities', areContracts', areActivities', left⟩ :=
      (runAll_events_iff events).mp applied
    have sameContracts : contracts' = contracts :=
      List.map_injective_iff.mpr (Option.some_injective _) (areContracts'.trans areContracts.symm)
    have sameActivities : activities' = activities :=
      List.map_injective_iff.mpr (Option.some_injective _) (areActivities'.trans areActivities.symm)
    subst sameContracts sameActivities
    rw [left] at gained gainedToo
    obtain ⟨apart, unseen⟩ := (gains_rows_iff contractKeyed areContracts).mp gained
    obtain ⟨_, unseenToo⟩ := (gains_rows_iff activityKeyed areActivities).mp gainedToo
    exact ⟨fun event member => ⟨rows_exist_iff.mp ⟨_, areContracts⟩ event member,
        rows_exist_iff.mp ⟨_, areActivities⟩ event member⟩, apart,
      fun event member => ⟨unseen event member, unseenToo event member⟩⟩
  · rintro ⟨storable, apart, unseen⟩
    obtain ⟨contracts, areContracts⟩ :=
      rows_exist_iff.mpr fun event member => (storable event member).1
    obtain ⟨activities, areActivities⟩ :=
      rows_exist_iff.mpr fun event member => (storable event member).2
    obtain ⟨_, after, run, left, calm⟩ := performs.of_calm (Eq.refl (Faulty.pending ⟨db, []⟩))
      ((runAll_events_iff events).mpr ⟨contracts, activities, areContracts, areActivities, rfl⟩)
    have gained : after.store.contractEvents = db.contractEvents ++ contracts := by
      rw [← (gains_rows_iff contractKeyed areContracts).mpr
        ⟨apart, fun event member => (unseen event member).1⟩]
      exact congrArg Database.contractEvents left
    have gainedToo : after.store.accountActivity = db.accountActivity ++ activities := by
      rw [← (gains_rows_iff activityKeyed areActivities).mpr
        ⟨apart, fun event member => (unseen event member).2⟩]
      exact congrArg Database.accountActivity left
    refine ⟨after, run, ⟨contracts, areContracts, gained⟩,
      ⟨activities, areActivities, gainedToo⟩, ?_⟩
    intro replay part
    apply replay_settled calm areContracts areActivities _ _ part
    · rw [gained]
      exact List.subset_append_right _ _
    · rw [gainedToo]
      exact List.subset_append_right _ _

end Persist

/-- A transfer of the native asset; the data tells two of them apart. -/
def samplePayment (data : String) : CanonicalEvent where
  kind := .transfer
  accountId := "CA"
  ledgerSeq := 5
  occurredAt := 0
  txHash := "7f"
  contractId := "CA"
  amount := none
  asset := some "native"
  counterparty := some "GB"
  raw := {
    ledgerSeq := 5
    ledgerCloseTime := 0
    txHash := "7f"
    contractId := "CA"
    topics := ["transfer", "native", "GB"]
    data := data }

/-- Two transfers of one transaction: the second has no row in either table. -/
theorem second_transfer_not_stored :
    ¬ ∀ events : List CanonicalEvent, events.Nodup →
      ∃ after, (postgresEventSink sampleColumns).persist events ⟨Database.empty, []⟩ =
          (.ok (), after) ∧
        (∃ contracts, contracts.map some = events.map (contractEventRow sampleColumns) ∧
          after.store.contractEvents = contracts) ∧
        ∃ activities, activities.map some = events.map (activityRow sampleColumns) ∧
          after.store.accountActivity = activities := by
  intro claim
  obtain ⟨after, run, ⟨contracts, areContracts, stored⟩, _⟩ :=
    claim [samplePayment "a", samplePayment "b"] (by decide)
  have one : ((postgresEventSink sampleColumns).persist [samplePayment "a", samplePayment "b"]
      ⟨Database.empty, []⟩).2.store.contractEvents.length = 1 := by
    decide
  rw [run] at one
  have two := congrArg List.length areContracts
  rw [List.length_map, ← stored, one] at two
  cases two

end Ancore.Indexer
