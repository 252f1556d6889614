import Ancore.Indexer.Activity
import Ancore.Library.Keyset

/-! # Reading contract events

The second paged query of the indexer, on `(timestamp, id)`, and what the two have in
common: each is a page of the rows that match its filter (`Library.keysetPage`),
with the cursors as texts.
-/

namespace Ancore.Indexer

open Ancore.Library

/-- A decoded contract event from the account contract. -/
structure ContractEvent where
  id : Nat
  contractAddress : String
  accountId : String
  eventType : String
  ledgerSeq : Int
  timestamp : Timestamp
  txHash : String
  data : String
deriving DecidableEq

/-- Filters for querying contract events. -/
structure ContractEventFilter where
  contractAddress : Option String
  accountId : Option String
  eventType : Option String
  ledgerMin : Option Int
  ledgerMax : Option Int
  limit : Option Nat
  cursorAfter : Option String
  cursorBefore : Option String
deriving DecidableEq

/-- Paginated result for contract events. -/
structure ContractEventPageResult where
  items : List ContractEvent
  hasNextPage : Bool
  hasPreviousPage : Bool
  nextCursor : Option String
  prevCursor : Option String
deriving DecidableEq

def contractEventsDefaultLimit : Nat := 50
def contractEventsMaxLimit : Nat := 200
def contractEventsMinLimit : Nat := 1

def ContractEvent.position (event : ContractEvent) : Position := toLex (event.timestamp, event.id)

/-- The `WHERE` clause without the cursors. -/
def ContractEventFilter.selects (filter : ContractEventFilter) (event : ContractEvent) : Prop :=
  (∀ address ∈ filter.contractAddress, event.contractAddress = address) ∧
    (∀ accountId ∈ filter.accountId, event.accountId = accountId) ∧
    (∀ eventType ∈ filter.eventType, event.eventType = eventType) ∧
    (∀ ledgerMin ∈ filter.ledgerMin, ledgerMin ≤ event.ledgerSeq) ∧
    ∀ ledgerMax ∈ filter.ledgerMax, event.ledgerSeq ≤ ledgerMax

instance (filter : ContractEventFilter) : DecidablePred filter.selects := fun event => by
  unfold ContractEventFilter.selects
  infer_instance

def ContractEventFilter.effectiveLimit (filter : ContractEventFilter) : Nat :=
  max contractEventsMinLimit
    (min contractEventsMaxLimit (filter.limit.getD contractEventsDefaultLimit))

/-- `get_contract_events` -/
def getContractEvents (codec : CursorCodec) (table : List ContractEvent)
    (filter : ContractEventFilter) : Except ApiError ContractEventPageResult := do
  let (after, before) ← validated codec ⟨filter.cursorAfter, filter.cursorBefore, filter.limit⟩
  let page := keysetPage ContractEvent.position filter.effectiveLimit
    (table.filter fun event => filter.selects event) after before
  let prevCursor := page.previous.map codec.encode
  return {
    items := page.items
    hasNextPage := page.next.isSome
    hasPreviousPage := prevCursor.isSome
    nextCursor := page.next.map codec.encode
    prevCursor := prevCursor }

/-! ## Both queries as pages of the rows that match -/

section Queries

variable {codec : CursorCodec}
  (faithful : ∀ position, codec.decode (codec.encode position) = .ok position)

include faithful

theorem validated_encoded (after : Option Position) (size : Option Nat) :
    validated codec ⟨after.map codec.encode, none, size⟩ = .ok (after, none) ∧
      validated codec ⟨none, after.map codec.encode, size⟩ = .ok (none, after) := by
  cases after with
  | none => exact ⟨rfl, rfl⟩
  | some position =>
    constructor <;>
      simp [validated, decodeCursor, faithful, bind, Except.bind, pure, Except.pure, Except.map]

theorem getContractEvents_forward (table : List ContractEvent) (filter : ContractEventFilter)
    {after : Option Position} (asked : filter.cursorAfter = after.map codec.encode)
    (forward : filter.cursorBefore = none) :
    ∃ page, getContractEvents codec table filter = .ok page ∧
      page.items = (keysetPage ContractEvent.position filter.effectiveLimit
        (table.filter fun event => filter.selects event) after none).items := by
  simp only [getContractEvents, asked, forward, (validated_encoded faithful after filter.limit).1]
  exact ⟨_, rfl, rfl⟩

omit faithful in
theorem selects_iff {accountId : String} {filter : ActivityFilter} {after before : Option Position}
    {row : ActivityRecord} :
    selects accountId filter after before row ↔
      Within after before row.position ∧ selects accountId filter none none row := by
  cases after <;> cases before <;> simp [selects, selectsRange, Within, and_left_comm]

variable (codec) (table : List ActivityRecord) (accountId : String) (filter : ActivityFilter)
  (limit : Nat) (after before : Option Position)

/-- The page of the activity rows that match. -/
def activityPage : KeysetPage ActivityRecord Position :=
  keysetPage ActivityRecord.position limit
    (table.filter fun row => selects accountId filter none none row) after before

omit faithful in
/-- The activity query reads a page of the rows that match without a cursor. -/
theorem queryActivity_keyset :
    (queryActivity codec table accountId filter limit after before).items =
        (activityPage table accountId filter limit after before).items ∧
      (queryActivity codec table accountId filter limit after before).nextCursor =
        (activityPage table accountId filter limit after before).next.map codec.encode ∧
      (queryActivity codec table accountId filter limit after before).prevCursor =
        (activityPage table accountId filter limit after before).previous.map codec.encode := by
  have found : descending ActivityRecord.position
      ((table.filter fun row => selects accountId filter none none row).filter
        fun row => Within after before row.position) =
      selected table accountId filter after before := by
    rw [List.filter_filter, selected, descending]
    congr 1
    exact List.filter_congr fun row _ => by simp [@selects_iff accountId filter after before row]
  rw [activityPage, keysetPage_of_found found]
  generalize rows : selected table accountId filter after before = sorted
  have enough : limit < (sorted.take (limit + 1)).length ↔ limit < sorted.length := by
    rw [List.length_take]
    omega
  have page : (sorted.take (limit + 1)).take limit = sorted.take limit := by
    rw [List.take_take, min_eq_left (Nat.le_succ limit)]
  simp only [queryActivity, rows, enough, page]
  by_cases more : limit < sorted.length
  · cases after <;> simp [more, Function.comp_def]
  · have all : sorted.take (limit + 1) = sorted.take limit := by
      rw [List.take_of_length_le (by omega), List.take_of_length_le (by omega)]
    cases after <;> simp [more, all, Function.comp_def]

end Queries

end Ancore.Indexer
