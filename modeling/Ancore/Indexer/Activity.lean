import Ancore.Indexer.Events

/-! # Reading account activity

The activity query as the API runs it: filters, a cursor on `(created_at, id)`, the
newest rows first, and one row more than the page holds to see whether there is a
next one.

Cursors are opaque texts to the caller; their coding (base64, JSON, UUID and
timestamp texts) is the parameter `codec`.
-/

namespace Ancore.Indexer

/-- Activity record as stored in the database; the `id` is a UUID, compared as a number. -/
structure ActivityRecord where
  id : Nat
  accountId : String
  activityType : String
  amount : Option String
  asset : Option String
  assetCode : Option String
  assetIssuer : Option String
  counterparty : Option String
  txHash : String
  ledgerSeq : Int
  createdAt : Timestamp
  metadata : Option String
deriving DecidableEq

/-- Filter options for activity queries. -/
structure ActivityFilter where
  activityType : Option String
  operationType : Option String
  asset : Option String
  counterparty : Option String
  ledgerMin : Option Int
  ledgerMax : Option Int
  fromDate : Option Timestamp
  toDate : Option Timestamp
deriving DecidableEq

/-- Cursor pagination parameters. -/
structure CursorPage where
  after : Option String
  before : Option String
  limit : Option Nat
deriving DecidableEq

/-- Paginated result. -/
structure PageResult where
  items : List ActivityRecord
  hasNextPage : Bool
  hasPreviousPage : Bool
  nextCursor : Option String
  prevCursor : Option String
deriving DecidableEq

inductive ApiError where
  | invalidCursor (message : String)
  | invalidFilter (message : String)
deriving DecidableEq

/-- A point in the order of the rows. -/
abbrev Position := Timestamp ×ₗ Nat

/-- `encode_cursor` and `decode_cursor` -/
structure CursorCodec where
  encode : Position → String
  decode : String → Except ApiError Position

def defaultLimit : Nat := 20
def maxLimit : Nat := 100
def minLimit : Nat := 1

def ActivityRecord.position (row : ActivityRecord) : Position := toLex (row.createdAt, row.id)

/-! ## The query -/

/-- The part of the `WHERE` clause on the texts of a row. -/
def selectsTexts (accountId : String) (filter : ActivityFilter) (row : ActivityRecord) : Prop :=
  row.accountId = accountId ∧
    (∀ activityType ∈ filter.operationType <|> filter.activityType,
      row.activityType = activityType) ∧
    (∀ asset ∈ filter.asset, row.asset = some asset) ∧
    ∀ counterparty ∈ filter.counterparty, row.counterparty = some counterparty

/-- The part of the `WHERE` clause on the ledger and the position of a row. -/
def selectsRange (filter : ActivityFilter) (after before : Option Position) (ledgerSeq : Int)
    (position : Position) : Prop :=
  (match after, before with
    | some cursor, _ => position < cursor
    | none, some cursor => cursor < position
    | none, none => True) ∧
    (∀ ledgerMin ∈ filter.ledgerMin, ledgerMin ≤ ledgerSeq) ∧
    (∀ ledgerMax ∈ filter.ledgerMax, ledgerSeq ≤ ledgerMax) ∧
    (∀ fromDate ∈ filter.fromDate, fromDate ≤ (ofLex position).1) ∧
    ∀ toDate ∈ filter.toDate, (ofLex position).1 ≤ toDate

/-- The `WHERE` clause. -/
def selects (accountId : String) (filter : ActivityFilter) (after before : Option Position)
    (row : ActivityRecord) : Prop :=
  selectsTexts accountId filter row ∧
    selectsRange filter after before row.ledgerSeq row.position

instance (accountId : String) (filter : ActivityFilter) (row : ActivityRecord) :
    Decidable (selectsTexts accountId filter row) := by
  unfold selectsTexts
  infer_instance

instance (filter : ActivityFilter) (after before : Option Position) (ledgerSeq : Int)
    (position : Position) : Decidable (selectsRange filter after before ledgerSeq position) := by
  unfold selectsRange
  cases after <;> cases before <;> infer_instance

instance (accountId : String) (filter : ActivityFilter) (after before : Option Position)
    (row : ActivityRecord) : Decidable (selects accountId filter after before row) := by
  unfold selects
  infer_instance

/-- `WHERE .. ORDER BY created_at DESC, id DESC` -/
def selected (table : List ActivityRecord) (accountId : String) (filter : ActivityFilter)
    (after before : Option Position) : List ActivityRecord :=
  (table.filter fun row => selects accountId filter after before row).insertionSort
    fun one other => other.position ≤ one.position

/-! ## The request -/

section Request

variable (codec : CursorCodec)

def decodeCursor : Option String → Except ApiError (Option Position)
  | none => .ok none
  | some cursor => (codec.decode cursor).map some

/-- The checks on the cursors. -/
def validated (page : CursorPage) : Except ApiError (Option Position × Option Position) :=
  if page.after.isSome && page.before.isSome then
    .error (.invalidFilter "cannot specify both cursor_after and cursor_before")
  else do
    let after ← decodeCursor codec page.after
    let before ← decodeCursor codec page.before
    return (after, before)

def effectiveLimit (page : CursorPage) : Nat :=
  max minLimit (min maxLimit (page.limit.getD defaultLimit))

/-- The result of a request whose cursors are decoded. -/
def queryActivity (table : List ActivityRecord) (accountId : String) (filter : ActivityFilter)
    (limit : Nat) (after before : Option Position) : PageResult :=
  let rows := (selected table accountId filter after before).take (limit + 1)
  let hasNextPage : Bool := limit < rows.length
  let items := if hasNextPage then rows.take limit else rows
  let nextCursor := if hasNextPage then
    items.getLast?.map fun item => codec.encode item.position else none
  let prevCursor := if after.isSome then
    items.head?.map fun item => codec.encode item.position else none
  { items := items
    hasNextPage := hasNextPage
    hasPreviousPage := prevCursor.isSome
    nextCursor := nextCursor
    prevCursor := prevCursor }

/-- `get_account_activity`, without the response cache. -/
def getAccountActivity (table : List ActivityRecord) (accountId : String) (filter : ActivityFilter)
    (page : CursorPage) : Except ApiError PageResult := do
  let (after, before) ← validated codec page
  return queryActivity codec table accountId filter (effectiveLimit page) after before

end Request

end Ancore.Indexer
