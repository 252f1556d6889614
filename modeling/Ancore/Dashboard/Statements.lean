import Ancore.Library.CodeUnits
import Ancore.Library.Csv

/-! # Statements as CSV

What `toStatementCsv` writes for the rows of a statement.  Cells come from strangers, and one that
a spreadsheet would take for a formula gets an apostrophe in front; the test for it looks at the
first letter, while a spreadsheet skips white space.
-/

namespace Ancore.Dashboard

open Library Library.EcmaScript

/-! ## Rows -/

structure StatementRow where
  timestamp : JsString
  counterparty : JsString
  amount : JsString
  asset : JsString
  status : JsString
  memoOrReference : JsString

inductive StatementColumnKey where
  | timestamp
  | counterparty
  | amount
  | asset
  | status
  | memoOrReference
  deriving DecidableEq

/-- `STATEMENT_COLUMNS` -/
def statementColumns : List (StatementColumnKey × JsString) :=
  [(.timestamp, ascii "Timestamp"), (.counterparty, ascii "Counterparty"),
    (.amount, ascii "Amount"), (.asset, ascii "Asset"), (.status, ascii "Status"),
    (.memoOrReference, ascii "Memo/Reference")]

/-- `row[column.key]` -/
def StatementRow.cell (row : StatementRow) : StatementColumnKey → JsString
  | .timestamp => row.timestamp
  | .counterparty => row.counterparty
  | .amount => row.amount
  | .asset => row.asset
  | .status => row.status
  | .memoOrReference => row.memoOrReference

/-! ## Cells -/

/-- The letters of a CSV. -/
def csvDialect : Csv.Dialect ℕ where
  comma := 0x2C
  quote := 0x22
  lineFeed := 0xA
  carriageReturn := 0xD
  distinct := by decide

def apostrophe : ℕ := 0x27

/-- The letters `=`, `+`, `-` and `@`. -/
def formulaMarks : List ℕ := [0x3D, 0x2B, 0x2D, 0x40]

/-- `/^[=+\-@\t\r]/` -/
def hasFormulaPrefix (value : JsString) : Bool :=
  value.head?.any fun unit => unit ∈ formulaMarks || unit = 0x9 || unit = 0xD

/-- `/^-?\d+(\.\d+)?$/` -/
def isPlainNumber (value : JsString) : Bool :=
  let digits := if value.head? = some 0x2D then value.tail else value
  let rest := digits.dropWhile JsString.isDigit
  digits.takeWhile JsString.isDigit ≠ [] &&
    (rest = [] || (rest.head? = some 0x2E && rest.tail ≠ [] && rest.tail.all JsString.isDigit))

def neutralizeCsvFormula (value : JsString) : JsString :=
  if isPlainNumber value then value
  else if hasFormulaPrefix value then apostrophe :: value
  else value

def escapeCsvCell (value : JsString) : JsString :=
  let safe := neutralizeCsvFormula value
  if safe.any csvDialect.isSpecial then
    csvDialect.quote :: (csvDialect.doubled safe ++ [csvDialect.quote])
  else safe

def csvLine (cells : List JsString) : JsString :=
  [csvDialect.comma].intercalate (cells.map escapeCsvCell)

def toStatementCsv (rows : List StatementRow) : JsString :=
  let header := csvLine (statementColumns.map Prod.snd)
  let body := rows.map fun row => csvLine (statementColumns.map fun column => row.cell column.1)
  [csvDialect.lineFeed].intercalate (header :: body)

/-! ## What is asked of a statement -/

/-- The cells of a statement, the headers first. -/
def originalTable (rows : List StatementRow) : List (List JsString) :=
  statementColumns.map Prod.snd ::
    rows.map fun row => statementColumns.map fun column => row.cell column.1

/-- White space and control characters. -/
def isSkipped (unit : ℕ) : Bool :=
  JsString.isWhiteSpace unit || unit < 0x20 || (0x7F ≤ unit && unit ≤ 0x9F)

/-- Behind what is skipped a formula begins. -/
def startsFormula (cell : JsString) : Bool :=
  (cell.dropWhile isSkipped).head?.any fun unit => unit ∈ formulaMarks

/-- The cell is the original one, up to an apostrophe in front. -/
def IsCellOf (cell original : JsString) : Prop := cell = original ∨ cell = apostrophe :: original

/-- The statement is read back as it was, and no cell of it but a number begins a formula. -/
structure FaithfulAndInert (rows : List StatementRow) (table : List (List JsString)) : Prop where
  read : csvDialect.read (toStatementCsv rows) = some table
  headers : table.head? = some (statementColumns.map Prod.snd)
  faithful : List.Forall₂ (List.Forall₂ IsCellOf) table (originalTable rows)
  inert : ∀ record ∈ table, ∀ cell ∈ record, isPlainNumber cell = false →
    startsFormula cell = false

/-- A formula stands behind white space or control characters other than a tab or a carriage
return. -/
def hidesFormula (value : JsString) : Bool :=
  value.head?.any (fun unit => isSkipped unit && unit ≠ 0x9 && unit ≠ 0xD) && startsFormula value

/-! ## Neutral cells -/

section Cells

variable {value : JsString}

theorem isCellOf_neutralizeCsvFormula (value : JsString) :
    IsCellOf (neutralizeCsvFormula value) value := by
  unfold neutralizeCsvFormula
  split_ifs
  · exact .inl rfl
  · exact .inr rfl
  · exact .inl rfl

theorem isField_escapeCsvCell (value : JsString) :
    csvDialect.IsField (escapeCsvCell value) (neutralizeCsvFormula value) := by
  unfold escapeCsvCell
  dsimp only
  split_ifs with special
  · exact .quoted _
  · refine .bare fun letter member => ?_
    rw [List.any_eq_true, not_exists] at special
    exact Bool.eq_false_iff.mpr fun isSpecial => special letter ⟨member, isSpecial⟩

/-- A plain number begins with its sign or a digit. -/
theorem head_of_isPlainNumber (number : isPlainNumber value = true) :
    ∃ unit rest, value = unit :: rest ∧ isSkipped unit = false := by
  cases value with
  | nil => cases number
  | cons unit rest =>
    refine ⟨unit, rest, rfl, ?_⟩
    by_cases minus : unit = 0x2D
    · rw [minus]
      rfl
    · have digit : JsString.isDigit unit = true := by
        by_contra other
        unfold isPlainNumber at number
        rw [if_neg (by simpa using minus)] at number
        dsimp only at number
        rw [List.takeWhile_cons_of_neg other] at number
        simp at number
      obtain ⟨low, high⟩ := JsString.isDigit_iff.mp digit
      interval_cases unit <;> rfl

theorem not_isSkipped_of_mark {unit : ℕ} (mark : unit ∈ formulaMarks) :
    isSkipped unit = false := by
  simp only [formulaMarks, List.mem_cons, List.not_mem_nil, or_false] at mark
  rcases mark with rfl | rfl | rfl | rfl <;> rfl

/-- Formulas are left in a neutral cell exactly where they hide. -/
theorem startsFormula_neutralizeCsvFormula :
    (isPlainNumber (neutralizeCsvFormula value) = false →
      startsFormula (neutralizeCsvFormula value) = false) ↔ hidesFormula value = false := by
  unfold neutralizeCsvFormula
  split_ifs with number marked
  · -- a plain number begins with nothing that is skipped
    obtain ⟨unit, rest, rfl, solid⟩ := head_of_isPlainNumber number
    refine iff_of_true (fun other => ?_) ?_
    · rw [number] at other
      cases other
    · simp [hidesFormula, solid]
  · -- the apostrophe is no mark of a formula
    refine iff_of_true (fun _ => rfl) ?_
    cases value with
    | nil => rfl
    | cons unit rest =>
      simp only [hasFormulaPrefix, List.head?_cons, Option.any_some, Bool.or_eq_true,
        decide_eq_true_eq] at marked
      rcases marked with (mark | rfl) | rfl
      · simp [hidesFormula, not_isSkipped_of_mark mark]
      · rfl
      · rfl
  · rw [Bool.eq_false_iff.mpr number, imp_iff_right rfl]
    cases value with
    | nil => exact iff_of_true rfl rfl
    | cons unit rest =>
      simp only [hasFormulaPrefix, List.head?_cons, Option.any_some, Bool.or_eq_true,
        decide_eq_true_eq, not_or] at marked
      obtain ⟨⟨noMark, noTab⟩, noReturn⟩ := marked
      by_cases skipped : isSkipped unit = true
      · simp [hidesFormula, skipped, noTab, noReturn]
      · refine iff_of_true ?_ ?_
        · simp [startsFormula, List.dropWhile_cons_of_neg skipped, noMark]
        · simp [hidesFormula, skipped]

end Cells

/-! ## Statements -/

section Statements

variable {rows : List StatementRow} {table : List (List JsString)}

def neutralLine (cells : List JsString) : List JsString := cells.map neutralizeCsvFormula

theorem isRecord_csvLine {cells : List JsString} (filled : cells ≠ []) :
    csvDialect.IsRecord (csvLine cells) (neutralLine cells) := by
  refine Csv.Dialect.isRecord_intercalate ?_ (by simpa using filled)
  rw [neutralLine, List.forall₂_map_left_iff, List.forall₂_map_right_iff, List.forall₂_same]
  exact fun value _ => isField_escapeCsvCell value

theorem mem_originalTable {cells : List JsString} (member : cells ∈ originalTable rows) :
    cells.length = 6 := by
  rcases List.mem_cons.mp member with rfl | member
  · rfl
  · obtain ⟨row, -, rfl⟩ := List.mem_map.mp member
    rfl

/-- A statement is read as its neutral cells. -/
theorem read_toStatementCsv (rows : List StatementRow) :
    csvDialect.read (toStatementCsv rows) = some ((originalTable rows).map neutralLine) := by
  have isText : toStatementCsv rows =
      [csvDialect.lineFeed].intercalate ((originalTable rows).map csvLine) := by
    simp [toStatementCsv, originalTable, Function.comp_def]
  have areRecords : List.Forall₂ csvDialect.IsRecord ((originalTable rows).map csvLine)
      ((originalTable rows).map neutralLine) := by
    rw [List.forall₂_map_left_iff, List.forall₂_map_right_iff, List.forall₂_same]
    intro cells member
    exact isRecord_csvLine (List.ne_nil_of_length_pos (by rw [mem_originalTable member]; decide))
  obtain ⟨numbered, isTable, same⟩ :=
    Csv.Dialect.exists_isTable areRecords (List.cons_ne_nil _ _) 1
  rw [isText, Csv.Dialect.read_table isTable, same]
  intro record member single
  have neutral : record.2 ∈ (originalTable rows).map neutralLine :=
    same ▸ List.mem_map_of_mem member
  obtain ⟨cells, isOriginal, isNeutral⟩ := List.mem_map.mp neutral
  have length := congrArg List.length (isNeutral.trans single)
  rw [neutralLine, List.length_map, mem_originalTable isOriginal] at length
  cases length

theorem faithful_neutral (rows : List StatementRow) :
    List.Forall₂ (List.Forall₂ IsCellOf) ((originalTable rows).map neutralLine)
      (originalTable rows) := by
  rw [List.forall₂_map_left_iff, List.forall₂_same]
  intro cells _
  rw [neutralLine, List.forall₂_map_left_iff, List.forall₂_same]
  exact fun value _ => isCellOf_neutralizeCsvFormula value

theorem headers_plain : neutralLine (statementColumns.map Prod.snd) =
    statementColumns.map Prod.snd := by
  decide

theorem headers_hide_nothing : ∀ column ∈ statementColumns, hidesFormula column.2 = false := by
  decide

theorem hides_nothing_of_inert (safe : FaithfulAndInert rows table) :
    ∀ row ∈ rows, ∀ column ∈ statementColumns, hidesFormula (row.cell column.1) = false := by
  intro row isRow column isColumn
  have isTable := Option.some.inj (safe.read.symm.trans (read_toStatementCsv rows))
  refine startsFormula_neutralizeCsvFormula.mp (safe.inert
    (neutralLine (statementColumns.map fun column => row.cell column.1)) ?_ _ ?_)
  · rw [isTable]
    exact List.mem_map_of_mem (List.mem_cons_of_mem _ (List.mem_map_of_mem isRow))
  · exact List.mem_map_of_mem (List.mem_map_of_mem isColumn)

theorem inert_of_hides_nothing (plain : ∀ row ∈ rows, ∀ column ∈ statementColumns,
    hidesFormula (row.cell column.1) = false) :
    FaithfulAndInert rows ((originalTable rows).map neutralLine) where
  read := read_toStatementCsv rows
  headers := congrArg some headers_plain
  faithful := faithful_neutral rows
  inert := by
    intro record isRecord cell isCell
    obtain ⟨cells, isOriginal, rfl⟩ := List.mem_map.mp isRecord
    obtain ⟨value, isValue, rfl⟩ := List.mem_map.mp isCell
    refine startsFormula_neutralizeCsvFormula.mpr ?_
    rcases List.mem_cons.mp isOriginal with rfl | isRow
    · obtain ⟨column, isColumn, rfl⟩ := List.mem_map.mp isValue
      exact headers_hide_nothing column isColumn
    · obtain ⟨row, member, rfl⟩ := List.mem_map.mp isRow
      obtain ⟨column, isColumn, rfl⟩ := List.mem_map.mp isValue
      exact plain row member column isColumn

/-- A statement is faithful and inert exactly when no cell hides a formula behind white space or
control characters other than a tab or a carriage return. -/
theorem statement_inert_iff (rows : List StatementRow) :
    (∃ table, FaithfulAndInert rows table) ↔
      ∀ row ∈ rows, ∀ column ∈ statementColumns, hidesFormula (row.cell column.1) = false :=
  ⟨fun ⟨_, safe⟩ => hides_nothing_of_inert safe, fun plain => ⟨_, inert_of_hides_nothing plain⟩⟩

/-- A payment whose memo is a formula behind a blank. -/
def blankFormula : StatementRow where
  timestamp := ascii "2026-01-01"
  counterparty := ascii "GABC"
  amount := ascii "-5"
  asset := ascii "XLM"
  status := ascii "completed"
  memoOrReference := ascii " =1+1"

theorem blank_formula_exported : ¬ ∀ rows, ∃ table, FaithfulAndInert rows table := by
  intro always
  obtain ⟨table, safe⟩ := always [blankFormula]
  have plain := hides_nothing_of_inert safe blankFormula List.mem_cons_self
    (.memoOrReference, ascii "Memo/Reference") (by decide +kernel)
  revert plain
  decide +kernel

end Statements

end Ancore.Dashboard
