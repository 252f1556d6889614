import Ancore.Library.Csv
import Ancore.Library.FixedPoint
import Ancore.Payouts.PublicKeys

/-! # Lists of payouts as written

What `parseBulkPayoutCsv` makes of a table that is written as CSV: the rows, their amounts and
recipients, and their line numbers.  A row is numbered by its place among the records that are not
blank, which is its line as long as each of them stands in one line and no blank one in between.
-/

namespace Ancore.Payouts

open Ancore.Library Ancore.Library.EcmaScript Ancore.Soroban

/-- The letters of a list of payouts. -/
def payoutDialect : Csv.Dialect Char where
  comma := ','
  quote := quotationMark
  lineFeed := lineFeed
  carriageReturn := carriageReturn
  distinct := by decide

theorem isSpecial_of_lt {letter : Char} (large : 0x2C < letter.toNat) :
    payoutDialect.isSpecial letter = false := by
  have other {mark : Char} (small : mark.toNat ≤ 0x2C) : letter ≠ mark := by
    rintro rfl
    omega
  exact Csv.Dialect.isSpecial_eq_false_iff.mpr
    ⟨other (by decide), other (by decide), other (by decide), other (by decide)⟩

/-- The cells of a record. -/
def cellTexts (cells : List (List Char)) : List String := cells.map String.ofList

/-! ## The scanner -/

section Scanner

variable {text rest cell field : List Char} {cells : List (List Char)} {record : List String}

theorem scanRecords_cons (letter : Char) (rest : List Char) (inQuotes : Bool)
    (field : List Char) (record : List String) :
    scanRecords (letter :: rest) inQuotes field record =
      if letter = quotationMark then
        if inQuotes ∧ rest.head? = some quotationMark then
          scanRecords rest.tail true (field ++ [quotationMark]) record
        else scanRecords rest (!inQuotes) field record
      else if letter = ',' ∧ ¬inQuotes then
        scanRecords rest inQuotes [] (record ++ [String.ofList field])
      else if (letter = lineFeed ∨ letter = carriageReturn) ∧ ¬inQuotes then
        (record ++ [String.ofList field]) ::
          if letter = carriageReturn ∧ rest.head? = some lineFeed then
            scanRecords rest.tail inQuotes [] []
          else scanRecords rest inQuotes [] []
      else scanRecords rest inQuotes (field ++ [letter]) record := by
  rw [scanRecords.eq_def]
  cases rest with
  | nil => simp [show scanRecords [] inQuotes [] [] = [] from rfl]
  | cons next later => simp only [List.head?_cons, List.tail_cons, Option.some.injEq]

theorem scanRecords_plain (plain : ∀ letter ∈ text, payoutDialect.isSpecial letter = false) :
    scanRecords (text ++ rest) false field record =
      scanRecords rest false (field ++ text) record := by
  induction text generalizing field with
  | nil => rw [List.nil_append, List.append_nil]
  | cons letter text ih =>
    obtain ⟨first, others⟩ := List.forall_mem_cons.mp plain
    obtain ⟨comma, quote, feed, back⟩ := Csv.Dialect.isSpecial_eq_false_iff.mp first
    have noQuote : letter ≠ quotationMark := quote
    have noComma : letter ≠ ',' := comma
    have noFeed : letter ≠ lineFeed := feed
    have noReturn : letter ≠ carriageReturn := back
    rw [List.cons_append, scanRecords_cons, if_neg noQuote, if_neg (fun both => noComma both.1),
      if_neg (fun both => both.1.elim noFeed noReturn), ih others, List.append_assoc,
      List.singleton_append]

/-- A quotation mark that is not one of two in quotes. -/
theorem scanRecords_quote {inQuotes : Bool}
    (apart : rest.head? ≠ some quotationMark ∨ inQuotes = false) :
    scanRecords (quotationMark :: rest) inQuotes field record =
      scanRecords rest (!inQuotes) field record := by
  rw [scanRecords_cons, if_pos rfl, if_neg]
  rintro ⟨quoted, same⟩
  rcases apart with other | outside
  · exact other same
  · rw [outside] at quoted
    cases quoted

theorem scanRecords_doubled (apart : rest.head? ≠ some quotationMark) :
    scanRecords (payoutDialect.doubled cell ++ quotationMark :: rest) true field record =
      scanRecords rest false (field ++ cell) record := by
  induction cell generalizing field with
  | nil =>
    rw [Csv.Dialect.doubled, List.flatMap_nil, List.nil_append, List.append_nil,
      scanRecords_quote (.inl apart)]
    rfl
  | cons letter cell ih =>
    rw [Csv.Dialect.doubled, List.flatMap_cons]
    change scanRecords ((_ ++ payoutDialect.doubled cell) ++ quotationMark :: rest) true field
      record = _
    split
    · rename_i isQuote
      have same : letter = quotationMark := isQuote
      rw [same, List.append_assoc, List.cons_append, List.cons_append, List.nil_append,
        scanRecords_cons, if_pos rfl, if_pos ⟨rfl, rfl⟩, List.tail_cons, ih, List.append_assoc,
        List.singleton_append]
    · rename_i other
      have noQuote : letter ≠ quotationMark := other
      rw [List.append_assoc, List.singleton_append, scanRecords_cons, if_neg noQuote,
        if_neg (fun both => both.2 rfl), if_neg (fun both => both.2 rfl), ih, List.append_assoc,
        List.singleton_append]

theorem scanRecords_field (isField : payoutDialect.IsField text cell)
    (ends : payoutDialect.Ends rest) :
    scanRecords (text ++ rest) false [] record = scanRecords rest false cell record := by
  have apart : rest.head? ≠ some quotationMark := by
    intro head
    rcases ends _ head with same | same | same
    · cases same
    · cases same
    · cases same
  cases isField with
  | bare plain => rw [scanRecords_plain plain, List.nil_append]
  | quoted =>
    change scanRecords (quotationMark :: ((payoutDialect.doubled cell ++ [quotationMark]) ++ rest))
      false [] record = _
    rw [scanRecords_quote (.inr rfl), List.append_assoc, List.singleton_append]
    exact (scanRecords_doubled apart).trans (by rw [List.nil_append])

theorem scanRecords_record (isRecord : payoutDialect.IsRecord text cells)
    (ends : payoutDialect.EndsRecord rest) :
    ∃ cell before, cells = before ++ [cell] ∧
      scanRecords (text ++ rest) false [] record =
        scanRecords rest false cell (record ++ cellTexts before) := by
  induction isRecord generalizing record with
  | last field =>
    refine ⟨_, [], rfl, ?_⟩
    rw [scanRecords_field field fun letter first => .inr (ends letter first), cellTexts,
      List.map_nil, List.append_nil]
  | @cons text text' cell cells field others ih =>
    obtain ⟨final, before, rfl, read⟩ := @ih (record ++ [String.ofList cell])
    have isComma : payoutDialect.Ends (payoutDialect.comma :: (text' ++ rest)) :=
      fun letter first => .inl (Option.some.inj first).symm
    refine ⟨final, cell :: before, rfl, ?_⟩
    rw [List.append_assoc, List.cons_append, scanRecords_field field isComma]
    change scanRecords (',' :: (text' ++ rest)) false cell record = _
    rw [scanRecords_cons, if_neg (by decide), if_pos ⟨rfl, by decide⟩, read, cellTexts, cellTexts,
      List.map_cons, List.append_assoc, List.singleton_append]

theorem scanRecords_lineBreak {between : List Char} (isBreak : payoutDialect.IsLineBreak between)
    (whole : between = [payoutDialect.carriageReturn] →
      rest.head? ≠ some payoutDialect.lineFeed) :
    scanRecords (between ++ rest) false field record =
      (record ++ [String.ofList field]) :: scanRecords rest false [] [] := by
  cases isBreak with
  | lineFeed =>
    change scanRecords (lineFeed :: rest) false field record = _
    rw [scanRecords_cons, if_neg (by decide), if_neg (by decide), if_pos (by decide),
      if_neg fun both => absurd both.1 (by decide)]
  | carriageReturn =>
    change scanRecords (carriageReturn :: rest) false field record = _
    rw [scanRecords_cons, if_neg (by decide), if_neg (by decide), if_pos (by decide),
      if_neg fun both => whole rfl both.2]
  | both =>
    change scanRecords (carriageReturn :: lineFeed :: rest) false field record = _
    rw [scanRecords_cons, if_neg (by decide), if_neg (by decide), if_pos (by decide),
      if_pos ⟨rfl, rfl⟩, List.tail_cons]

/-- The scanner finds the records, and drops a last one without letters. -/
theorem scanRecords_table {line : ℕ} {records : List (ℕ × List (List Char))}
    (isTable : payoutDialect.IsTable line text records) :
    (scanRecords text false [] []).filter (fun record => !isBlank record) =
      (records.map fun record => cellTexts record.2).filter fun record => !isBlank record := by
  induction isTable with
  | @last line text cells isRecord =>
    obtain ⟨cell, before, rfl, read⟩ := @scanRecords_record text [] cells [] isRecord nofun
    rw [List.append_nil] at read
    rw [read, scanRecords, List.map_singleton, cellTexts, cellTexts, List.map_append,
      List.map_singleton, List.nil_append]
    split_ifs with filled
    · rfl
    · -- a last record of one empty cell is left out, and blank
      obtain ⟨noCell, none⟩ := not_or.mp filled
      rw [not_not.mp noCell, not_not.mp none]
      decide
  | @cons line text between rest cells records isRecord isBreak whole later ih =>
    obtain ⟨cell, before, rfl, read⟩ := @scanRecords_record text (between ++ rest) cells []
      isRecord (Csv.Dialect.endsRecord_lineBreak isBreak)
    rw [List.append_assoc, read, scanRecords_lineBreak isBreak whole, List.map_cons,
      List.filter_cons, List.filter_cons, ih]
    simp [cellTexts]

end Scanner

/-! ## Amounts -/

section Amounts

/-- The amount is a decimal without a sign that has at most seven digits behind the point. -/
structure IsDecimal (amount : String) (numeral : Numeral) : Prop where
  text : numeral.text = amount.toList
  unsigned : numeral.negative = false
  short : numeral.fractional.length ≤ 7

variable {amount : String} {numeral : Numeral}

theorem IsDecimal.toList_eq (isDecimal : IsDecimal amount numeral) :
    amount.toList =
      numeral.whole ++ (if numeral.fractional = [] then [] else '.' :: numeral.fractional) := by
  rw [← isDecimal.text, Numeral.text, Numeral.sign, isDecimal.unsigned, if_neg Bool.false_ne_true,
    List.nil_append]

theorem IsDecimal.decimalParts_eq (isDecimal : IsDecimal amount numeral) :
    decimalParts amount = some (numeral.whole, numeral.fractional) := by
  have noPoint : '.' ∉ numeral.whole := numeral.not_mem_whole rfl
  have wholeDigits := List.all_eq_true.mpr numeral.wholeDigits
  have fractionalDigits := List.all_eq_true.mpr numeral.fractionalDigits
  unfold decimalParts
  rw [List.span_eq_takeWhile_dropWhile, isDecimal.toList_eq]
  dsimp only
  by_cases empty : numeral.fractional = []
  · rw [if_pos empty, List.append_nil, (takeWhile_ne_self noPoint).1,
      (takeWhile_ne_self noPoint).2, List.drop_nil,
      if_pos ⟨numeral.nonempty, wholeDigits, rfl, .inl rfl⟩, empty]
  · rw [if_neg empty, (takeWhile_ne noPoint).1, (takeWhile_ne noPoint).2, List.drop_one,
      List.tail_cons, if_pos ⟨numeral.nonempty, wholeDigits, fractionalDigits,
        .inr ⟨List.length_pos_of_ne_nil empty, isDecimal.short⟩⟩]

theorem exists_isDecimal {parts : List Char × List Char}
    (found : decimalParts amount = some parts) : ∃ numeral, IsDecimal amount numeral := by
  unfold decimalParts at found
  rw [List.span_eq_takeWhile_dropWhile] at found
  dsimp only at found
  split_ifs at found with matched
  obtain ⟨whole, wholeDigits, fractionalDigits, length⟩ := matched
  have split := List.takeWhile_append_dropWhile (p := fun letter => decide (letter ≠ '.'))
    (l := amount.toList)
  refine ⟨⟨false, _, _, whole, List.all_eq_true.mp wholeDigits,
    List.all_eq_true.mp fractionalDigits⟩, ?_, rfl, ?_⟩
  · rw [Numeral.text, Numeral.sign, if_neg Bool.false_ne_true, List.nil_append]
    dsimp only
    rcases length with noPoint | ⟨some, -⟩
    · rw [noPoint, List.append_nil] at split
      rw [if_pos (by rw [noPoint, List.drop_nil]), List.append_nil, split]
    · rw [if_neg (List.ne_nil_of_length_pos some)]
      conv_rhs => rw [← split]
      congr 1
      -- what is left behind the digits begins with the point
      cases rest : amount.toList.dropWhile (fun letter => decide (letter ≠ '.')) with
      | nil =>
        rw [rest] at some
        cases some
      | cons letter fractional =>
        have stopped := List.head?_dropWhile_not (fun letter => decide (letter ≠ '.'))
          amount.toList
        rw [rest] at stopped
        have isPoint : letter = '.' := by simpa using stopped
        rw [isPoint, List.drop_one, List.tail_cons]
  · rcases length with noPoint | ⟨-, few⟩
    · dsimp only
      rw [noPoint]
      exact Nat.zero_le _
    · exact few

theorem IsDecimal.stroops_eq (isDecimal : IsDecimal amount numeral) :
    (decimalToStroops (numeral.whole, numeral.fractional) : ℚ) = numeral.value * 10 ^ 7 := by
  have filled : (numeral.fractional ++
      List.replicate (7 - numeral.fractional.length) '0').length = 7 := by
    have short := isDecimal.short
    rw [List.length_append, List.length_replicate]
    omega
  have joined : decimalToStroops (numeral.whole, numeral.fractional) =
      Nat.ofDigitChars 10 (numeral.whole ++ (numeral.fractional ++
        List.replicate (7 - numeral.fractional.length) '0')) 0 := by
    rw [Nat.ofDigitChars_append,
      @Nat.ofDigitChars_eq_ofDigitChars_zero _ (Nat.ofDigitChars 10 numeral.whole 0), filled,
      Nat.mul_comm]
    rfl
  rw [joined, Numeral.value, isDecimal.unsigned, if_neg Bool.false_ne_true, Numeral.magnitude,
    ← digitsValue_append_zeros _ _ (7 - numeral.fractional.length), digitsValue, filled,
    div_mul_cancel₀ _ (by norm_num)]

theorem IsDecimal.mantissaValue_eq (isDecimal : IsDecimal amount numeral) :
    mantissaValue amount.toList = numeral.value := by
  rw [isDecimal.toList_eq, Numeral.value, isDecimal.unsigned, if_neg Bool.false_ne_true,
    ← numeral.literalValue_unsigned, literalValue_mantissa]
  intro member
  rw [← isDecimal.toList_eq, ← isDecimal.text] at member
  rcases numeral.letter_of_mem_text member with same | same | digit
  · cases same
  · cases same
  · cases digit

theorem formatStroops_eq (stroops : ℕ) :
    (formatStroops stroops).toList = (fixedNumeral 7 stroops).text := by
  unfold formatStroops
  dsimp only
  rw [Numeral.text, Numeral.sign, fixedNumeral, if_neg Bool.false_ne_true, List.nil_append]
  change _ = Nat.toDigits 10 (stroops / 10000000) ++
    if (paddedDigits 7 (stroops % 10000000)).rdropWhile (fun digit => decide (digit = '0')) = []
    then [] else '.' :: (paddedDigits 7 (stroops % 10000000)).rdropWhile
      (fun digit => decide (digit = '0'))
  change (if (paddedDigits 7 (stroops % 10000000)).rdropWhile
    (fun digit => decide (digit = '0')) ≠ [] then _ else _ : String).toList = _
  by_cases empty : (paddedDigits 7 (stroops % 10000000)).rdropWhile
      (fun digit => decide (digit = '0')) = []
  · rw [if_neg (not_not.mpr empty), if_pos empty, Nat.toString_eq_repr, Nat.toList_repr,
      List.append_nil]
  · rw [if_pos empty, if_neg empty, String.toList_append, String.toList_append,
      Nat.toString_eq_repr, Nat.toList_repr, List.append_assoc]
    exact congrArg (fun text => Nat.toDigits 10 (stroops / 10000000) ++ '.' :: text)
      String.toList_ofList

/-- An amount that can be paid. -/
def IsPayable (amount : String) : Prop :=
  ∃ numeral, IsDecimal amount numeral ∧ 0 < numeral.value * 10 ^ 7 ∧
    numeral.value * 10 ^ 7 ≤ 2 ^ 63 - 1

theorem IsDecimal.isPayable_iff (isDecimal : IsDecimal amount numeral) :
    IsPayable amount ↔ 0 < decimalToStroops (numeral.whole, numeral.fractional) ∧
      decimalToStroops (numeral.whole, numeral.fractional) ≤ maxStroops := by
  have most : ((maxStroops : ℕ) : ℚ) = 2 ^ 63 - 1 := by
    rw [maxStroops]
    norm_num
  rw [← Nat.cast_pos (α := ℚ), ← Nat.cast_le (α := ℚ), isDecimal.stroops_eq, most]
  constructor
  · rintro ⟨numeral', isDecimal', bounds⟩
    rw [Numeral.eq_of_text_eq (isDecimal.text.trans isDecimal'.text.symm)]
    exact bounds
  · exact fun bounds => ⟨numeral, isDecimal, bounds⟩

theorem validateRow_eq_nil_iff {recipient : String} :
    validateRow recipient amount = [] ↔ IsPublicKey recipient.toList ∧ IsPayable amount := by
  rw [validateRow, List.append_eq_nil_iff, ← isValidEd25519PublicKey_iff]
  refine and_congr ?_ ?_
  · split_ifs with empty valid
    · subst empty
      exact iff_of_false (nomatch ·) (by decide)
    · exact iff_of_true rfl valid
    · exact iff_of_false (nomatch ·) valid
  · cases found : decimalParts amount with
    | none =>
      refine iff_of_false ?_ fun ⟨numeral, isDecimal, _⟩ => ?_
      · split_ifs
        · exact nofun
        · exact nofun
      · rw [isDecimal.decimalParts_eq] at found
        cases found
    | some parts =>
      obtain ⟨numeral, isDecimal⟩ := exists_isDecimal found
      have same : parts = (numeral.whole, numeral.fractional) :=
        Option.some.inj (found.symm.trans isDecimal.decimalParts_eq)
      have filled : amount ≠ "" := by
        rintro rfl
        exact numeral.text_ne_nil isDecimal.text
      rw [isDecimal.isPayable_iff, ← same, if_neg filled]
      dsimp only
      split_ifs with least most
      · exact iff_of_false (nomatch ·) (by omega)
      · exact iff_of_false (nomatch ·) (by omega)
      · exact iff_of_true rfl (by omega)

end Amounts

/-! ## Records and lines -/

section Lines

variable {records : List (ℕ × List (List Char))}

/-- A record that has a letter other than white space. -/
def isFilled (record : ℕ × List (List Char)) : Bool := !isBlank (cellTexts record.2)

/-- The record stands in one line. -/
def InOneLine (record : ℕ × List (List Char)) : Prop :=
  ∀ cell ∈ record.2, lineFeed ∉ cell ∧ carriageReturn ∉ cell

/-- Above each row of data all records are filled and stand in one line each. -/
def EachInOneLine (records : List (ℕ × List (List Char))) : Prop :=
  ∀ earlier record later, records = earlier ++ record :: later → isFilled record = true →
    (∃ header ∈ earlier, isFilled header = true) →
      ∀ before ∈ earlier, isFilled before = true ∧ InOneLine before

/-- The records above one of those that are kept. -/
theorem forall_getElem_filter_iff {α : Type} {keeps : α → Bool} {property : ℕ → α → Prop}
    {all : List α} :
    (∀ index record, (all.filter keeps)[index]? = some record → property index record) ↔
      ∀ earlier record later, all = earlier ++ record :: later → keeps record = true →
        property (earlier.filter keeps).length record := by
  constructor
  · rintro each earlier record later rfl kept
    refine each _ record ?_
    rw [List.filter_append, List.filter_cons, if_pos kept, List.getElem?_append_right le_rfl,
      Nat.sub_self, List.getElem?_cons_zero]
  · intro each index record found
    induction all generalizing index property with
    | nil => cases found
    | cons first all ih =>
      rw [List.filter_cons] at found
      split at found
      · rename_i kept
        cases index with
        | zero =>
          rw [List.getElem?_cons_zero, Option.some.injEq] at found
          exact found ▸ each [] first all rfl kept
        | succ index =>
          refine @ih (fun index => property (index + 1)) (fun earlier record later split here => ?_)
            index (by rwa [List.getElem?_cons_succ] at found)
          have behind := each (first :: earlier) record later (by rw [split]; rfl) here
          rwa [List.filter_cons, if_pos kept] at behind
      · rename_i dropped
        refine @ih property (fun earlier record later split here => ?_) index found
        have behind := each (first :: earlier) record later (by rw [split]; rfl) here
        rwa [List.filter_cons, if_neg dropped] at behind

/-- Lines are records just where no record is blank or has more of them. -/
theorem sum_lineBreaks_eq_iff {earlier : List (ℕ × List (List Char))} :
    (earlier.map fun record => (record.2.map payoutDialect.lineBreaks).sum + 1).sum =
        (earlier.filter isFilled).length ↔
      ∀ before ∈ earlier, isFilled before = true ∧ InOneLine before := by
  induction earlier with
  | nil => exact iff_of_true rfl (List.forall_mem_nil _)
  | cons before earlier ih =>
    have least : (earlier.filter isFilled).length ≤
        (earlier.map fun record => (record.2.map payoutDialect.lineBreaks).sum + 1).sum := by
      refine (List.length_filter_le _ _).trans ?_
      clear ih
      induction earlier with
      | nil => exact Nat.le_refl 0
      | cons first earlier ih =>
        rw [List.length_cons, List.map_cons, List.sum_cons]
        omega
    have inOneLine : (before.2.map payoutDialect.lineBreaks).sum = 0 ↔ InOneLine before := by
      rw [List.sum_eq_zero_iff, List.forall_mem_map]
      exact forall₂_congr fun cell _ => Csv.Dialect.lineBreaks_eq_zero_iff
    rw [List.forall_mem_cons, ← ih, ← inOneLine, List.map_cons, List.sum_cons, List.filter_cons]
    cases isFilled before with
    | true =>
      rw [if_pos rfl, List.length_cons, and_iff_right rfl]
      omega
    | false =>
      rw [if_neg Bool.false_ne_true]
      refine iff_of_false (by omega) fun both => Bool.false_ne_true both.1.1

/-- The rows of data have the lines next to each other that `parseBulkPayoutCsv` gives them. -/
theorem lines_eq_iff {text : List Char} {header : ℕ × List (List Char)}
    {dataRecords : List (ℕ × List (List Char))} (isTable : payoutDialect.IsTable 1 text records)
    (filled : records.filter isFilled = header :: dataRecords) :
    (∀ index record, dataRecords[index]? = some record → record.1 = index + 2) ↔
      EachInOneLine records := by
  have shifted : (∀ index record, dataRecords[index]? = some record → record.1 = index + 2) ↔
      ∀ index record, (records.filter isFilled)[index]? = some record → index ≠ 0 →
        record.1 = index + 1 := by
    rw [filled]
    constructor
    · intro each index record found positive
      cases index with
      | zero => exact absurd rfl positive
      | succ index => exact each index record found
    · exact fun each index record found => each (index + 1) record found (Nat.succ_ne_zero _)
  rw [shifted, forall_getElem_filter_iff]
  refine forall₃_congr fun earlier record later => forall₂_congr fun split kept => ?_
  rw [Csv.Dialect.line_eq isTable earlier record later split, ← sum_lineBreaks_eq_iff, Ne,
    List.length_eq_zero_iff, List.filter_eq_nil_iff]
  simp only [not_forall, not_not, exists_prop]
  refine imp_congr_right fun _ => ?_
  rw [Nat.add_comm, Nat.add_right_cancel_iff]

end Lines

/-! ## The parser -/

section Parser

/-- The cell of a record in a column, without the white space around it. -/
def trimmedCell (record : List String) (column : ℕ) : String := trim (record.getD column "")

/-- The column of a header. -/
def columnOf (headers : List String) (header : CsvHeader) : Option ℕ :=
  (headers.map fun text => headerAliases.lookup (normalizeHeader text)).idxOf? (some header)

/-- What a list of payouts says, record by record. -/
structure FaithfullyParsed (records : List (ℕ × List (List Char))) (recipients amounts : ℕ)
    (result : BulkPayoutParseResult) : Prop where
  rows : List.Forall₂ (fun record row => row.lineNumber = record.1 ∧
      row.recipient = trimmedCell (cellTexts record.2) recipients ∧
        row.amount = trimmedCell (cellTexts record.2) amounts) records result.rows
  distinct : (result.rows.map BulkPayoutRow.id).Nodup
  valid : ∀ row ∈ result.rows,
    row ∈ result.validRows ↔ IsPublicKey row.recipient.toList ∧ IsPayable row.amount
  total : ∃ numeral : Numeral, numeral.text = result.totalAmount.toList ∧
    numeral.value = (result.validRows.map fun row => mantissaValue row.amount.toList).sum

variable {records dataRecords : List (ℕ × List (List Char))} {header : ℕ × List (List Char)}
  {text : String} {recipients amounts : ℕ}

theorem parseCsvRecords_eq (isTable : payoutDialect.IsTable 1 text.toList records) :
    parseCsvRecords text = (records.filter isFilled).map fun record => cellTexts record.2 := by
  rw [parseCsvRecords, scanRecords_table isTable, List.filter_map]
  rfl

theorem getD_trim (cell : Option String) : (cell.map trim).getD "" = trim (cell.getD "") := by
  cases cell with
  | none => decide
  | some cell => rfl

/-- The row of a record of data. -/
theorem rowOfRecord_eq {headers record : List String} (lineNumber : ℕ)
    (recipientsFound : columnOf headers .recipient = some recipients)
    (amountsFound : columnOf headers .amount = some amounts) :
    ∃ xdr, rowOfRecord (headers.map fun text => headerAliases.lookup (normalizeHeader text))
        lineNumber record =
      createRow lineNumber (trimmedCell record recipients) (trimmedCell record amounts) xdr
        (validateRow (trimmedCell record recipients) (trimmedCell record amounts)) := by
  have atRecipients := recipientsFound
  have atAmounts := amountsFound
  rw [columnOf] at atRecipients atAmounts
  rw [rowOfRecord]
  dsimp only
  rw [atRecipients, atAmounts, Option.bind_some, Option.bind_some, getD_trim, trimmedCell,
    trimmedCell, List.getD_eq_getElem?_getD, List.getD_eq_getElem?_getD]
  exact ⟨_, rfl⟩

theorem parsedRows_eq {records : List (List String)} {headers : List String}
    (parsed : parseCsvRecords text = headers :: records)
    (recipientsFound : columnOf headers .recipient = some recipients)
    (amountsFound : columnOf headers .amount = some amounts)
    (filled : ∀ record ∈ records, isBlank record = false) :
    parsedRows text = (records.zipIdx 2).map fun (record, lineNumber) =>
      rowOfRecord (headers.map fun text => headerAliases.lookup (normalizeHeader text)) lineNumber
        record := by
  have contains {header : CsvHeader} {column : ℕ} (found : columnOf headers header = some column) :
      (headers.map fun text => headerAliases.lookup (normalizeHeader text)).contains
        (some header) = true := by
    rw [columnOf] at found
    rw [List.contains_iff_mem]
    by_contra absent
    rw [List.idxOf?_eq_none_iff.mpr absent] at found
    cases found
  have noneMissing : (requiredHeaders.filter fun header => !(headers.map fun text =>
      headerAliases.lookup (normalizeHeader text)).contains (some header)) = [] := by
    simp only [requiredHeaders, List.filter_cons, contains recipientsFound,
      contains amountsFound]
    rfl
  rw [parsedRows, parsed]
  dsimp only
  rw [noneMissing, if_neg (not_not.mpr rfl), rowsOfRecords]
  generalize headers.map (fun text => headerAliases.lookup (normalizeHeader text)) = headers
  rw [← List.filterMap_eq_map']
  refine List.filterMap_congr fun pair member => ?_
  obtain ⟨-, -, here⟩ := List.mem_zipIdx member
  dsimp only
  rw [filled pair.1 (here ▸ List.getElem_mem _)]
  rfl

/-- Every row carries the errors of its own cells. -/
theorem mem_validRows_iff {rows : List BulkPayoutRow} {row : BulkPayoutRow}
    (checked : row.errors = validateRow row.recipient row.amount) (member : row ∈ rows) :
    row ∈ (toParseResult rows).validRows ↔
      IsPublicKey row.recipient.toList ∧ IsPayable row.amount := by
  rw [toParseResult, List.mem_filter, and_iff_right member, decide_eq_true_eq, checked,
    validateRow_eq_nil_iff]

theorem sum_stroops_eq {rows : List BulkPayoutRow} (payable : ∀ row ∈ rows, IsPayable row.amount) :
    (((rows.map fun row => ((decimalParts row.amount).map decimalToStroops).getD 0).sum : ℕ) : ℚ) =
      (rows.map fun row => mantissaValue row.amount.toList).sum * 10 ^ 7 := by
  induction rows with
  | nil => simp
  | cons row rows ih =>
    obtain ⟨⟨numeral, isDecimal, -⟩, others⟩ := List.forall_mem_cons.mp payable
    rw [List.map_cons, List.sum_cons, List.map_cons, List.sum_cons, Nat.cast_add, ih others,
      isDecimal.decimalParts_eq, Option.map_some, Option.getD_some, isDecimal.stroops_eq,
      isDecimal.mantissaValue_eq, add_mul]

theorem totalAmount_eq {rows : List BulkPayoutRow}
    (checked : ∀ row ∈ rows, row.errors = validateRow row.recipient row.amount) :
    ∃ numeral : Numeral, numeral.text = (toParseResult rows).totalAmount.toList ∧
      numeral.value =
        ((toParseResult rows).validRows.map fun row => mantissaValue row.amount.toList).sum := by
  have payable : ∀ row ∈ (toParseResult rows).validRows, IsPayable row.amount := by
    intro row valid
    have member : row ∈ rows := List.mem_of_mem_filter valid
    exact ((mem_validRows_iff (checked row member) member).mp valid).2
  refine ⟨fixedNumeral 7 _, (formatStroops_eq _).symm, ?_⟩
  rw [value_fixedNumeral _ (by decide)]
  exact (div_eq_iff (by norm_num)).mpr (sum_stroops_eq payable)

theorem rows_iff {headers : List String} {dataRecords : List (ℕ × List (List Char))}
    (recipientsFound : columnOf headers .recipient = some recipients)
    (amountsFound : columnOf headers .amount = some amounts) (start : ℕ) :
    List.Forall₂ (fun record row => row.lineNumber = record.1 ∧
        row.recipient = trimmedCell (cellTexts record.2) recipients ∧
          row.amount = trimmedCell (cellTexts record.2) amounts) dataRecords
      (((dataRecords.map fun record => cellTexts record.2).zipIdx start).map
        fun (record, lineNumber) => rowOfRecord (headers.map fun text =>
          headerAliases.lookup (normalizeHeader text)) lineNumber record) ↔
      ∀ index record, dataRecords[index]? = some record → record.1 = index + start := by
  induction dataRecords generalizing start with
  | nil => exact iff_of_true .nil nofun
  | cons record dataRecords ih =>
    obtain ⟨xdr, row⟩ := @rowOfRecord_eq _ _ _ (cellTexts record.2) start recipientsFound
      amountsFound
    rw [List.map_cons, List.zipIdx_cons, List.map_cons, List.forall₂_cons, ih]
    dsimp only
    rw [row]
    constructor
    · rintro ⟨⟨line, -⟩, others⟩ index found here
      cases index with
      | zero =>
        rw [List.getElem?_cons_zero, Option.some.injEq] at here
        rw [← here, ← line, Nat.zero_add]
        rfl
      | succ index =>
        rw [List.getElem?_cons_succ] at here
        rw [others index found here, Nat.add_assoc, Nat.add_comm start]
    · intro each
      refine ⟨⟨?_, rfl, rfl⟩, fun index found here => ?_⟩
      · rw [each 0 record rfl, Nat.zero_add]
        rfl
      · rw [each (index + 1) found here, Nat.add_assoc, Nat.add_comm start]

theorem checked_of_mem {headers : List String} {records : List (List String)} {start : ℕ}
    (recipientsFound : columnOf headers .recipient = some recipients)
    (amountsFound : columnOf headers .amount = some amounts) :
    ∀ row ∈ (records.zipIdx start).map fun (record, lineNumber) => rowOfRecord (headers.map
        fun text => headerAliases.lookup (normalizeHeader text)) lineNumber record,
      row.errors = validateRow row.recipient row.amount := by
  rw [List.forall_mem_map]
  intro pair _
  obtain ⟨xdr, row⟩ := @rowOfRecord_eq _ _ _ pair.1 pair.2 recipientsFound amountsFound
  dsimp only
  rw [row, createRow]

/-- A list of payouts is parsed as it is written if and only if the line of each row is told by
the records above it: none of them is blank, and none of them has a line break in a cell. -/
theorem bulk_payouts_parsed_iff {text : String} {records : List (ℕ × List (List Char))}
    {header : ℕ × List (List Char)} {dataRecords : List (ℕ × List (List Char))}
    {recipients amounts : ℕ} (isTable : payoutDialect.IsTable 1 text.toList records)
    (filled : records.filter isFilled = header :: dataRecords)
    (recipientsFound : columnOf (cellTexts header.2) .recipient = some recipients)
    (amountsFound : columnOf (cellTexts header.2) .amount = some amounts) :
    FaithfullyParsed dataRecords recipients amounts (parseBulkPayoutCsv text) ↔
      EachInOneLine records := by
  have parsed : parseCsvRecords text =
      cellTexts header.2 :: dataRecords.map fun record => cellTexts record.2 := by
    rw [parseCsvRecords_eq isTable, filled, List.map_cons]
  have dataFilled : ∀ record ∈ dataRecords.map fun record => cellTexts record.2,
      isBlank record = false := by
    rw [List.forall_mem_map]
    intro record member
    have kept : record ∈ records.filter isFilled := filled ▸ List.mem_cons_of_mem _ member
    have isFilled : (!isBlank (cellTexts record.2)) = true :=
      List.of_mem_filter (p := isFilled) kept
    rwa [Bool.not_eq_true'] at isFilled
  have rows := parsedRows_eq parsed recipientsFound amountsFound dataFilled
  have checked : ∀ row ∈ parsedRows text, row.errors = validateRow row.recipient row.amount := by
    rw [rows]
    exact checked_of_mem recipientsFound amountsFound
  rw [← lines_eq_iff isTable filled, ← rows_iff recipientsFound amountsFound 2, ← rows]
  refine ⟨FaithfullyParsed.rows, fun numbered => ⟨numbered, parsedRows_distinct text,
    fun row member => mem_validRows_iff (checked row member) member, totalAmount_eq checked⟩⟩

def headerLine : List Char := "to".toList ++ ',' :: "amount".toList

/-- A row in the line below the headers. -/
theorem bulk_payouts_parsed_of_two_lines :
    FaithfullyParsed [(2, [['x'], ['1']])] 0 1
      (parseBulkPayoutCsv (String.ofList (headerLine ++ [lineFeed] ++ ['x', ',', '1']))) := by
  have plain {cell : List Char} (large : ∀ letter ∈ cell, 0x2C < letter.toNat) :
      payoutDialect.IsField cell cell := .bare fun letter member => isSpecial_of_lt (large _ member)
  have header : payoutDialect.IsRecord headerLine ["to".toList, "amount".toList] :=
    .cons (plain (by simp)) (.last (plain (by simp)))
  have row : payoutDialect.IsRecord (['x'] ++ ',' :: ['1']) [['x'], ['1']] :=
    .cons (plain (by simp)) (.last (plain (by simp)))
  have isTable : payoutDialect.IsTable 1
      (String.ofList (headerLine ++ [lineFeed] ++ ['x', ',', '1'])).toList
      [(1, ["to".toList, "amount".toList]), (2, [['x'], ['1']])] := by
    rw [String.toList_ofList]
    exact .cons header .lineFeed (fun same => absurd same (by decide)) (.last row)
  refine (@bulk_payouts_parsed_iff _ _ (1, ["to".toList, "amount".toList]) _ _ _ isTable
    (by decide +kernel) (by decide +kernel) (by decide +kernel)).mpr ?_
  rintro (_ | ⟨first, _ | ⟨second, earlier⟩⟩) record later split - ⟨above, member, -⟩
  · cases member
  · cases List.mem_singleton.mp member
    obtain ⟨rfl, -⟩ := List.cons.inj split
    rw [List.forall_mem_singleton]
    exact ⟨by decide +kernel, by unfold InOneLine; decide +kernel⟩
  · have lengths := congrArg List.length split
    simp at lengths

/-- A blank line and a row below the headers. -/
def blankLineText : String :=
  String.ofList (headerLine ++ [lineFeed] ++ ([] ++ [lineFeed] ++ ['x', ',', '1']))

/-- The row in the third line is said to be in the second. -/
theorem blank_line_shifts_rows :
    ∃ records header dataRecords, payoutDialect.IsTable 1 blankLineText.toList records ∧
      records.filter isFilled = header :: dataRecords ∧
      columnOf (cellTexts header.2) .recipient = some 0 ∧
      columnOf (cellTexts header.2) .amount = some 1 ∧
      ¬ FaithfullyParsed dataRecords 0 1 (parseBulkPayoutCsv blankLineText) := by
  have plain {cell : List Char} (large : ∀ letter ∈ cell, 0x2C < letter.toNat) :
      payoutDialect.IsField cell cell := .bare fun letter member => isSpecial_of_lt (large _ member)
  have header : payoutDialect.IsRecord headerLine ["to".toList, "amount".toList] :=
    .cons (plain (by simp)) (.last (plain (by simp)))
  have row : payoutDialect.IsRecord (['x'] ++ ',' :: ['1']) [['x'], ['1']] :=
    .cons (plain (by simp)) (.last (plain (by simp)))
  have blank : payoutDialect.IsRecord [] [[]] := .last (.bare nofun)
  refine ⟨[(1, ["to".toList, "amount".toList]), (2, [[]]), (3, [['x'], ['1']])],
    (1, ["to".toList, "amount".toList]), [(3, [['x'], ['1']])], ?_, by decide +kernel,
    by decide +kernel, by decide +kernel, fun faithful => ?_⟩
  · rw [blankLineText, String.toList_ofList]
    exact .cons header .lineFeed (fun same => absurd same (by decide))
      (.cons blank .lineFeed (fun same => absurd same (by decide)) (.last row))
  · have lines : (parseBulkPayoutCsv blankLineText).rows.map BulkPayoutRow.lineNumber = [2] := by
      decide +kernel
    have numbered := faithful.rows
    generalize (parseBulkPayoutCsv blankLineText).rows = rows at lines numbered
    cases numbered with
    | cons first =>
      rw [List.map_cons, first.1] at lines
      cases (List.cons.inj lines).1

end Parser

end Ancore.Payouts
