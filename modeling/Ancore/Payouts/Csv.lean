import Ancore.Library.EcmaScript
import Ancore.Payouts.Batches
import Ancore.Soroban.StrKey

/-! # Lists of payouts

`parseBulkPayoutCsv` makes rows of a CSV, one for each line below the headers.  The id
of a row starts with the number of its line, so that no two rows share one
(`parsedRows_distinct`).
-/

namespace Ancore.Payouts

open Ancore.Library Ancore.Library.EcmaScript Ancore.Soroban

/-! ## Records -/

def quotationMark : Char := Char.ofNat 0x22

def lineFeed : Char := Char.ofNat 0xA

def carriageReturn : Char := Char.ofNat 0xD

/-- The loop of `parseCsvRecords`, with the field and the record that it is in. -/
def scanRecords : List Char → Bool → List Char → List String → List (List String)
  | [], _, field, record =>
    if field ≠ [] ∨ record ≠ [] then [record ++ [String.ofList field]] else []
  | char :: rest, inQuotes, field, record =>
    if char = quotationMark then
      match rest with
      | [] => scanRecords [] (!inQuotes) field record
      | nextChar :: later =>
        -- two quotation marks in quotes are one that belongs to the field
        if inQuotes ∧ nextChar = quotationMark then
          scanRecords later true (field ++ [quotationMark]) record
        else scanRecords (nextChar :: later) (!inQuotes) field record
    else if char = ',' ∧ ¬inQuotes then
      scanRecords rest inQuotes [] (record ++ [String.ofList field])
    else if (char = lineFeed ∨ char = carriageReturn) ∧ ¬inQuotes then
      match rest with
      | [] => [record ++ [String.ofList field]]
      | nextChar :: later =>
        (record ++ [String.ofList field]) ::
          if char = carriageReturn ∧ nextChar = lineFeed then scanRecords later inQuotes [] []
          else scanRecords (nextChar :: later) inQuotes [] []
    else scanRecords rest inQuotes (field ++ [char]) record

def isBlank (record : List String) : Bool := record.all fun cell => trim cell = ""

def parseCsvRecords (csv : String) : List (List String) :=
  (scanRecords csv.toList false [] []).filter fun record => !isBlank record

/-! ## Amounts -/

/-- The digits of an amount that `/^\d+(?:\.\d\x7b1,7\x7d)?$/` matches, before and behind the
point. -/
def decimalParts (amount : String) : Option (List Char × List Char) :=
  let (whole, rest) := amount.toList.span fun letter => letter ≠ '.'
  let fractional := rest.drop 1
  if whole ≠ [] ∧ whole.all Char.isDigit ∧ fractional.all Char.isDigit ∧
      (rest = [] ∨ (1 ≤ fractional.length ∧ fractional.length ≤ 7)) then
    some (whole, fractional)
  else none

def maxStroops : Nat := 9223372036854775807

/-- `decimalToStroops` of an amount with these digits. -/
def decimalToStroops (parts : List Char × List Char) : Nat :=
  Nat.ofDigitChars 10 parts.1 0 * 10000000 +
    Nat.ofDigitChars 10 (parts.2 ++ List.replicate (7 - parts.2.length) '0') 0

def formatStroops (stroops : Nat) : String :=
  let digits := Nat.toDigits 10 (stroops % 10000000)
  let padded := List.replicate (7 - digits.length) '0' ++ digits
  let fractional := padded.rdropWhile fun digit => digit = '0'
  if fractional ≠ [] then toString (stroops / 10000000) ++ "." ++ String.ofList fractional
  else toString (stroops / 10000000)

/-! ## Public keys -/

/-- The loop of `decodeBase32`. -/
def decodeDigits : List Nat → UInt32 → Nat → Bytes
  | [], _, _ => []
  | digit :: digits, buffer, bits =>
    let buffer := (buffer <<< 5) ||| UInt32.ofNat digit
    if 8 ≤ bits + 5 then
      (buffer >>> UInt32.ofNat (bits + 5 - 8)).toUInt8 :: decodeDigits digits buffer (bits + 5 - 8)
    else decodeDigits digits buffer (bits + 5)

def decodeBase32 (value : List Char) : Option Bytes :=
  (value.mapM fun letter => base32Alphabet.idxOf? letter).map fun digits => decodeDigits digits 0 0

def isValidEd25519PublicKey (value : String) : Bool :=
  match value.toList with
  | 'G' :: letters =>
    letters.length = 55 && letters.all (base32Alphabet.contains ·) &&
      match decodeBase32 ('G' :: letters) with
      | none => false
      | some decoded =>
        decoded.length = 35 &&
          let payload := decoded.take 33
          let checksum := (decoded.getD 33 0).toUInt16 ||| ((decoded.getD 34 0).toUInt16 <<< 8)
          payload.head? = some ((6 : UInt8) <<< 3) && crc16 payload = checksum
  | _ => false

/-! ## Rows -/

def validateRow (recipient amount : String) : List String :=
  (if recipient = "" then ["Recipient is required"]
    else if isValidEd25519PublicKey recipient then []
    else ["Recipient must be a valid Stellar G... public key"]) ++
  (if amount = "" then ["Amount is required"]
    else
      match decimalParts amount with
      | none => ["Amount must be a positive decimal with up to 7 fractional digits"]
      | some parts =>
        if decimalToStroops parts ≤ 0 then ["Amount must be greater than zero"]
        else if maxStroops < decimalToStroops parts then
          ["Amount exceeds the Stellar maximum asset amount"]
        else [])

inductive CsvHeader where
  | recipient
  | amount
  | signedTransactionXdr
deriving DecidableEq

def CsvHeader.name : CsvHeader → String
  | recipient => "recipient"
  | amount => "amount"
  | signedTransactionXdr => "signedTransactionXdr"

def requiredHeaders : List CsvHeader := [.recipient, .amount]

def headerAliases : List (String × CsvHeader) :=
  [("address", .recipient), ("destination", .recipient), ("recipient", .recipient),
    ("to", .recipient), ("amount", .amount), ("signedtransactionxdr", .signedTransactionXdr),
    ("signedxdr", .signedTransactionXdr), ("xdr", .signedTransactionXdr)]

def normalizeHeader (value : String) : String :=
  String.ofList ((toLowerCase (trim value)).toList.filter fun letter =>
    !(isWhiteSpace letter || letter = '_' || letter = '-'))

structure BulkPayoutParseResult where
  rows : List BulkPayoutRow
  validRows : List BulkPayoutRow
  invalidRows : List BulkPayoutRow
  totalAmount : String

def toParseResult (rows : List BulkPayoutRow) : BulkPayoutParseResult where
  rows
  validRows := rows.filter fun row => row.errors = []
  invalidRows := rows.filter fun row => row.errors ≠ []
  totalAmount := formatStroops (((rows.filter fun row => row.errors = []).map fun row =>
    ((decimalParts row.amount).map decimalToStroops).getD 0).sum)

/-- The row of a record, by the columns of the headers. -/
def rowOfRecord (headers : List (Option CsvHeader)) (lineNumber : Nat) (record : List String) :
    BulkPayoutRow :=
  let cell (header : CsvHeader) : Option String :=
    (headers.idxOf? (some header)).bind fun index => record[index]?
  let recipient := ((cell .recipient).map trim).getD ""
  let amount := trim ((cell .amount).getD "")
  createRow lineNumber recipient amount ((cell .signedTransactionXdr).map trim)
    (validateRow recipient amount)

/-- The rows below the headers; the first has line number two. -/
def rowsOfRecords (headers : List (Option CsvHeader)) (records : List (List String)) :
    List BulkPayoutRow :=
  (records.zipIdx 2).filterMap fun (record, lineNumber) =>
    if isBlank record then none else some (rowOfRecord headers lineNumber record)

def parsedRows (csv : String) : List BulkPayoutRow :=
  match parseCsvRecords csv with
  | [] => []
  | first :: records =>
    let headers := first.map fun header => headerAliases.lookup (normalizeHeader header)
    let missingHeaders := requiredHeaders.filter fun header => !headers.contains (some header)
    if missingHeaders ≠ [] then
      [createRow 1 "" "" none ["Missing required column" ++
        (if 1 < missingHeaders.length then "s" else "") ++ ": " ++
          ", ".intercalate (missingHeaders.map CsvHeader.name)]]
    else rowsOfRecords headers records

def parseBulkPayoutCsv (csv : String) : BulkPayoutParseResult := toParseResult (parsedRows csv)

/-! ## Ids -/

theorem id_createRow {lineNumber lineNumber' : Nat} {recipient amount recipient' amount' : String}
    {xdr xdr' : Option String} {errors errors' : List String}
    (same : (createRow lineNumber recipient amount xdr errors).id =
      (createRow lineNumber' recipient' amount' xdr' errors').id) : lineNumber = lineNumber' := by
  have plain (number : Nat) : '-' ∉ (toString number).toList := by
    intro member
    rw [Nat.toString_eq_repr, Nat.toList_repr] at member
    have isDigit := Nat.isDigit_of_mem_toDigits (by decide) (by decide) member
    cases isDigit
  have lists := congrArg String.toList same
  have dash : "-".toList = ['-'] := rfl
  simp only [createRow, String.toList_append, List.append_assoc, dash, List.cons_append,
    List.nil_append] at lists
  -- the number of the line is what stands before the first dash
  generalize recipient.toList ++ '-' :: amount.toList = tail at lists
  generalize recipient'.toList ++ '-' :: amount'.toList = tail' at lists
  have reversed := congrArg List.reverse lists
  simp only [List.reverse_append, List.reverse_cons, List.append_assoc,
    List.singleton_append] at reversed
  have numbers := (separated_inj (mt List.mem_reverse.mp (plain _))
    (mt List.mem_reverse.mp (plain _)) reversed).2
  exact Nat.repr_injective (String.toList_inj.mp (List.reverse_injective numbers))

theorem lineNumber_of_mem {headers : List (Option CsvHeader)} {records : List (List String)}
    {start : Nat} {row : BulkPayoutRow}
    (member : row ∈ (records.zipIdx start).filterMap fun (record, lineNumber) =>
      if isBlank record then none else some (rowOfRecord headers lineNumber record)) :
    ∃ lineNumber record, start ≤ lineNumber ∧ row = rowOfRecord headers lineNumber record := by
  obtain ⟨⟨record, lineNumber⟩, indexed, made⟩ := List.mem_filterMap.mp member
  dsimp only at made
  split at made
  · cases made
  · cases made
    exact ⟨lineNumber, record, (List.mem_zipIdx indexed).1, rfl⟩

/-- Records have different lines, and their rows different ids. -/
theorem rows_distinct (headers : List (Option CsvHeader)) (records : List (List String))
    (start : Nat) :
    (((records.zipIdx start).filterMap fun (record, lineNumber) =>
      if isBlank record then none else some (rowOfRecord headers lineNumber record)).map
        BulkPayoutRow.id).Nodup := by
  induction records generalizing start with
  | nil => exact List.nodup_nil
  | cons record records inductionHypothesis =>
    rw [List.zipIdx_cons, List.filterMap_cons]
    dsimp only
    split_ifs with blank
    · exact inductionHypothesis (start + 1)
    · rw [List.map_cons, List.nodup_cons]
      refine ⟨fun member => ?_, inductionHypothesis (start + 1)⟩
      obtain ⟨row, later, same⟩ := List.mem_map.mp member
      obtain ⟨lineNumber, other, bound, rfl⟩ := lineNumber_of_mem later
      have equal : lineNumber = start := id_createRow same
      omega

theorem parsedRows_distinct (csv : String) : ((parsedRows csv).map BulkPayoutRow.id).Nodup := by
  unfold parsedRows
  split
  · exact List.nodup_nil
  · dsimp only
    split
    · exact List.nodup_singleton _
    · exact rows_distinct _ _ 2

/-! ## The batch -/

/-- `batchId` of the page. -/
def batchIdOf (validRows : List BulkPayoutRow) : Option String :=
  if validRows = [] then none
  else some (toString validRows.length ++ ":" ++ "|".intercalate (validRows.map BulkPayoutRow.id))

/-- The batch of a list. -/
def batchOf (csv : String) : Batch where
  rows := (parseBulkPayoutCsv csv).validRows
  batchId := batchIdOf (parseBulkPayoutCsv csv).validRows
  distinct := (parsedRows_distinct csv).sublist (List.filter_sublist.map _)

/-- The page executes a list that has rows, all of which are valid. -/
@[irreducible] def isExecutable (csv : String) : Bool :=
  (parseBulkPayoutCsv csv).validRows ≠ [] && (parseBulkPayoutCsv csv).invalidRows = []

end Ancore.Payouts
