import Ancore.Library.JsonText

/-! # Derivation paths

A path as `m/44'/148'/0'` is read and written.  The reader takes a letter `h` for an apostrophe,
zeros in front of a number and white space around the path; the writer makes one form of all these.
-/

namespace Ancore.Crypto

open Library.EcmaScript

def stellarCoinType : ℕ := 148

def bip44Purpose : ℕ := 44

/-- `MAX_BIP32_INDEX` -/
def maxBip32Index : ℕ := 0x7fffffff

structure BIP32PathSegment where
  index : ℕ
  hardened : Bool
  deriving DecidableEq

structure ParsedBIP32Path where
  valid : Bool
  segments : List BIP32PathSegment
  error : Option JsString
  deriving DecidableEq

/-! ## Reading -/

def slash : ℕ := 0x2F

def apostrophe : ℕ := 0x27

/-- The letter `h` -/
def hardenedLetter : ℕ := 0x68

/-- `/^\d+$/.test(numStr)` -/
def isDigitText (numStr : JsString) : Bool := numStr ≠ [] && numStr.all JsString.isDigit

/-- `parseInt(numStr, 10)` of digits. -/
def parseDigits (numStr : JsString) : ℕ := Nat.ofDigitChars 10 (numStr.map Char.ofNat) 0

def indexText (index : ℕ) : JsString := (Nat.toDigits 10 index).map Char.toNat

/-- A parsed index as it is printed: the double next to it. -/
def doubleText (index : ℕ) : JsString :=
  match toMagnitude index with
  | some magnitude => magnitude.text.map Char.toNat
  | none => ascii "Infinity"

/-- The last letter marks a hardened index. -/
def endsHardened (part : JsString) : Bool :=
  part.getLast? = some apostrophe || part.getLast? = some hardenedLetter

/-- The body of the loop, for the part at a place. -/
def parseSegment (place : ℕ) (part : JsString) : Except JsString BIP32PathSegment :=
  if part = [] then .error (ascii "Empty path segment at index " ++ indexText place)
  else
    let isHardened := endsHardened part
    let numStr := if isHardened then part.dropLast else part
    if !isDigitText numStr then
      .error (ascii "Invalid segment number: \"" ++ part ++ ascii "\"")
    else
      let index := parseDigits numStr
      if index > maxBip32Index then
        .error (ascii "Index " ++ doubleText index ++ ascii " exceeds maximum BIP32 index " ++
          indexText maxBip32Index)
      else .ok ⟨index, isHardened⟩

def parseSegments (place : ℕ) : List JsString → Except JsString (List BIP32PathSegment)
  | [] => .ok []
  | part :: parts => do
    let segment ← parseSegment place part
    let segments ← parseSegments (place + 1) parts
    pure (segment :: segments)

def parseBIP32Path (path : JsString) : ParsedBIP32Path :=
  if path.trim = [] then ⟨false, [], some (ascii "Path must be a non-empty string")⟩
  else
    match path.trim.splitOn slash with
    | [] => ⟨false, [], some (ascii "Path must begin with \"m\"")⟩
    | first :: parts =>
      if first ≠ ascii "m" then ⟨false, [], some (ascii "Path must begin with \"m\"")⟩
      else
        match parseSegments 1 parts with
        | .ok segments => ⟨true, segments, none⟩
        | .error error => ⟨false, [], some error⟩

def isValidBIP32Path (path : JsString) : Bool := (parseBIP32Path path).valid

def isStandardStellarPath (path : JsString) : Bool :=
  let parsed := parseBIP32Path path
  match parsed.valid, parsed.segments with
  | true, purpose :: coinType :: account :: rest =>
    purpose.index = bip44Purpose && purpose.hardened && coinType.index = stellarCoinType &&
      coinType.hardened && account.hardened && rest.length ≤ 2
  | _, _ => false

/-! ## Writing -/

def formatSegment (segment : BIP32PathSegment) : JsString :=
  indexText segment.index ++ if segment.hardened then [apostrophe] else []

def formatBIP32Path (segments : List BIP32PathSegment) : JsString :=
  if segments = [] then ascii "m"
  else ascii "m/" ++ [slash].intercalate (segments.map formatSegment)

/-- An account index that is refused. -/
structure BIP32PathError where
  index : ℚ

/-- The number is an integer from 0 to `MAX_BIP32_INDEX`. -/
def isIndex (number : ℚ) : Bool := 0 ≤ number && number.isInt && number ≤ maxBip32Index

def deriveMainAccountPath (accountIndex : ℚ) : Except BIP32PathError JsString :=
  if !isIndex accountIndex then .error ⟨accountIndex⟩
  else .ok (ascii "m/44'/148'/" ++ indexText accountIndex.num.toNat ++ ascii "'")

def deriveSessionKeyPath (sessionIndex accountIndex : ℚ) : Except BIP32PathError JsString :=
  if !isIndex sessionIndex then .error ⟨sessionIndex⟩
  else if !isIndex accountIndex then .error ⟨accountIndex⟩
  else .ok (ascii "m/44'/148'/" ++ indexText accountIndex.num.toNat ++ ascii "'/2'/" ++
    indexText sessionIndex.num.toNat ++ ascii "'")

/-! ## The grammar -/

/-- Digits of an index. -/
structure IsIndexText (digits : JsString) (index : ℕ) : Prop where
  filled : digits ≠ []
  decimal : ∀ unit ∈ digits, JsString.isDigit unit = true
  value : parseDigits digits = index
  bounded : index < 2 ^ 31

inductive IsSegment : JsString → BIP32PathSegment → Prop where
  | plain {digits : JsString} {index : ℕ} (number : IsIndexText digits index) :
    IsSegment digits ⟨index, false⟩
  | hardened {digits : JsString} {index marker : ℕ} (number : IsIndexText digits index)
    (marks : marker = apostrophe ∨ marker = hardenedLetter) :
    IsSegment (digits ++ [marker]) ⟨index, true⟩

/-- The letter `m` and segments behind slashes. -/
def IsPath (text : JsString) (segments : List BIP32PathSegment) : Prop :=
  ∃ parts, List.Forall₂ IsSegment parts segments ∧
    text = ascii "m" ++ parts.flatMap (slash :: ·)

/-- A path with white space around it. -/
def IsPathText (text : JsString) (segments : List BIP32PathSegment) : Prop :=
  ∃ front path back, text = front ++ path ++ back ∧
    (∀ unit ∈ front, JsString.isWhiteSpace unit = true) ∧
    (∀ unit ∈ back, JsString.isWhiteSpace unit = true) ∧ IsPath path segments

/-- Digits without zeros in front. -/
structure IsCanonicalNumber (digits : JsString) : Prop where
  decimal : ∀ unit ∈ digits, JsString.isDigit unit = true
  leading : digits.head? = some 0x30 → digits = [0x30]

inductive IsCanonicalSegment : JsString → Prop where
  | plain {digits : JsString} (canonical : IsCanonicalNumber digits) : IsCanonicalSegment digits
  | hardened {digits : JsString} (canonical : IsCanonicalNumber digits) :
    IsCanonicalSegment (digits ++ [apostrophe])

/-- A path without white space, zeros in front and the letter `h`. -/
def IsCanonicalPath (text : JsString) : Prop :=
  ∃ parts : List JsString, (∀ part ∈ parts, IsCanonicalSegment part) ∧
    text = ascii "m" ++ parts.flatMap (slash :: ·)

/-! ## Segments -/

section Segments

variable {digits part : JsString} {index unit : ℕ} {segment : BIP32PathSegment}

theorem isDigitText_iff : isDigitText digits = true ↔
    digits ≠ [] ∧ ∀ unit ∈ digits, JsString.isDigit unit = true := by
  simp [isDigitText]

theorem IsIndexText.isDigitText (number : IsIndexText digits index) :
    isDigitText digits = true := isDigitText_iff.mpr ⟨number.filled, number.decimal⟩

theorem IsSegment.ne_nil (isSegment : IsSegment part segment) : part ≠ [] := by
  cases isSegment with
  | plain number => exact number.filled
  | hardened number marks => simp

/-- The letters of a segment. -/
theorem IsSegment.mem_cases (isSegment : IsSegment part segment) (member : unit ∈ part) :
    JsString.isDigit unit = true ∨ unit = apostrophe ∨ unit = hardenedLetter := by
  cases isSegment with
  | plain number => exact .inl (number.decimal unit member)
  | hardened number marks =>
    rcases List.mem_append.mp member with digit | marker
    · exact .inl (number.decimal unit digit)
    · rw [List.mem_singleton.mp marker]
      exact .inr marks

theorem IsSegment.slash_not_mem (isSegment : IsSegment part segment) : slash ∉ part := by
  intro member
  rcases isSegment.mem_cases member with digit | marker | letter
  · cases digit
  · cases marker
  · cases letter

/-- No number ends with a marker. -/
theorem endsHardened_digits (all : ∀ unit ∈ digits, JsString.isDigit unit = true) :
    endsHardened digits = false := by
  have other {marker : ℕ} (noDigit : JsString.isDigit marker = false) :
      digits.getLast? ≠ some marker := by
    intro last
    have digit := all marker (List.mem_of_mem_getLast? last)
    rw [noDigit] at digit
    cases digit
  simp [endsHardened, other (show JsString.isDigit apostrophe = false from rfl),
    other (show JsString.isDigit hardenedLetter = false from rfl)]

theorem endsHardened_concat {marker : ℕ}
    (marks : marker = apostrophe ∨ marker = hardenedLetter) :
    endsHardened (digits ++ [marker]) = true := by
  rw [endsHardened, List.getLast?_concat]
  rcases marks with rfl | rfl <;> rfl

/-- A part that ends with a marker is its front and the marker. -/
theorem exists_marker (marked : endsHardened part = true) :
    ∃ marker, (marker = apostrophe ∨ marker = hardenedLetter) ∧
      part = part.dropLast ++ [marker] := by
  simp only [endsHardened, Bool.or_eq_true, decide_eq_true_eq] at marked
  rcases marked with last | last
  · exact ⟨apostrophe, .inl rfl, (List.dropLast_append_getLast? _ last).symm⟩
  · exact ⟨hardenedLetter, .inr rfl, (List.dropLast_append_getLast? _ last).symm⟩

theorem le_maxBip32Index_iff : index ≤ maxBip32Index ↔ index < 2 ^ 31 := by
  unfold maxBip32Index
  omega

/-- What is read of a part: the number in front of the marker, if there is one. -/
theorem parseSegment_reads (place : ℕ) : parseSegment place part = .ok segment ↔
    part ≠ [] ∧
      IsIndexText (if endsHardened part then part.dropLast else part) segment.index ∧
        segment.hardened = endsHardened part := by
  unfold parseSegment
  generalize endsHardened part = isHardened
  by_cases empty : part = []
  · simp [empty]
  rw [if_neg empty]
  dsimp only
  generalize (if isHardened then part.dropLast else part) = numStr
  by_cases matched : isDigitText numStr = true
  · obtain ⟨filled, digits⟩ := isDigitText_iff.mp matched
    by_cases small : parseDigits numStr ≤ maxBip32Index
    · rw [matched, Bool.not_true, if_neg Bool.false_ne_true, if_neg (Nat.not_lt.mpr small),
        Except.ok.injEq]
      constructor
      · rintro rfl
        exact ⟨empty, ⟨filled, digits, rfl, le_maxBip32Index_iff.mp small⟩, rfl⟩
      · rintro ⟨-, number, hardened⟩
        rw [number.value, ← hardened]
    · rw [matched, Bool.not_true, if_neg Bool.false_ne_true, if_pos (Nat.lt_of_not_le small)]
      refine iff_of_false (fun parsed => nomatch parsed) fun both => small ?_
      rw [both.2.1.value]
      exact le_maxBip32Index_iff.mpr both.2.1.bounded
  · rw [Bool.eq_false_iff.mpr matched, Bool.not_false, if_pos rfl]
    exact iff_of_false (fun parsed => nomatch parsed) fun both => matched both.2.1.isDigitText

theorem parseSegment_eq_ok_iff (place : ℕ) :
    parseSegment place part = .ok segment ↔ IsSegment part segment := by
  rw [parseSegment_reads]
  constructor
  · rintro ⟨filled, number, hardened⟩
    obtain ⟨index, isHardened⟩ := segment
    dsimp only at number hardened
    subst hardened
    by_cases marked : endsHardened part = true
    · obtain ⟨marker, marks, split⟩ := exists_marker marked
      rw [marked] at number ⊢
      rw [split]
      exact .hardened number marks
    · rw [Bool.eq_false_iff.mpr marked] at number ⊢
      exact .plain number
  · intro isSegment
    refine ⟨isSegment.ne_nil, ?_⟩
    cases isSegment with
    | plain number =>
      rw [endsHardened_digits number.decimal]
      exact ⟨number, rfl⟩
    | hardened number marks =>
      rw [endsHardened_concat marks, if_pos rfl, List.dropLast_concat]
      exact ⟨number, rfl⟩

theorem parseSegments_eq_ok_iff (place : ℕ) {parts : List JsString}
    {segments : List BIP32PathSegment} :
    parseSegments place parts = .ok segments ↔ List.Forall₂ IsSegment parts segments := by
  induction parts generalizing place segments with
  | nil =>
    rw [parseSegments, List.forall₂_nil_left_iff, Except.ok.injEq, eq_comm]
  | cons part parts ih =>
    rw [parseSegments]
    constructor
    · intro parsed
      cases first : parseSegment place part with
      | error error =>
        rw [first] at parsed
        cases parsed
      | ok segment =>
        cases others : parseSegments (place + 1) parts with
        | error error =>
          rw [first] at parsed
          dsimp only [bind, Except.bind] at parsed
          rw [others] at parsed
          cases parsed
        | ok rest =>
          rw [first] at parsed
          dsimp only [bind, Except.bind] at parsed
          rw [others] at parsed
          cases parsed
          exact .cons ((parseSegment_eq_ok_iff place).mp first) ((ih (place + 1)).mp others)
    · intro grammar
      cases grammar with
      | cons isSegment others =>
        rw [(parseSegment_eq_ok_iff place).mpr isSegment]
        dsimp only [bind, Except.bind]
        rw [(ih (place + 1)).mpr others]
        rfl

/-- Indices of segments are in range. -/
theorem IsSegment.index_lt (isSegment : IsSegment part segment) : segment.index < 2 ^ 31 := by
  cases isSegment with
  | plain number => exact number.bounded
  | hardened number marks => exact number.bounded

end Segments

/-! ## Paths -/

section Paths

variable {path text : JsString} {segments : List BIP32PathSegment}

theorem intercalate_slash (first : JsString) (parts : List JsString) :
    [slash].intercalate (first :: parts) = first ++ parts.flatMap (slash :: ·) := by
  induction parts generalizing first with
  | nil => simp
  | cons part parts ih =>
    rw [List.intercalate_cons_cons, ih, List.flatMap_cons]
    simp

theorem exists_segment {parts : List JsString} (grammar : List.Forall₂ IsSegment parts segments)
    {part : JsString} (member : part ∈ parts) : ∃ segment, IsSegment part segment := by
  induction grammar with
  | nil => cases member
  | cons isSegment others ih =>
    rcases List.mem_cons.mp member with rfl | member
    · exact ⟨_, isSegment⟩
    · exact ih member

/-- The indices of an accepted path are in range. -/
theorem IsPath.index_lt (isPath : IsPath path segments) :
    ∀ segment ∈ segments, segment.index < 2 ^ 31 := by
  obtain ⟨parts, grammar, -⟩ := isPath
  induction grammar with
  | nil => exact List.forall_mem_nil _
  | cons isSegment others ih => exact List.forall_mem_cons.mpr ⟨isSegment.index_lt, ih⟩

theorem splitOn_slash {parts : List JsString} (free : ∀ part ∈ parts, slash ∉ part) :
    (ascii "m" ++ parts.flatMap (slash :: ·)).splitOn slash = ascii "m" :: parts := by
  rw [← intercalate_slash]
  refine List.splitOn_intercalate slash ?_ (List.cons_ne_nil _ _)
  intro part member
  rcases List.mem_cons.mp member with rfl | member
  · decide
  · exact free part member

theorem slash_not_mem_parts {parts : List JsString}
    (grammar : List.Forall₂ IsSegment parts segments) : ∀ part ∈ parts, slash ∉ part := by
  intro part member
  obtain ⟨segment, isSegment⟩ := exists_segment grammar member
  exact isSegment.slash_not_mem

theorem solid_of_parts {parts : List JsString}
    (solid : ∀ part ∈ parts, ∀ unit ∈ part, JsString.isWhiteSpace unit = false) :
    ∀ unit ∈ ascii "m" ++ parts.flatMap (slash :: ·), JsString.isWhiteSpace unit = false := by
  intro unit member
  rcases List.mem_append.mp member with first | member
  · rw [List.mem_singleton.mp (show unit ∈ [0x6D] from first)]
    rfl
  · obtain ⟨part, isPart, inside⟩ := List.mem_flatMap.mp member
    rcases List.mem_cons.mp inside with rfl | inside
    · rfl
    · exact solid part isPart unit inside

/-- There is no white space in a path. -/
theorem IsPath.solid (isPath : IsPath path segments) :
    ∀ unit ∈ path, JsString.isWhiteSpace unit = false := by
  obtain ⟨parts, grammar, rfl⟩ := isPath
  refine solid_of_parts fun part isPart unit inside => ?_
  obtain ⟨segment, isSegment⟩ := exists_segment grammar isPart
  rcases isSegment.mem_cases inside with digit | rfl | rfl
  · exact JsString.isWhiteSpace_of_isDigit digit
  · rfl
  · rfl

theorem IsPathText.trim (isPathText : IsPathText text segments) : IsPath text.trim segments := by
  obtain ⟨front, path, back, rfl, blankFront, blankBack, isPath⟩ := isPathText
  rw [JsString.trim_append blankFront blankBack (JsString.trimmed_of_forall isPath.solid)]
  exact isPath

theorem isPathText_of_trim (isPath : IsPath text.trim segments) : IsPathText text segments := by
  obtain ⟨front, back, split, blankFront, blankBack⟩ := JsString.exists_trim text
  exact ⟨front, text.trim, back, split, blankFront, blankBack, isPath⟩

/-- The parser accepts the texts of the grammar. -/
theorem parseBIP32Path_eq_iff :
    parseBIP32Path text = ⟨true, segments, none⟩ ↔ IsPathText text segments := by
  constructor
  · intro parsed
    refine isPathText_of_trim ?_
    unfold parseBIP32Path at parsed
    split at parsed
    · cases parsed
    · split at parsed
      · cases parsed
      · rename_i first parts split
        split at parsed
        · cases parsed
        · rename_i letter
          split at parsed
          · rename_i others
            cases parsed
            refine ⟨parts, (parseSegments_eq_ok_iff 1).mp others, ?_⟩
            rw [← intercalate_slash, ← not_not.mp letter, ← split, List.intercalate_splitOn]
          · cases parsed
  · intro isPathText
    obtain ⟨parts, grammar, trimmed⟩ := isPathText.trim
    unfold parseBIP32Path
    rw [trimmed, splitOn_slash (slash_not_mem_parts grammar)]
    dsimp only
    rw [(parseSegments_eq_ok_iff 1).mpr grammar]
    rfl

theorem parseBIP32Path_of_valid (valid : isValidBIP32Path text = true) :
    parseBIP32Path text = ⟨true, (parseBIP32Path text).segments, none⟩ := by
  unfold isValidBIP32Path parseBIP32Path at valid
  unfold parseBIP32Path
  split
  · rename_i empty
    rw [if_pos empty] at valid
    cases valid
  · rename_i filled
    rw [if_neg filled] at valid
    revert valid
    cases text.trim.splitOn slash with
    | nil => exact fun valid => nomatch valid
    | cons first parts =>
      dsimp only
      by_cases letter : first ≠ ascii "m"
      · rw [if_pos letter]
        exact fun valid => nomatch valid
      · rw [if_neg letter]
        cases parseSegments 1 parts with
        | error error => exact fun valid => nomatch valid
        | ok segments => exact fun _ => rfl

/-! ### Formatted paths -/

theorem isDigit_of_mem_indexText {index unit : ℕ} (member : unit ∈ indexText index) :
    JsString.isDigit unit = true := by
  obtain ⟨letter, isLetter, rfl⟩ := List.mem_map.mp member
  have digit := Nat.isDigit_of_mem_toDigits (by decide) (by decide) isLetter
  simp only [Char.isDigit, Bool.and_eq_true, decide_eq_true_iff] at digit
  exact JsString.isDigit_iff.mpr ⟨digit.1, digit.2⟩

theorem isIndexText_indexText {index : ℕ} (bounded : index < 2 ^ 31) :
    IsIndexText (indexText index) index where
  filled := by simp [indexText, Nat.toDigits_ne_nil]
  decimal := fun _ => isDigit_of_mem_indexText
  value := by rw [parseDigits, indexText, Library.EcmaScript.map_ofNat_toNat,
    Nat.ofDigitChars_ten_toDigits]
  bounded := bounded

theorem isCanonicalNumber_indexText (index : ℕ) : IsCanonicalNumber (indexText index) where
  decimal := fun _ => isDigit_of_mem_indexText
  leading := by
    intro head
    rw [indexText, List.head?_map, Option.map_eq_some_iff] at head
    obtain ⟨letter, head, zero⟩ := head
    have isZero : letter = '0' := Char.toNat_inj.mp zero
    rw [isZero] at head
    rw [eq_zero_of_head_toDigits head]
    rfl

/-- Digits without zeros in front are those of their number. -/
theorem indexText_parseDigits {digits : JsString} (filled : digits ≠ [])
    (canonical : IsCanonicalNumber digits) : indexText (parseDigits digits) = digits := by
  have letters : ∀ unit ∈ digits, (Char.ofNat unit).toNat = unit := by
    intro unit member
    obtain ⟨low, high⟩ := JsString.isDigit_iff.mp (canonical.decimal unit member)
    interval_cases unit <;> rfl
  have back : (digits.map Char.ofNat).map Char.toNat = digits := by
    rw [List.map_map]
    exact (List.map_congr_left letters).trans (List.map_id _)
  have isDigits : ∀ letter ∈ digits.map Char.ofNat, letter.isDigit = true := by
    intro letter member
    obtain ⟨unit, isUnit, rfl⟩ := List.mem_map.mp member
    obtain ⟨low, high⟩ := JsString.isDigit_iff.mp (canonical.decimal unit isUnit)
    interval_cases unit <;> rfl
  have leading : (digits.map Char.ofNat).head? = some '0' → digits.map Char.ofNat = ['0'] := by
    intro head
    rw [List.head?_map, Option.map_eq_some_iff] at head
    obtain ⟨unit, head, zero⟩ := head
    have same := letters unit (List.mem_of_mem_head? head)
    rw [zero] at same
    rw [canonical.leading (by rw [head, ← same]; rfl)]
    rfl
  rw [indexText, parseDigits, toDigits_ofDigitChars (by simpa using filled) isDigits leading, back]

theorem isSegment_formatSegment {segment : BIP32PathSegment} (bounded : segment.index < 2 ^ 31) :
    IsSegment (formatSegment segment) segment := by
  obtain ⟨index, hardened⟩ := segment
  cases hardened with
  | false =>
    rw [formatSegment, if_neg Bool.false_ne_true, List.append_nil]
    exact .plain (isIndexText_indexText bounded)
  | true => exact .hardened (isIndexText_indexText bounded) (.inl rfl)

theorem isCanonicalSegment_formatSegment (segment : BIP32PathSegment) :
    IsCanonicalSegment (formatSegment segment) := by
  obtain ⟨index, hardened⟩ := segment
  cases hardened with
  | false =>
    rw [formatSegment, if_neg Bool.false_ne_true, List.append_nil]
    exact .plain (isCanonicalNumber_indexText index)
  | true => exact .hardened (isCanonicalNumber_indexText index)

theorem formatBIP32Path_eq (segments : List BIP32PathSegment) :
    formatBIP32Path segments = ascii "m" ++ (segments.map formatSegment).flatMap (slash :: ·) := by
  unfold formatBIP32Path
  cases segments with
  | nil => rfl
  | cons segment segments =>
    rw [if_neg (List.cons_ne_nil _ _), List.map_cons, intercalate_slash, List.flatMap_cons]
    rfl

theorem isPath_formatBIP32Path (bounded : ∀ segment ∈ segments, segment.index < 2 ^ 31) :
    IsPath (formatBIP32Path segments) segments := by
  refine ⟨segments.map formatSegment, ?_, formatBIP32Path_eq segments⟩
  rw [List.forall₂_map_left_iff, List.forall₂_same]
  exact fun segment member => isSegment_formatSegment (bounded segment member)

theorem isCanonicalPath_formatBIP32Path (segments : List BIP32PathSegment) :
    IsCanonicalPath (formatBIP32Path segments) := by
  refine ⟨segments.map formatSegment, ?_, formatBIP32Path_eq segments⟩
  intro part member
  obtain ⟨segment, -, rfl⟩ := List.mem_map.mp member
  exact isCanonicalSegment_formatSegment segment

theorem IsPath.isPathText (isPath : IsPath text segments) : IsPathText text segments :=
  ⟨[], text, [], by simp, List.forall_mem_nil _, List.forall_mem_nil _, isPath⟩

theorem parseBIP32Path_formatBIP32Path
    (bounded : ∀ segment ∈ segments, segment.index < 2 ^ 31) :
    parseBIP32Path (formatBIP32Path segments) = ⟨true, segments, none⟩ :=
  parseBIP32Path_eq_iff.mpr (isPath_formatBIP32Path bounded).isPathText

/-- A canonical segment is the one that is written for what it means. -/
theorem formatSegment_of_canonical {part : JsString} {segment : BIP32PathSegment}
    (isSegment : IsSegment part segment) (canonical : IsCanonicalSegment part) :
    formatSegment segment = part := by
  obtain ⟨-, number, hardened⟩ :=
    (parseSegment_reads 0).mp ((parseSegment_eq_ok_iff 0).mpr isSegment)
  cases canonical with
  | plain canonical =>
    rw [endsHardened_digits canonical.decimal] at number hardened
    rw [formatSegment, hardened, ← number.value]
    exact (List.append_nil _).trans (indexText_parseDigits number.filled canonical)
  | hardened canonical =>
    rw [endsHardened_concat (.inl rfl)] at number hardened
    rw [if_pos rfl, List.dropLast_concat] at number
    rw [formatSegment, hardened, ← number.value, indexText_parseDigits number.filled canonical]
    rfl

theorem IsCanonicalSegment.slash_not_mem {part : JsString} (canonical : IsCanonicalSegment part) :
    slash ∉ part := by
  intro member
  cases canonical with
  | plain number => cases number.decimal slash member
  | hardened number =>
    rcases List.mem_append.mp member with member | member
    · cases number.decimal slash member
    · cases List.mem_singleton.mp member

theorem IsCanonicalSegment.solid {part : JsString} (canonical : IsCanonicalSegment part) :
    ∀ unit ∈ part, JsString.isWhiteSpace unit = false := by
  intro unit member
  cases canonical with
  | plain number => exact JsString.isWhiteSpace_of_isDigit (number.decimal unit member)
  | hardened number =>
    rcases List.mem_append.mp member with member | member
    · exact JsString.isWhiteSpace_of_isDigit (number.decimal unit member)
    · rw [List.mem_singleton.mp member]
      rfl

/-- A canonical path is the one that is written for its segments. -/
theorem formatBIP32Path_of_canonical (isPath : IsPath text segments)
    (canonical : IsCanonicalPath text) : formatBIP32Path segments = text := by
  obtain ⟨parts, grammar, rfl⟩ := isPath
  obtain ⟨parts', canonical, same⟩ := canonical
  have apart := congrArg (List.splitOn slash) same
  rw [splitOn_slash (slash_not_mem_parts grammar),
    splitOn_slash fun part member => (canonical part member).slash_not_mem] at apart
  have equal : parts = parts' := (List.cons.inj apart).2
  subst equal
  rw [formatBIP32Path_eq]
  congr 2
  clear same apart
  induction grammar with
  | nil => rfl
  | cons isSegment others ih =>
    obtain ⟨first, rest⟩ := List.forall_mem_cons.mp canonical
    rw [List.map_cons, formatSegment_of_canonical isSegment first, ih rest]

/-! ### Derived paths -/

theorem toNat_lt_of_isIndex {number : ℚ} (inRange : isIndex number = true) :
    number.num.toNat < 2 ^ 31 := by
  simp only [isIndex, Rat.isInt, Bool.and_eq_true, decide_eq_true_eq, beq_iff_eq] at inRange
  obtain ⟨⟨-, whole⟩, small⟩ := inRange
  have isNum : (number.num : ℚ) = number := Rat.coe_int_num_of_den_eq_one whole
  have bound : number.num ≤ maxBip32Index := by
    rw [← isNum] at small
    exact_mod_cast small
  unfold maxBip32Index at bound
  omega

/-- What the helpers derive is standard. -/
theorem isStandardStellarPath_formatBIP32Path {account : ℕ} (bounded : account < 2 ^ 31)
    (rest : List BIP32PathSegment) (restBounded : ∀ segment ∈ rest, segment.index < 2 ^ 31)
    (short : rest.length ≤ 2) :
    isStandardStellarPath
      (formatBIP32Path (⟨44, true⟩ :: ⟨148, true⟩ :: ⟨account, true⟩ :: rest)) = true := by
  have inRange : ∀ segment ∈ (⟨44, true⟩ :: ⟨148, true⟩ :: ⟨account, true⟩ :: rest :
      List BIP32PathSegment), segment.index < 2 ^ 31 := by
    intro segment member
    simp only [List.mem_cons] at member
    rcases member with rfl | rfl | rfl | member
    · decide
    · decide
    · exact bounded
    · exact restBounded segment member
  rw [isStandardStellarPath, parseBIP32Path_formatBIP32Path inRange]
  simp [bip44Purpose, stellarCoinType, short]

theorem isStandardStellarPath_deriveMainAccountPath {accountIndex : ℚ}
    (derived : deriveMainAccountPath accountIndex = .ok path) :
    isStandardStellarPath path = true := by
  unfold deriveMainAccountPath at derived
  split_ifs at derived with outside
  rw [Bool.not_eq_true, Bool.not_eq_false'] at outside
  cases derived
  have standard := isStandardStellarPath_formatBIP32Path (toNat_lt_of_isIndex outside) []
    (List.forall_mem_nil _) (Nat.zero_le 2)
  have same : formatBIP32Path [⟨44, true⟩, ⟨148, true⟩, ⟨accountIndex.num.toNat, true⟩] =
      ascii "m/44'/148'/" ++ indexText accountIndex.num.toNat ++ ascii "'" := by
    simp [formatBIP32Path_eq, formatSegment]
    rfl
  rwa [same] at standard

theorem isStandardStellarPath_deriveSessionKeyPath {sessionIndex accountIndex : ℚ}
    (derived : deriveSessionKeyPath sessionIndex accountIndex = .ok path) :
    isStandardStellarPath path = true := by
  unfold deriveSessionKeyPath at derived
  split_ifs at derived with outside outside'
  rw [Bool.not_eq_true, Bool.not_eq_false'] at outside outside'
  cases derived
  have bounded : ∀ segment ∈ [⟨2, true⟩, ⟨sessionIndex.num.toNat, true⟩],
      (segment : BIP32PathSegment).index < 2 ^ 31 := by
    intro segment member
    rcases List.mem_pair.mp member with rfl | rfl
    · decide
    · exact toNat_lt_of_isIndex outside
  have standard := isStandardStellarPath_formatBIP32Path (toNat_lt_of_isIndex outside') _ bounded
    (Nat.le_refl 2)
  have same : formatBIP32Path [⟨44, true⟩, ⟨148, true⟩, ⟨accountIndex.num.toNat, true⟩, ⟨2, true⟩,
      ⟨sessionIndex.num.toNat, true⟩] = ascii "m/44'/148'/" ++ indexText accountIndex.num.toNat ++
        ascii "'/2'/" ++ indexText sessionIndex.num.toNat ++ ascii "'" := by
    simp [formatBIP32Path_eq, formatSegment]
    rfl
  rwa [same] at standard

/-- Derivation paths parse and print consistently. -/
theorem paths_parse_and_print :
    (∀ segments : List BIP32PathSegment, (∀ segment ∈ segments, segment.index < 2 ^ 31) →
      parseBIP32Path (formatBIP32Path segments) = ⟨true, segments, none⟩) ∧
    (∀ text, isValidBIP32Path text = true →
      IsCanonicalPath (formatBIP32Path (parseBIP32Path text).segments) ∧
        parseBIP32Path (formatBIP32Path (parseBIP32Path text).segments) =
          ⟨true, (parseBIP32Path text).segments, none⟩ ∧
        (IsCanonicalPath text → formatBIP32Path (parseBIP32Path text).segments = text)) ∧
    (∀ text, isValidBIP32Path text = true ↔ ∃ segments, IsPathText text segments) ∧
    ∀ text segments, parseBIP32Path text = ⟨true, segments, none⟩ ↔ IsPathText text segments := by
  refine ⟨fun segments => parseBIP32Path_formatBIP32Path, fun text valid => ?_, fun text => ?_,
    fun text segments => parseBIP32Path_eq_iff⟩
  · have isPathText := parseBIP32Path_eq_iff.mp (parseBIP32Path_of_valid valid)
    refine ⟨isCanonicalPath_formatBIP32Path _,
      parseBIP32Path_formatBIP32Path isPathText.trim.index_lt, fun canonical => ?_⟩
    have trimmed : text.trim = text := by
      obtain ⟨parts, canonical, rfl⟩ := canonical
      exact JsString.trim_eq_self (JsString.trimmed_of_forall
        (solid_of_parts fun part isPart => (canonical part isPart).solid))
    have isPath := isPathText.trim
    rw [trimmed] at isPath
    exact formatBIP32Path_of_canonical isPath canonical
  · constructor
    · exact fun valid => ⟨_, parseBIP32Path_eq_iff.mp (parseBIP32Path_of_valid valid)⟩
    · rintro ⟨segments, isPathText⟩
      rw [isValidBIP32Path, parseBIP32Path_eq_iff.mpr isPathText]

theorem paths_parse_and_print_of_account :
    parseBIP32Path (formatBIP32Path [⟨44, true⟩, ⟨148, true⟩, ⟨7, false⟩]) =
        ⟨true, [⟨44, true⟩, ⟨148, true⟩, ⟨7, false⟩], none⟩ ∧
      parseBIP32Path (formatBIP32Path (parseBIP32Path (ascii " m/44h/007")).segments) =
        ⟨true, (parseBIP32Path (ascii " m/44h/007")).segments, none⟩ :=
  ⟨paths_parse_and_print.1 _ (by decide),
    (paths_parse_and_print.2.1 (ascii " m/44h/007") (by decide +kernel)).2.1⟩

end Paths

end Ancore.Crypto
