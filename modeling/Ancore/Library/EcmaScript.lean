import Ancore.Library.SelfDelimiting

/-! # Strings as ECMAScript has them

What `String.prototype` and `JSON.stringify` do that Lean's strings do not.
Strings are sequences of Unicode scalar values: there are no lone surrogates.
-/

namespace Ancore.Library.EcmaScript

/-- `WhiteSpace` and `LineTerminator`. -/
def isWhiteSpace (letter : Char) : Bool :=
  (0x9 ≤ letter.toNat && letter.toNat ≤ 0xD) || (0x2000 ≤ letter.toNat && letter.toNat ≤ 0x200A) ||
    letter.toNat ∈ [0x20, 0xA0, 0x1680, 0x2028, 0x2029, 0x202F, 0x205F, 0x3000, 0xFEFF]

/-- `text.trim()` -/
def trim (text : String) : String :=
  String.ofList ((text.toList.dropWhile isWhiteSpace).rdropWhile isWhiteSpace)

theorem isWhiteSpace_of_isAlphanum {letter : Char} (alphanumeric : letter.isAlphanum = true) :
    isWhiteSpace letter = false := by
  have bounds : (0x30 ≤ letter.toNat ∧ letter.toNat ≤ 0x39) ∨
      (0x41 ≤ letter.toNat ∧ letter.toNat ≤ 0x5A) ∨
      (0x61 ≤ letter.toNat ∧ letter.toNat ≤ 0x7A) := by
    simp only [Char.isAlphanum, Char.isAlpha, Char.isUpper, Char.isLower, Char.isDigit,
      Bool.or_eq_true, Bool.and_eq_true, decide_eq_true_eq, ge_iff_le, UInt32.le_iff_toNat_le]
      at alphanumeric
    change ((65 ≤ letter.toNat ∧ letter.toNat ≤ 90) ∨ (97 ≤ letter.toNat ∧ letter.toNat ≤ 122)) ∨
      (48 ≤ letter.toNat ∧ letter.toNat ≤ 57) at alphanumeric
    omega
  simp only [isWhiteSpace, List.mem_cons, List.not_mem_nil, or_false, Bool.or_eq_false_iff,
    Bool.and_eq_false_iff, decide_eq_false_iff_not]
  omega

theorem trim_of_solid {text : String}
    (solid : ∀ letter ∈ text.toList, isWhiteSpace letter = false) : trim text = text := by
  have front : text.toList.dropWhile isWhiteSpace = text.toList := by
    rw [List.dropWhile_eq_self_iff]
    intro nonempty space
    rw [solid _ (List.getElem_mem nonempty)] at space
    cases space
  have back : text.toList.rdropWhile isWhiteSpace = text.toList := by
    rw [List.rdropWhile_eq_self_iff]
    intro nonempty space
    rw [solid _ (List.getLast_mem nonempty)] at space
    cases space
  rw [trim, front, back, String.ofList_toList]

theorem trim_trim (text : String) : trim (trim text) = trim text := by
  let started := text.toList.dropWhile isWhiteSpace
  have front : (started.rdropWhile isWhiteSpace).dropWhile isWhiteSpace =
      started.rdropWhile isWhiteSpace := by
    rw [List.dropWhile_eq_self_iff]
    intro nonempty
    have isPrefix : started.rdropWhile isWhiteSpace <+: started :=
      List.rdropWhile_prefix isWhiteSpace started
    have filled : 0 < started.length := Nat.lt_of_lt_of_le nonempty isPrefix.length_le
    rw [isPrefix.getElem nonempty]
    exact List.dropWhile_get_zero_not isWhiteSpace text.toList filled
  rw [trim, trim, String.toList_ofList, front, List.rdropWhile_idempotent]

/-- `text.includes(part)` -/
def includes (text part : String) : Bool := decide (part.toList <:+: text.toList)

/-- Lower case as far as the letters of ASCII are looked for: those of ASCII, and the Kelvin
sign. -/
def lowered (letter : Char) : Char :=
  if letter.toNat = 0x212A then Char.ofNat 0x6B else letter.toLower

/-- `text.toLowerCase()`, to look for letters of ASCII in it. -/
def toLowerCase (text : String) : String := String.ofList (text.toList.map lowered)

/-! ## Quoting -/

def hexDigit (digit : Nat) : Char :=
  if digit < 10 then Char.ofNat (0x30 + digit) else Char.ofNat (0x61 + (digit - 10))

/-- A letter of a string as `JSON.stringify` writes it. -/
def escaped (letter : Char) : List Char :=
  if letter.toNat = 0x22 then "\\\"".toList
  else if letter.toNat = 0x5C then "\\\\".toList
  else if letter.toNat = 0x8 then "\\b".toList
  else if letter.toNat = 0x9 then "\\t".toList
  else if letter.toNat = 0xA then "\\n".toList
  else if letter.toNat = 0xC then "\\f".toList
  else if letter.toNat = 0xD then "\\r".toList
  else if letter.toNat < 0x20 then
    "\\u00".toList ++ [hexDigit (letter.toNat / 16), hexDigit (letter.toNat % 16)]
  else [letter]

/-- `JSON.stringify(text)` -/
def quote (text : String) : List Char :=
  "\"".toList ++ text.toList.flatMap escaped ++ "\"".toList

/-! ### Reading back -/

def digitValue (digit : Char) : Nat :=
  if digit.toNat < 0x3A then digit.toNat - 0x30 else digit.toNat - 0x57

/-- The first letter that `escaped` wrote, and what follows it. -/
def unescape : List Char → Option (Char × List Char)
  | [] => none
  | first :: text =>
    if first.toNat ≠ 0x5C then some (first, text)
    else
      match text with
      | [] => none
      | second :: text =>
        if second.toNat = 0x62 then some (Char.ofNat 0x8, text)
        else if second.toNat = 0x74 then some (Char.ofNat 0x9, text)
        else if second.toNat = 0x6E then some (Char.ofNat 0xA, text)
        else if second.toNat = 0x66 then some (Char.ofNat 0xC, text)
        else if second.toNat = 0x72 then some (Char.ofNat 0xD, text)
        else if second.toNat = 0x75 then
          match text with
          | _ :: _ :: high :: low :: text =>
            some (Char.ofNat (16 * digitValue high + digitValue low), text)
          | _ => none
        else some (second, text)

theorem eq_ofNat {letter : Char} {code : Nat} (coded : letter.toNat = code) :
    letter = Char.ofNat code := by
  rw [← coded, Char.ofNat_toNat]

theorem unescape_escaped (letter : Char) (rest : List Char) :
    unescape (escaped letter ++ rest) = some (letter, rest) := by
  unfold escaped
  split_ifs with quotation backslash backspace tabulator newline formFeed carriageReturn control
  · rw [eq_ofNat quotation]; rfl
  · rw [eq_ofNat backslash]; rfl
  · rw [eq_ofNat backspace]; rfl
  · rw [eq_ofNat tabulator]; rfl
  · rw [eq_ofNat newline]; rfl
  · rw [eq_ofNat formFeed]; rfl
  · rw [eq_ofNat carriageReturn]; rfl
  · obtain ⟨code, coded⟩ : ∃ code, letter.toNat = code := ⟨_, rfl⟩
    rw [coded] at control
    rw [eq_ofNat coded]
    interval_cases code <;> rfl
  · simp [unescape, backslash]

theorem delimits_escaped (letter : Char) :
    Delimits (fun letter => some (escaped letter)) letter := by
  rintro other first second rest rest' ⟨⟩ ⟨⟩ equal
  have same := congrArg unescape equal
  rw [unescape_escaped, unescape_escaped] at same
  simpa using same

/-- No letter is written so that it starts with a quotation mark. -/
theorem escaped_append_ne (letter : Char) (rest rest' : List Char) :
    escaped letter ++ rest ≠ Char.ofNat 0x22 :: rest' := by
  intro equal
  have same := congrArg unescape equal
  rw [unescape_escaped] at same
  cases same
  cases equal

/-- What stands behind a quoted text is told apart from it. -/
theorem delimits_quote (text : String) : Delimits (fun text => some (quote text)) text := by
  rintro other first second rest rest' ⟨⟩ ⟨⟩ equal
  simp only [quote, List.append_assoc] at equal
  obtain ⟨letters, rests⟩ := flatMap_append_inj delimits_escaped
    (fun letter tail => escaped_append_ne letter tail rest)
    (fun letter tail => escaped_append_ne letter tail rest') (List.cons.inj equal).2
  exact ⟨String.toList_inj.mp letters, (List.cons.inj rests).2⟩

/-! ## Hexadecimal text -/

def hexByte (byte : UInt8) : List Char :=
  [hexDigit (byte.toNat / 16), hexDigit (byte.toNat % 16)]

/-- `Buffer.from(text, 'utf8').toString('hex')` -/
def hexOfUtf8 (text : String) : String :=
  String.ofList (text.toByteArray.data.toList.flatMap hexByte)

theorem hexDigit_inj : ∀ digit < 16, ∀ digit' < 16,
    hexDigit digit = hexDigit digit' → digit = digit' := by
  decide

theorem delimits_hexByte (byte : UInt8) : Delimits (fun byte => some (hexByte byte)) byte := by
  rintro byte' first second rest rest' ⟨⟩ ⟨⟩ equal
  have bound := byte.toNat_lt
  have bound' := byte'.toNat_lt
  simp only [hexByte, List.cons_append, List.nil_append, List.cons.injEq] at equal
  have high := hexDigit_inj _ (by omega) _ (by omega) equal.1
  have low := hexDigit_inj _ (by omega) _ (by omega) equal.2.1
  exact ⟨UInt8.toNat_inj.mp (by omega), equal.2.2⟩

/-- `Buffer.from(bytes).toString('hex')` -/
def hexOfBytes (bytes : ByteArray) : String := String.ofList (bytes.data.toList.flatMap hexByte)

theorem hexOfBytes_inj {bytes bytes' : ByteArray} (equal : hexOfBytes bytes = hexOfBytes bytes') :
    bytes = bytes' := by
  have digits := congrArg (· ++ []) (String.ofList_injective equal)
  obtain ⟨same, -⟩ := flatMap_append_inj delimits_hexByte (by simp [hexByte]) (by simp [hexByte])
    digits
  exact ByteArray.ext (Array.toList_inj.mp same)

theorem hexOfUtf8_inj {text text' : String} (equal : hexOfUtf8 text = hexOfUtf8 text') :
    text = text' :=
  String.toByteArray_inj.mp (hexOfBytes_inj equal)

theorem mem_hexOfUtf8 {text : String} {letter : Char} (member : letter ∈ (hexOfUtf8 text).toList) :
    ∃ digit < 16, letter = hexDigit digit := by
  rw [hexOfUtf8, String.toList_ofList, List.mem_flatMap] at member
  obtain ⟨byte, -, written⟩ := member
  have bound := byte.toNat_lt
  simp only [hexByte, List.mem_cons, List.not_mem_nil, or_false] at written
  cases written with
  | inl high => exact ⟨_, by omega, high⟩
  | inr low => exact ⟨_, by omega, low⟩

end Ancore.Library.EcmaScript
