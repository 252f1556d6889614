import Ancore.Library.Binary64
import Ancore.Library.Numerals

/-! # Numbers in JSON texts

What `JSON.parse` makes of the letters of a number, which is rounded to a double, and what
`JSON.stringify` writes of a double, which is read back as it.
-/

namespace Ancore.Library.EcmaScript

/-- A number that a text can denote; zero has a sign. -/
inductive JsNumber where
  | infinite (negative : Bool)
  | finite (negative : Bool) (magnitude : Magnitude)

/-! ## Reading -/

def isDigits (letters : List Char) : Bool := letters ≠ [] && letters.all Char.isDigit

/-- Digits without a superfluous zero in front, and digits behind a point. -/
def isMantissa (letters : List Char) : Bool :=
  let whole := letters.takeWhile (· ≠ '.')
  let rest := letters.dropWhile (· ≠ '.')
  isDigits whole && (whole.head? ≠ some '0' || whole = ['0']) && (rest = [] || isDigits rest.tail)

def isExponentMark (letter : Char) : Bool := letter = 'e' || letter = 'E'

/-- What stands behind the mark of an exponent: its sign and its digits. -/
def exponentDigits : List Char → Bool × List Char
  | '-' :: digits => (true, digits)
  | '+' :: digits => (false, digits)
  | digits => (false, digits)

def isExponent : List Char → Bool
  | [] => true
  | _ :: letters => isDigits (exponentDigits letters).2

def exponentOf : List Char → Int
  | [] => 0
  | _ :: letters =>
    signed (exponentDigits letters).1 (Nat.ofDigitChars 10 (exponentDigits letters).2 0)

def JsNumber.nearest (negative : Bool) (number : ℚ) : JsNumber :=
  match toMagnitude number with
  | none => infinite negative
  | some magnitude => finite negative magnitude

/-- The number that letters denote without a sign. -/
def unsignedNumber (negative : Bool) (letters : List Char) : Option JsNumber :=
  let mantissa := letters.takeWhile (!isExponentMark ·)
  let exponent := letters.dropWhile (!isExponentMark ·)
  if isMantissa mantissa && isExponent exponent then
    some (.nearest negative (mantissaValue mantissa * 10 ^ exponentOf exponent))
  else none

def numberOf : List Char → Option JsNumber
  | '-' :: letters => unsignedNumber true letters
  | letters => unsignedNumber false letters

/-! ## Writing -/

def Magnitude.text (magnitude : Magnitude) : List Char :=
  if positive : 0 < magnitude.units then (magnitude.shortest positive).text else ['0']

/-- A number as `JSON.stringify` writes it: zero has no sign, and what is not finite is null. -/
def JsNumber.text : JsNumber → List Char
  | infinite _ => "null".toList
  | finite negative magnitude =>
    if negative ∧ 0 < magnitude.units then '-' :: magnitude.text else magnitude.text

/-! ## What is written is read back -/

theorem isDigits_iff {letters : List Char} :
    isDigits letters = true ↔ letters ≠ [] ∧ ∀ letter ∈ letters, letter.isDigit = true := by
  rw [isDigits, Bool.and_eq_true, decide_eq_true_iff, List.all_eq_true]

theorem isMantissa_whole {whole : List Char} (digits : isDigits whole = true)
    (leading : whole.head? = some '0' → whole = ['0']) : isMantissa whole = true := by
  have free : '.' ∉ whole := Decimal.not_mem_of_digits (isDigits_iff.mp digits).2 rfl
  rw [isMantissa, (takeWhile_ne_self free).1, (takeWhile_ne_self free).2, digits]
  by_cases zero : whole.head? = some '0'
  · simp [leading zero]
  · simp [zero]

theorem isMantissa_point {whole fractional : List Char} (digits : isDigits whole = true)
    (leading : whole.head? = some '0' → whole = ['0']) (behind : isDigits fractional = true) :
    isMantissa (whole ++ '.' :: fractional) = true := by
  have free : '.' ∉ whole := Decimal.not_mem_of_digits (isDigits_iff.mp digits).2 rfl
  rw [isMantissa, (takeWhile_ne free).1, (takeWhile_ne free).2, digits, List.tail_cons, behind]
  by_cases zero : whole.head? = some '0'
  · simp [leading zero]
  · simp [zero]

/-- A mantissa has digits and points. -/
theorem not_mem_of_isMantissa {letters : List Char} {mark : Char}
    (valid : isMantissa letters = true) (notDigit : mark.isDigit = false) (notPoint : mark ≠ '.') :
    mark ∉ letters := by
  simp only [isMantissa, Bool.and_eq_true, Bool.or_eq_true, decide_eq_true_iff] at valid
  obtain ⟨⟨whole, -⟩, rest⟩ := valid
  rw [← List.takeWhile_append_dropWhile (p := (· ≠ '.')) (l := letters)]
  intro member
  rcases List.mem_append.mp member with member | member
  · exact Decimal.not_mem_of_digits (isDigits_iff.mp whole).2 notDigit member
  · cases behind : letters.dropWhile (· ≠ '.') with
    | nil =>
      rw [behind] at member
      cases member
    | cons point fractional =>
      have isPoint : point = '.' := by
        have stopped := List.head?_dropWhile_not (· ≠ '.') letters
        rw [behind] at stopped
        simpa using stopped
      rw [behind] at member rest
      rcases List.mem_cons.mp member with same | member
      · exact notPoint (same.trans isPoint)
      · have digits := rest.resolve_left (List.cons_ne_nil _ _)
        exact Decimal.not_mem_of_digits (isDigits_iff.mp digits).2 notDigit member

theorem whiles_congr {letters : List Char} {here there : Char → Bool}
    (same : ∀ letter ∈ letters, here letter = there letter) :
    letters.takeWhile here = letters.takeWhile there ∧
      letters.dropWhile here = letters.dropWhile there := by
  induction letters with
  | nil => exact ⟨rfl, rfl⟩
  | cons letter letters ih =>
    obtain ⟨first, rest⟩ := List.forall_mem_cons.mp same
    rw [List.takeWhile_cons, List.takeWhile_cons, List.dropWhile_cons, List.dropWhile_cons, first,
      (ih rest).1, (ih rest).2]
    exact ⟨rfl, rfl⟩

namespace Decimal

variable (decimal : Decimal)

theorem head_digits_ne : decimal.digits.head? ≠ some '0' := by
  intro zero
  have := eq_zero_of_head_toDigits zero
  exact decimal.trimmed (by rw [this])

/-- The text of a decimal is a mantissa, and an exponent where it is scientific. -/
theorem text_split : ∃ mantissa exponent, decimal.text = mantissa ++ exponent ∧
    isMantissa mantissa = true ∧ (exponent = [] ∨ exponent = decimal.exponentPart) := by
  have length := decimal.length_digits_pos
  have point : decimal.point = decimal.digits.length + decimal.exponent := rfl
  have zeros (count : Nat) : ∀ letter ∈ List.replicate count '0', letter.isDigit = true := by
    intro letter member
    rw [List.eq_of_mem_replicate member]
    rfl
  have digits : ∀ letter ∈ decimal.digits, letter.isDigit = true :=
    fun _ => decimal.isDigit_of_mem_digits
  have filled : decimal.digits ≠ [] := List.ne_nil_of_length_pos length
  -- a part of the digits from the front on
  have isDigitsTake {count : Nat} (positive : 0 < count) :
      isDigits (decimal.digits.take count) = true := by
    refine isDigits_iff.mpr ⟨?_, fun letter member => digits letter (List.mem_of_mem_take member)⟩
    rw [Ne, List.take_eq_nil_iff]
    rintro (none_taken | empty)
    · omega
    · exact filled empty
  have headTake {count : Nat} (positive : 0 < count) :
      (decimal.digits.take count).head? = some '0' → decimal.digits.take count = ['0'] := by
    intro zero
    rw [List.head?_take, if_neg positive.ne'] at zero
    exact absurd zero decimal.head_digits_ne
  have isDigitsDrop {count : Nat} (less : count < decimal.digits.length) :
      isDigits (decimal.digits.drop count) = true := by
    refine isDigits_iff.mpr ⟨?_, fun letter member => digits letter (List.mem_of_mem_drop member)⟩
    rw [Ne, List.drop_eq_nil_iff]
    omega
  rw [text]
  split
  · refine ⟨_, [], (List.append_nil _).symm, isMantissa_whole ?_ ?_, .inl rfl⟩
    · exact isDigits_iff.mpr ⟨List.append_ne_nil_of_left_ne_nil filled _,
        List.forall_mem_append.mpr ⟨digits, zeros _⟩⟩
    · intro zero
      rw [List.head?_append_of_ne_nil _ filled] at zero
      exact absurd zero decimal.head_digits_ne
  · split
    · rename_i notWhole inside
      exact ⟨_, [], (List.append_nil _).symm, isMantissa_point (isDigitsTake (by omega))
        (headTake (by omega)) (isDigitsDrop (by omega)), .inl rfl⟩
    · split
      · refine ⟨['0'] ++ '.' :: (List.replicate (-decimal.point).toNat '0' ++ decimal.digits), [],
          (List.append_nil _).symm, isMantissa_point rfl (fun _ => rfl) ?_, .inl rfl⟩
        exact isDigits_iff.mpr ⟨List.append_ne_nil_of_right_ne_nil _ filled,
          List.forall_mem_append.mpr ⟨zeros _, digits⟩⟩
      · refine ⟨_, decimal.exponentPart, rfl, ?_, .inr rfl⟩
        split
        · rw [List.append_nil]
          exact isMantissa_whole (isDigitsTake (by decide)) (headTake (by decide))
        · exact isMantissa_point (isDigitsTake (by decide)) (headTake (by decide))
            (isDigitsDrop (by omega))

theorem isExponent_exponentPart : isExponent decimal.exponentPart = true := by
  have digits : isDigits (Nat.toDigits 10 (decimal.point - 1).natAbs) = true :=
    isDigits_iff.mpr ⟨Nat.toDigits_ne_nil, fun _ member =>
      Nat.isDigit_of_mem_toDigits (by decide) (by decide) member⟩
  rw [exponentPart]
  split <;> exact digits

theorem exponentOf_exponentPart :
    exponentOf decimal.exponentPart = exponentValue decimal.exponentPart := by
  rw [exponentPart]
  split <;> rfl

theorem isExponentMark_eq {letter : Char} (member : letter ∈ decimal.text) :
    isExponentMark letter = decide (letter = 'e') := by
  have numeral := decimal.isNumeralLetter_of_mem_text member
  have notCapital : letter ≠ 'E' := by
    rintro rfl
    cases numeral
  simp [isExponentMark, notCapital]

/-- The text of a decimal is a number of JSON, with the value that it has as a literal. -/
theorem unsignedNumber_text (negative : Bool) :
    unsignedNumber negative decimal.text = some (.nearest negative decimal.value) := by
  have marks : decimal.text.takeWhile (!isExponentMark ·) = decimal.text.takeWhile (· ≠ 'e') ∧
      decimal.text.dropWhile (!isExponentMark ·) = decimal.text.dropWhile (· ≠ 'e') := by
    refine whiles_congr fun letter member => ?_
    rw [decimal.isExponentMark_eq member]
    simp
  obtain ⟨mantissa, exponent, split, valid, part⟩ := decimal.text_split
  have free : 'e' ∉ mantissa := not_mem_of_isMantissa valid rfl (by decide)
  have exponents : decimal.text.takeWhile (· ≠ 'e') = mantissa ∧
      decimal.text.dropWhile (· ≠ 'e') = exponent := by
    rw [split]
    rcases part with rfl | rfl
    · rw [List.append_nil]
      exact takeWhile_ne_self free
    · exact takeWhile_ne free
  have read := decimal.literalValue_text
  rw [literalValue, exponents.1, exponents.2] at read
  have validExponent : isExponent exponent = true ∧
      exponentOf exponent = exponentValue exponent := by
    rcases part with rfl | rfl
    · exact ⟨rfl, rfl⟩
    · exact ⟨decimal.isExponent_exponentPart, decimal.exponentOf_exponentPart⟩
  rw [unsignedNumber, marks.1, marks.2, exponents.1, exponents.2, valid, validExponent.1,
    validExponent.2, read]
  rfl

end Decimal

/-- The text of a magnitude is read as it, and has no sign. -/
theorem Magnitude.unsignedNumber_text (magnitude : Magnitude) (negative : Bool) :
    unsignedNumber negative magnitude.text = some (.finite negative magnitude) ∧
      magnitude.text.head? ≠ some '-' := by
  by_cases positive : 0 < magnitude.units
  · have written : magnitude.text = (magnitude.shortest positive).text := dif_pos positive
    have read := (magnitude.shortest positive).unsignedNumber_text negative
    rw [JsNumber.nearest, magnitude.readAs_shortest positive] at read
    obtain ⟨first, rest, split, digit⟩ := (magnitude.shortest positive).text_head
    rw [written]
    refine ⟨read, fun minus => ?_⟩
    rw [split] at minus
    cases minus
    cases digit
  · have isZero : magnitude.units = 0 := Nat.eq_zero_of_not_pos positive
    have written : magnitude.text = ['0'] := dif_neg positive
    have number : mantissaValue ['0'] * 10 ^ exponentOf [] = magnitude.value := by
      have digit : Nat.ofDigitChars 10 ['0'] 0 = 0 := rfl
      rw [mantissaValue_whole (by decide), digit, Magnitude.value, isZero, Nat.cast_zero,
        zero_mul, zero_div]
    have read : unsignedNumber negative ['0'] =
        some (.nearest negative (mantissaValue ['0'] * 10 ^ exponentOf [])) := rfl
    rw [written, read, number, JsNumber.nearest, toMagnitude_value]
    exact ⟨rfl, by decide⟩

/-- A finite number is read back; zero loses its sign. -/
theorem numberOf_text (negative : Bool) (magnitude : Magnitude) :
    numberOf (JsNumber.finite negative magnitude).text =
      some (.finite (negative && decide (0 < magnitude.units)) magnitude) := by
  rw [JsNumber.text]
  split_ifs with signed
  · rw [signed.1, decide_eq_true signed.2]
    exact (magnitude.unsignedNumber_text true).1
  · have unsigned : (negative && decide (0 < magnitude.units)) = false := by
      rw [← Bool.not_eq_true, Bool.and_eq_true, decide_eq_true_iff]
      exact signed
    rw [unsigned, numberOf]
    · exact (magnitude.unsignedNumber_text false).1
    · intro letters minus
      exact (magnitude.unsignedNumber_text false).2 (by rw [minus]; rfl)

end Ancore.Library.EcmaScript
