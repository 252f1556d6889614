import Mathlib

/-! # Numbers by their decimals

A number of ECMAScript is given by the shortest decimal that is read as it, which is what
`Number::toString` writes.  The text is read back as the value of the decimal, so that no
two of them have the same text.
-/

namespace Ancore.Library.EcmaScript

/-! ## What a text denotes -/

/-- The value of an exponent part, from its letter `e` on. -/
def exponentValue : List Char → Int
  | 'e' :: '-' :: digits => -Nat.ofDigitChars 10 digits 0
  | 'e' :: '+' :: digits => Nat.ofDigitChars 10 digits 0
  | _ => 0

/-- The value of digits before and behind a point. -/
def digitsValue (whole fractional : List Char) : ℚ :=
  Nat.ofDigitChars 10 (whole ++ fractional) 0 / 10 ^ fractional.length

def mantissaValue (mantissa : List Char) : ℚ :=
  digitsValue (mantissa.takeWhile (· ≠ '.')) ((mantissa.dropWhile (· ≠ '.')).drop 1)

/-- The value of a decimal literal without a sign. -/
def literalValue (text : List Char) : ℚ :=
  mantissaValue (text.takeWhile (· ≠ 'e')) * 10 ^ exponentValue (text.dropWhile (· ≠ 'e'))

/-- What a mark separates, where it does not stand before it. -/
theorem takeWhile_ne {mark : Char} {before after : List Char} (free : mark ∉ before) :
    (before ++ mark :: after).takeWhile (· ≠ mark) = before ∧
      (before ++ mark :: after).dropWhile (· ≠ mark) = mark :: after := by
  have passed : ∀ letter ∈ before, decide (letter ≠ mark) = true := fun letter member =>
    decide_eq_true fun same => free (same ▸ member)
  rw [List.takeWhile_append_of_pos passed, List.dropWhile_append_of_pos passed]
  simp

theorem takeWhile_ne_self {mark : Char} {letters : List Char} (free : mark ∉ letters) :
    letters.takeWhile (· ≠ mark) = letters ∧ letters.dropWhile (· ≠ mark) = [] := by
  have passed : ∀ letter ∈ letters, decide (letter ≠ mark) = true := fun letter member =>
    decide_eq_true fun same => free (same ▸ member)
  exact ⟨List.takeWhile_eq_self_iff.mpr passed, List.dropWhile_eq_nil_iff.mpr passed⟩

theorem mantissaValue_whole {whole : List Char} (free : '.' ∉ whole) :
    mantissaValue whole = Nat.ofDigitChars 10 whole 0 := by
  rw [mantissaValue, (takeWhile_ne_self free).1, (takeWhile_ne_self free).2, digitsValue]
  simp

theorem mantissaValue_point {whole fractional : List Char} (free : '.' ∉ whole) :
    mantissaValue (whole ++ '.' :: fractional) = digitsValue whole fractional := by
  rw [mantissaValue, (takeWhile_ne free).1, (takeWhile_ne free).2, List.drop_one, List.tail_cons]

theorem literalValue_mantissa {mantissa : List Char} (free : 'e' ∉ mantissa) :
    literalValue mantissa = mantissaValue mantissa := by
  rw [literalValue, (takeWhile_ne_self free).1, (takeWhile_ne_self free).2, exponentValue,
    zpow_zero, mul_one]
  all_goals nofun

theorem literalValue_exponent {mantissa exponent : List Char} (free : 'e' ∉ mantissa) :
    literalValue (mantissa ++ 'e' :: exponent) =
      mantissaValue mantissa * 10 ^ exponentValue ('e' :: exponent) := by
  rw [literalValue, (takeWhile_ne free).1, (takeWhile_ne free).2]

def isNumeralLetter (letter : Char) : Bool :=
  letter.isDigit || letter = '.' || letter = 'e' || letter = '+' || letter = '-'

/-! ## Decimals -/

/-- A positive number, as the product of a whole number without a zero at its end and a
    power of ten. -/
structure Decimal where
  significand : Nat
  exponent : Int
  trimmed : significand % 10 ≠ 0
  deriving DecidableEq

namespace Decimal

variable (decimal : Decimal)

def value : ℚ := decimal.significand * 10 ^ decimal.exponent

def digits : List Char := Nat.toDigits 10 decimal.significand

/-- Where the point stands, counted from the first digit. -/
def point : Int := decimal.digits.length + decimal.exponent

/-- `Number::toString` -/
def text : List Char :=
  if 0 ≤ decimal.exponent ∧ decimal.point ≤ 21 then
    decimal.digits ++ List.replicate decimal.exponent.toNat '0'
  else if 0 < decimal.point ∧ decimal.point ≤ 21 then
    decimal.digits.take decimal.point.toNat ++ '.' :: decimal.digits.drop decimal.point.toNat
  else if -6 < decimal.point ∧ decimal.point ≤ 0 then
    '0' :: '.' :: List.replicate (-decimal.point).toNat '0' ++ decimal.digits
  else
    decimal.digits.take 1 ++
      (if decimal.digits.length = 1 then [] else '.' :: decimal.digits.drop 1) ++
      'e' :: (if decimal.point < 1 then '-' else '+') ::
        Nat.toDigits 10 (decimal.point - 1).natAbs

theorem significand_eq {decimal decimal' : Decimal} (same : decimal.value = decimal'.value)
    (less : decimal.exponent ≤ decimal'.exponent) : decimal = decimal' := by
  obtain ⟨shift, split⟩ := Int.le.dest less
  have scaled : decimal.significand = decimal'.significand * 10 ^ shift := by
    have ten : (10 : ℚ) ^ decimal.exponent ≠ 0 := zpow_ne_zero _ (by norm_num)
    have values : (decimal.significand : ℚ) * 10 ^ decimal.exponent =
        decimal'.significand * 10 ^ shift * 10 ^ decimal.exponent := by
      rw [value, value, ← split, zpow_add₀ (by norm_num), zpow_natCast] at same
      rw [same]
      ring
    exact_mod_cast mul_right_cancel₀ ten values
  cases shift with
  | zero =>
    obtain ⟨significand, exponent, trimmed⟩ := decimal
    obtain ⟨significand', exponent', trimmed'⟩ := decimal'
    simp only [pow_zero, mul_one, Nat.cast_zero, add_zero] at scaled split
    subst scaled
    subst split
    rfl
  | succ shift =>
    refine absurd ?_ decimal.trimmed
    rw [scaled, pow_succ, ← mul_assoc]
    exact Nat.mul_mod_left _ _

/-- A number has one decimal without a zero at its end. -/
theorem eq_of_value_eq {decimal decimal' : Decimal} (same : decimal.value = decimal'.value) :
    decimal = decimal' := by
  rcases Int.le_total decimal.exponent decimal'.exponent with less | more
  · exact significand_eq same less
  · exact (significand_eq same.symm more).symm

/-! ## Reading the text -/

theorem isDigit_of_mem_digits {letter : Char} (member : letter ∈ decimal.digits) :
    letter.isDigit = true := Nat.isDigit_of_mem_toDigits (by decide) (by decide) member

theorem not_mem_of_digits {letters : List Char} {mark : Char}
    (digits : ∀ letter ∈ letters, letter.isDigit = true) (other : mark.isDigit = false) :
    mark ∉ letters := fun member => by
  have digit := digits mark member
  rw [other] at digit
  cases digit

theorem ofDigitChars_digits : Nat.ofDigitChars 10 decimal.digits 0 = decimal.significand :=
  Nat.ofDigitChars_ten_toDigits

theorem length_digits_pos : 0 < decimal.digits.length := Nat.length_toDigits_pos

theorem digitsValue_split (place : Nat) :
    digitsValue (decimal.digits.take place) (decimal.digits.drop place) =
      decimal.significand / 10 ^ (decimal.digits.length - place) := by
  rw [digitsValue, List.take_append_drop, ofDigitChars_digits, List.length_drop]

theorem not_mem_digits {mark : Char} (other : mark.isDigit = false) : mark ∉ decimal.digits :=
  not_mem_of_digits (fun _ => decimal.isDigit_of_mem_digits) other

theorem literalValue_zeros (whole : 0 ≤ decimal.exponent) :
    literalValue (decimal.digits ++ List.replicate decimal.exponent.toNat '0') =
      decimal.value := by
  have free {mark : Char} (other : mark.isDigit = false) :
      mark ∉ decimal.digits ++ List.replicate decimal.exponent.toNat '0' := by
    refine not_mem_of_digits (fun letter member => ?_) other
    rcases List.mem_append.mp member with member | member
    · exact decimal.isDigit_of_mem_digits member
    · rw [List.eq_of_mem_replicate member]
      rfl
  rw [literalValue_mantissa (free rfl), mantissaValue_whole (free rfl),
    Nat.ofDigitChars_append, ofDigitChars_digits, Nat.ofDigitChars_replicate_zero, value,
    ← Int.toNat_of_nonneg whole, zpow_natCast, Int.toNat_natCast]
  push_cast
  ring

theorem literalValue_inside (positive : 0 < decimal.point) (fractional : decimal.exponent < 0) :
    literalValue (decimal.digits.take decimal.point.toNat ++
      '.' :: decimal.digits.drop decimal.point.toNat) = decimal.value := by
  have noExponent : 'e' ∉ decimal.digits.take decimal.point.toNat ++
      '.' :: decimal.digits.drop decimal.point.toNat := by
    intro member
    rcases List.mem_append.mp member with member | member
    · exact decimal.not_mem_digits rfl (List.mem_of_mem_take member)
    · cases member with
      | tail _ member => exact decimal.not_mem_digits rfl (List.mem_of_mem_drop member)
  have noPoint : '.' ∉ decimal.digits.take decimal.point.toNat := fun member =>
    decimal.not_mem_digits rfl (List.mem_of_mem_take member)
  have places : (decimal.digits.length - decimal.point.toNat : Nat) = -decimal.exponent := by
    rw [point] at positive ⊢
    omega
  rw [literalValue_mantissa noExponent, mantissaValue_point noPoint, digitsValue_split, value,
    ← neg_neg decimal.exponent, ← places, zpow_neg, zpow_natCast, div_eq_mul_inv]

theorem literalValue_behind (before : decimal.point ≤ 0) :
    literalValue ('0' :: '.' :: List.replicate (-decimal.point).toNat '0' ++ decimal.digits) =
      decimal.value := by
  have free {mark : Char} (other : mark.isDigit = false) :
      mark ∉ List.replicate (-decimal.point).toNat '0' ++ decimal.digits := by
    refine not_mem_of_digits (fun letter member => ?_) other
    rcases List.mem_append.mp member with member | member
    · rw [List.eq_of_mem_replicate member]
      rfl
    · exact decimal.isDigit_of_mem_digits member
  have noExponent : 'e' ∉ '0' :: '.' ::
      (List.replicate (-decimal.point).toNat '0' ++ decimal.digits) := by
    intro member
    rcases List.mem_cons.mp member with same | member
    · cases same
    rcases List.mem_cons.mp member with same | member
    · cases same
    · exact free rfl member
  have places : ((List.replicate (-decimal.point).toNat '0' ++ decimal.digits).length : Int) =
      -decimal.exponent := by
    rw [List.length_append, List.length_replicate]
    rw [point] at before ⊢
    omega
  have read : Nat.ofDigitChars 10
      (['0'] ++ (List.replicate (-decimal.point).toNat '0' ++ decimal.digits)) 0 =
        decimal.significand := by
    rw [Nat.ofDigitChars_append, Nat.ofDigitChars_append, Nat.ofDigitChars_replicate_zero]
    exact decimal.ofDigitChars_digits
  rw [List.cons_append, List.cons_append, literalValue_mantissa noExponent]
  change mantissaValue (['0'] ++ '.' ::
    (List.replicate (-decimal.point).toNat '0' ++ decimal.digits)) = _
  rw [mantissaValue_point (by decide), digitsValue, read, value, ← neg_neg decimal.exponent,
    ← places, zpow_neg, zpow_natCast, div_eq_mul_inv]

theorem exponentValue_point :
    exponentValue ('e' :: (if decimal.point < 1 then '-' else '+') ::
      Nat.toDigits 10 (decimal.point - 1).natAbs) = decimal.point - 1 := by
  split
  · rw [exponentValue, Nat.ofDigitChars_ten_toDigits]
    omega
  · rw [exponentValue, Nat.ofDigitChars_ten_toDigits]
    omega

theorem literalValue_scientific :
    literalValue (decimal.digits.take 1 ++
      (if decimal.digits.length = 1 then [] else '.' :: decimal.digits.drop 1) ++
      'e' :: (if decimal.point < 1 then '-' else '+') ::
        Nat.toDigits 10 (decimal.point - 1).natAbs) = decimal.value := by
  have noExponent : 'e' ∉ decimal.digits.take 1 ++
      (if decimal.digits.length = 1 then [] else '.' :: decimal.digits.drop 1) := by
    intro member
    rcases List.mem_append.mp member with member | member
    · exact decimal.not_mem_digits rfl (List.mem_of_mem_take member)
    · split at member
      · cases member
      · cases member with
        | tail _ member => exact decimal.not_mem_digits rfl (List.mem_of_mem_drop member)
  have noPoint : '.' ∉ decimal.digits.take 1 := fun member =>
    decimal.not_mem_digits rfl (List.mem_of_mem_take member)
  have mantissa : mantissaValue (decimal.digits.take 1 ++
      (if decimal.digits.length = 1 then [] else '.' :: decimal.digits.drop 1)) =
        decimal.significand / 10 ^ (decimal.digits.length - 1) := by
    split
    · rename_i single
      have all : decimal.digits.take 1 = decimal.digits := List.take_of_length_le single.le
      rw [List.append_nil, mantissaValue_whole noPoint, all, ofDigitChars_digits, single]
      simp
    · rw [mantissaValue_point noPoint, digitsValue_split]
  have length := decimal.length_digits_pos
  have places : decimal.point - 1 = (decimal.digits.length - 1 : Nat) + decimal.exponent := by
    rw [point]
    omega
  rw [literalValue_exponent noExponent, mantissa, exponentValue_point, places, value,
    zpow_add₀ (by norm_num), zpow_natCast]
  have ten : (10 : ℚ) ^ (decimal.digits.length - 1) ≠ 0 := pow_ne_zero _ (by norm_num)
  field_simp

/-- What is printed is read back. -/
theorem literalValue_text : literalValue decimal.text = decimal.value := by
  rw [text]
  split
  · exact decimal.literalValue_zeros ‹_ ∧ _›.1
  · split
    · rename_i notWhole inside
      refine decimal.literalValue_inside inside.1 ?_
      by_contra whole
      exact notWhole ⟨Int.not_lt.mp whole, inside.2⟩
    · split
      · exact decimal.literalValue_behind ‹_ ∧ _›.2
      · exact decimal.literalValue_scientific

/-- The letters of a decimal are told from those that stand between values. -/
theorem isNumeralLetter_of_mem_text {letter : Char} (member : letter ∈ decimal.text) :
    isNumeralLetter letter = true := by
  have digit {letters : List Char} (part : letters ⊆ decimal.digits) (member : letter ∈ letters) :
      isNumeralLetter letter = true := by
    rw [isNumeralLetter, decimal.isDigit_of_mem_digits (part member)]
    rfl
  have zero {count : Nat} (member : letter ∈ List.replicate count '0') :
      isNumeralLetter letter = true := by
    rw [List.eq_of_mem_replicate member]
    rfl
  rw [text] at member
  split at member
  · rcases List.mem_append.mp member with member | member
    · exact digit (List.Subset.refl _) member
    · exact zero member
  · split at member
    · rcases List.mem_append.mp member with member | member
      · exact digit (List.take_subset _ _) member
      · rcases List.mem_cons.mp member with rfl | member
        · rfl
        · exact digit (List.drop_subset _ _) member
    · split at member
      · rcases List.mem_append.mp member with member | member
        · rcases List.mem_cons.mp member with rfl | member
          · rfl
          · rcases List.mem_cons.mp member with rfl | member
            · rfl
            · exact zero member
        · exact digit (List.Subset.refl _) member
      · rcases List.mem_append.mp member with member | member
        · rcases List.mem_append.mp member with member | member
          · exact digit (List.take_subset _ _) member
          · split at member
            · cases member
            · rcases List.mem_cons.mp member with rfl | member
              · rfl
              · exact digit (List.drop_subset _ _) member
        · rcases List.mem_cons.mp member with rfl | member
          · rfl
          · rcases List.mem_cons.mp member with rfl | member
            · split <;> rfl
            · rw [isNumeralLetter,
                Nat.isDigit_of_mem_toDigits (by decide) (by decide) member]
              rfl

theorem text_head : ∃ first rest, decimal.text = first :: rest ∧ first.isDigit = true := by
  obtain ⟨first, rest, split⟩ := List.exists_cons_of_length_pos decimal.length_digits_pos
  have digit : first.isDigit = true :=
    decimal.isDigit_of_mem_digits (split ▸ List.mem_cons_self)
  rw [text]
  split
  · exact ⟨first, _, by rw [split, List.cons_append], digit⟩
  · split
    · rename_i inside
      obtain ⟨places, counted⟩ : ∃ places, decimal.point.toNat = places + 1 :=
        ⟨decimal.point.toNat - 1, by omega⟩
      exact ⟨first, _, by rw [counted, split, List.take_succ_cons, List.cons_append], digit⟩
    · split
      · exact ⟨'0', _, rfl, rfl⟩
      · rw [split]
        exact ⟨first, _, rfl, digit⟩

theorem value_pos : 0 < decimal.value := by
  have positive : 0 < decimal.significand := Nat.pos_of_ne_zero fun zero =>
    decimal.trimmed (by rw [zero])
  exact mul_pos (by exact_mod_cast positive) (zpow_pos (by norm_num) _)

theorem text_inj {decimal decimal' : Decimal} (same : decimal.text = decimal'.text) :
    decimal = decimal' := by
  refine eq_of_value_eq ?_
  rw [← literalValue_text, ← literalValue_text, same]

end Decimal

end Ancore.Library.EcmaScript
