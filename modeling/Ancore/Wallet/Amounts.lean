import Ancore.Library.Doubles
import Ancore.Library.Json
import Ancore.Library.Numerals

/-! # Amounts

`normalizeAmount` of the core SDK, of an amount that is a string.  An amount and its bounds
are scaled to integers, which cuts off what a bound has beyond the precision; a bound that is
a number goes through its text, which may have an exponent.
-/

namespace Ancore.Wallet.Amounts

open Ancore.Library Ancore.Library.EcmaScript

/-- `min` or `max`: the text of a numeral, or a number. -/
inductive Bound where
  | text (numeral : Numeral)
  | number (value : FiniteNumber)

/-- `String(bound)` -/
def Bound.string : Bound → List Char
  | text numeral => numeral.text
  | number value => value.text

def Bound.value : Bound → ℚ
  | text numeral => numeral.value
  | number value => value.value

def zeroNumeral : Numeral := ⟨false, ['0'], [], by decide, by simp, nofun⟩

structure NormalizationOptions where
  precision : Nat := 7
  min : Bound := .text zeroNumeral
  max : Option Bound := none
  allowZero : Bool := false

/-- The errors, by what their messages tell. -/
inductive InvalidAmountError where
  | required
  | invalid (amount : String)
  | precision (precision : Nat)
  | unparsable (value : List Char)
  | belowMinimum (min : Bound)
  | aboveMaximum (max : Bound)
  | zero

def toScaledBigInt (val : List Char) (precision : Nat) : Except InvalidAmountError Int :=
  let frac := behindPoint val
  let paddedFrac := (frac ++ List.replicate (precision - frac.length) '0').take precision
  match bigInt (beforePoint val ++ paddedFrac) with
  | none => .error (.unparsable val)
  | some scaled => .ok scaled

/-- `isFinite(Number(text))` of the text of a numeral: the numbers that round to infinity begin
    with a whole one. -/
def isFiniteText (text : List Char) : Bool :=
  (Double.double (Nat.ofDigitChars 10 ((beforePoint text).filter Char.isDigit) 0)).isSome

/-- `text.slice(0, -count)`, where `-0` is no distance from the end. -/
def sliceUntil (text : List Char) (count : Nat) : List Char :=
  if count = 0 then [] else text.take (text.length - count)

/-- `text.slice(-count)` -/
def sliceFrom (text : List Char) (count : Nat) : List Char :=
  if count = 0 then text else text.drop (text.length - count)

/-- The digits, padded to one before the point. -/
def rawStr (scaledAmount : Int) (precision : Nat) : List Char :=
  let digits := Nat.toDigits 10 scaledAmount.natAbs
  List.replicate (precision + 1 - digits.length) '0' ++ digits

/-- The text that a scaled amount is formatted to. -/
def formatted (scaledAmount : Int) (precision : Nat) : List Char :=
  let rawStr := rawStr scaledAmount precision
  let finalInteger :=
    if sliceUntil rawStr precision = [] then ['0'] else sliceUntil rawStr precision
  let finalFraction := (sliceFrom rawStr precision).rdropWhile (· = '0')
  (if scaledAmount < 0 then ['-'] else []) ++ finalInteger ++
    (if finalFraction = [] then [] else '.' :: finalFraction)

def checkMax (scaledAmount : Int) (precision : Nat) :
    Option Bound → Except InvalidAmountError Unit
  | none => .ok ()
  | some max =>
    match toScaledBigInt max.string precision with
    | .error error => .error error
    | .ok scaledMax => if scaledMax < scaledAmount then .error (.aboveMaximum max) else .ok ()

/-- The checks of the scaled amount, and the text that is returned. -/
def normalizeScaled (scaledAmount : Int) (options : NormalizationOptions) :
    Except InvalidAmountError String :=
  match toScaledBigInt options.min.string options.precision with
  | .error error => .error error
  | .ok scaledMin =>
    if scaledAmount < scaledMin then .error (.belowMinimum options.min)
    else
      match checkMax scaledAmount options.precision options.max with
      | .error error => .error error
      | .ok () =>
        if options.allowZero = false ∧ scaledAmount = 0 then .error .zero
        else .ok (String.ofList (formatted scaledAmount options.precision))

def normalizeAmount (amount : String) (options : NormalizationOptions) :
    Except InvalidAmountError String :=
  let strAmount := (trim amount).toList
  if strAmount = [] then .error .required
  else if ¬ isNumeral strAmount ∨ ¬ isFiniteText strAmount then .error (.invalid amount)
  else if ((behindPoint strAmount).drop options.precision).any (· ≠ '0') then
    .error (.precision options.precision)
  else
    match toScaledBigInt strAmount options.precision with
    | .error error => .error error
    | .ok scaledAmount => normalizeScaled scaledAmount options

/-! ## Scaling -/

/-- A number without its fraction. -/
def truncated (value : ℚ) : Int := if 0 ≤ value then ⌊value⌋ else ⌈value⌉

theorem truncated_neg {value : ℚ} (nonneg : 0 ≤ value) : truncated (-value) = -⌊value⌋ := by
  rw [truncated]
  split
  · have zero : value = 0 := by linarith
    rw [zero]
    simp
  · exact Int.ceil_neg

theorem truncated_intCast (value : Int) : truncated value = value := by
  rw [truncated]
  split
  · exact Int.floor_intCast value
  · exact Int.ceil_intCast value

theorem signed_floor (negative : Bool) {value : ℚ} (nonneg : 0 ≤ value) :
    signed negative ⌊value⌋₊ = truncated (if negative then -value else value) := by
  have floor := Int.natCast_floor_eq_floor nonneg
  cases negative with
  | true => rw [signed, if_pos rfl, if_pos rfl, truncated_neg nonneg, floor]
  | false => rw [signed, if_neg Bool.false_ne_true, if_neg Bool.false_ne_true, truncated,
      if_pos nonneg, floor]

theorem toScaledBigInt_text (numeral : Numeral) (precision : Nat) :
    toScaledBigInt numeral.text precision = .ok (truncated (numeral.value * 10 ^ precision)) := by
  have nonneg : 0 ≤ numeral.magnitude * 10 ^ precision :=
    mul_nonneg numeral.magnitude_nonneg (by positivity)
  have digits : ∀ letter ∈ numeral.whole ++ (numeral.fractional ++
      List.replicate (precision - numeral.fractional.length) '0').take precision,
        letter.isDigit = true := by
    intro letter member
    rcases List.mem_append.mp member with member | member
    · exact numeral.wholeDigits letter member
    · rcases List.mem_append.mp (List.mem_of_mem_take member) with member | member
      · exact numeral.fractionalDigits letter member
      · rw [List.eq_of_mem_replicate member]
        rfl
  have floor := Nat.floor_div_eq_div (K := ℚ)
    (Nat.ofDigitChars 10 (numeral.whole ++ numeral.fractional) 0 * 10 ^ precision)
    (10 ^ numeral.fractional.length)
  have scaled : numeral.magnitude * 10 ^ precision =
      ((Nat.ofDigitChars 10 (numeral.whole ++ numeral.fractional) 0 * 10 ^ precision : Nat) : ℚ) /
        ((10 ^ numeral.fractional.length : Nat) : ℚ) := by
    rw [Numeral.magnitude, digitsValue]
    push_cast
    ring
  have sign : (if numeral.negative then -(numeral.magnitude * 10 ^ precision)
      else numeral.magnitude * 10 ^ precision) = numeral.value * 10 ^ precision := by
    rw [Numeral.value]
    split
    · ring
    · rfl
  have read := bigInt_sign numeral.negative (List.append_ne_nil_of_left_ne_nil numeral.nonempty _)
    digits
  rw [ofDigitChars_take numeral.fractionalDigits, ← floor, ← scaled,
    signed_floor numeral.negative nonneg, sign] at read
  rw [toScaledBigInt, numeral.beforePoint_text, numeral.behindPoint_text]
  simp only [List.append_assoc, Numeral.sign, read]

/-- Nothing is cut off where all digits beyond the precision are zero. -/
theorem exists_scaled {numeral : Numeral} {precision : Nat}
    (zeros : ∀ letter ∈ numeral.fractional.drop precision, letter = '0') :
    ∃ scaled : Int, numeral.value * 10 ^ precision = scaled := by
  obtain ⟨whole, split⟩ := @pow_length_dvd numeral.whole numeral.fractional precision zeros
  have exact : numeral.magnitude * 10 ^ precision = whole := by
    have values : (Nat.ofDigitChars 10 (numeral.whole ++ numeral.fractional) 0 : ℚ) *
        10 ^ precision = 10 ^ numeral.fractional.length * whole := by exact_mod_cast split
    have power : (10 : ℚ) ^ numeral.fractional.length ≠ 0 := pow_ne_zero _ (by norm_num)
    rw [Numeral.magnitude, digitsValue, div_mul_eq_mul_div, values, mul_div_cancel_left₀ _ power]
  rw [Numeral.value]
  split
  · exact ⟨-whole, by rw [neg_mul, exact, Int.cast_neg, Int.cast_natCast]⟩
  · exact ⟨whole, by rw [exact, Int.cast_natCast]⟩

theorem isFiniteText_text (numeral : Numeral) :
    isFiniteText numeral.text = (Double.double ⌊|numeral.value|⌋₊).isSome := by
  have digits : (numeral.sign ++ numeral.whole).filter Char.isDigit = numeral.whole := by
    rw [List.filter_append, List.filter_eq_self.mpr numeral.wholeDigits, Numeral.sign]
    cases numeral.negative <;> rfl
  rw [isFiniteText, numeral.beforePoint_text, digits, numeral.ofDigitChars_whole,
    numeral.abs_value]

/-! ## Bounds -/

/-- The digits before the exponent. -/
def mantissa (negative : Bool) (decimal : Decimal) : Numeral where
  negative := negative
  whole := decimal.digits.take 1
  fractional := decimal.digits.drop 1
  nonempty := by
    have length := decimal.length_digits_pos
    intro empty
    rw [List.take_eq_nil_iff] at empty
    rcases empty with empty | empty
    · cases empty
    · rw [empty] at length
      cases length
  wholeDigits _ member := decimal.isDigit_of_mem_digits (List.mem_of_mem_take member)
  fractionalDigits _ member := decimal.isDigit_of_mem_digits (List.mem_of_mem_drop member)

/-- What a bound is taken for: without its exponent where the digits before it are enough for the
    precision, and nothing where they are not. -/
def Bound.read (precision : Nat) : Bound → Option ℚ
  | text numeral => some numeral.value
  | number .zero => some 0
  | number (.nonzero negative decimal) =>
    if decimal.IsScientific then
      if 2 ≤ decimal.digits.length ∧ precision < decimal.digits.length then
        some (mantissa negative decimal).value
      else none
    else some (FiniteNumber.nonzero negative decimal).value

theorem exists_numeral_of_plain (negative : Bool) {decimal : Decimal}
    (plain : ¬ decimal.IsScientific) :
    ∃ numeral : Numeral, numeral.text = (FiniteNumber.nonzero negative decimal).text ∧
      numeral.value = (FiniteNumber.nonzero negative decimal).value := by
  obtain ⟨numeral, sign, text⟩ := Decimal.exists_numeral negative plain
  have magnitude : numeral.magnitude = decimal.value := by
    rw [← numeral.literalValue_unsigned, ← text, decimal.literalValue_text]
  refine ⟨numeral, ?_, ?_⟩
  · rw [Numeral.text, List.append_assoc, ← text, Numeral.sign, sign]
    cases negative <;> rfl
  · rw [Numeral.value, sign, magnitude]
    cases negative <;> rfl

theorem mantissa_length (negative : Bool) (decimal : Decimal) :
    (mantissa negative decimal).fractional.length = decimal.digits.length - 1 := List.length_drop

/-- The text of a number with an exponent, split at its point. -/
theorem text_of_scientific (negative : Bool) {decimal : Decimal}
    (scientific : decimal.IsScientific) :
    (FiniteNumber.nonzero negative decimal).text =
      ((mantissa negative decimal).sign ++ (mantissa negative decimal).whole) ++
        ((if decimal.digits.length = 1 then []
          else '.' :: (mantissa negative decimal).fractional) ++ decimal.exponentPart) := by
  have text := Decimal.text_of_scientific scientific
  cases negative with
  | true =>
    rw [FiniteNumber.text, text, List.append_assoc]
    rfl
  | false =>
    rw [FiniteNumber.text, text, List.append_assoc]
    rfl

theorem toScaledBigInt_scientific (negative : Bool) {decimal : Decimal} (precision : Nat)
    (scientific : decimal.IsScientific) :
    toScaledBigInt (FiniteNumber.nonzero negative decimal).text precision =
      if 2 ≤ decimal.digits.length ∧ precision < decimal.digits.length then
        toScaledBigInt (mantissa negative decimal).text precision
      else .error (.unparsable (FiniteNumber.nonzero negative decimal).text) := by
  have length := decimal.length_digits_pos
  have text := text_of_scientific negative scientific
  have noPoint := (mantissa negative decimal).point_not_mem
  have exponent : 'e' ∈ decimal.exponentPart := List.mem_cons_self
  have unreadable {letters : List Char} (member : 'e' ∈ letters) : bigInt letters = none :=
    bigInt_eq_none member (by decide)
  by_cases single : decimal.digits.length = 1
  · rw [if_neg (by omega), toScaledBigInt]
    have whole : beforePoint (FiniteNumber.nonzero negative decimal).text =
        (FiniteNumber.nonzero negative decimal).text := by
      rw [text, if_pos single, List.nil_append]
      refine (takeWhile_ne_self fun member => ?_).1
      rcases List.mem_append.mp member with member | member
      · exact noPoint member
      · exact Decimal.point_not_mem_exponentPart member
    have member : 'e' ∈ (FiniteNumber.nonzero negative decimal).text := by
      rw [text]
      exact List.mem_append_right _ (List.mem_append_right _ exponent)
    rw [whole, unreadable (List.mem_append_left _ member)]
  · rw [if_neg single, List.cons_append] at text
    have before : beforePoint (FiniteNumber.nonzero negative decimal).text =
        (mantissa negative decimal).sign ++ (mantissa negative decimal).whole := by
      rw [text]
      exact (takeWhile_ne noPoint).1
    have behind : behindPoint (FiniteNumber.nonzero negative decimal).text =
        (mantissa negative decimal).fractional ++ decimal.exponentPart := by
      rw [behindPoint, text, (takeWhile_ne noPoint).2, List.drop_one, List.tail_cons]
      refine (takeWhile_ne_self fun member => ?_).1
      rcases List.mem_append.mp member with member | member
      · exact (mantissa negative decimal).not_mem_fractional rfl member
      · exact Decimal.point_not_mem_exponentPart member
    have fractional := mantissa_length negative decimal
    rw [toScaledBigInt, before, behind]
    by_cases few : precision < decimal.digits.length
    · have readable := toScaledBigInt_text (mantissa negative decimal) precision
      have cut (rest : List Char) :
          ((mantissa negative decimal).fractional ++ rest).take precision =
          (mantissa negative decimal).fractional.take precision :=
        List.take_append_of_le_length (by omega)
      rw [toScaledBigInt, Numeral.beforePoint_text, Numeral.behindPoint_text] at readable
      rw [if_pos ⟨by omega, few⟩, toScaledBigInt, Numeral.beforePoint_text,
        Numeral.behindPoint_text]
      simp only [List.append_assoc, cut] at readable ⊢
      split at readable
      · cases readable
      · rfl
    · have member (rest : List Char) : 'e' ∈ ((mantissa negative decimal).fractional ++
          (decimal.exponentPart ++ rest)).take precision := by
        obtain ⟨more, split⟩ : ∃ more, precision - (mantissa negative decimal).fractional.length =
            more + 1 := ⟨precision - decimal.digits.length, by omega⟩
        rw [List.take_append, split, Decimal.exponentPart, List.cons_append, List.take_succ_cons]
        exact List.mem_append_right _ List.mem_cons_self
      rw [if_neg (by omega)]
      simp only [List.append_assoc]
      rw [unreadable (List.mem_append_right _ (List.mem_append_right _ (member _)))]

theorem toScaledBigInt_string (bound : Bound) (precision : Nat) :
    toScaledBigInt bound.string precision =
      match bound.read precision with
      | none => .error (.unparsable bound.string)
      | some value => .ok (truncated (value * 10 ^ precision)) := by
  cases bound with
  | text numeral => exact toScaledBigInt_text numeral precision
  | number value =>
    cases value with
    | zero =>
      have text : toScaledBigInt zeroNumeral.text precision = _ := toScaledBigInt_text _ precision
      have value : zeroNumeral.value = 0 := by decide +kernel
      rw [value] at text
      exact text
    | nonzero negative decimal =>
      by_cases scientific : decimal.IsScientific
      · rw [Bound.read, if_pos scientific, Bound.string,
          toScaledBigInt_scientific negative precision scientific]
        by_cases enough : 2 ≤ decimal.digits.length ∧ precision < decimal.digits.length
        · rw [if_pos enough, if_pos enough]
          exact toScaledBigInt_text _ precision
        · rw [if_neg enough, if_neg enough]
      · obtain ⟨numeral, text, value⟩ := exists_numeral_of_plain negative scientific
        have read : Bound.read precision (.number (.nonzero negative decimal)) =
            some numeral.value := by
          rw [Bound.read, if_neg scientific, value]
        rw [read, Bound.string, ← text]
        exact toScaledBigInt_text numeral precision

/-- A step of the precision. -/
def step (precision : Nat) : ℚ := 1 / 10 ^ precision

/-- The amounts that are let through from below: a positive bound is cut to the precision. -/
def LowerPasses (precision : Nat) (min : Bound) (value : ℚ) : Prop :=
  ∃ read, min.read precision = some read ∧
    (read ≤ value ∨ 0 < read ∧ read < value + step precision)

/-- The amounts that are let through from above: a negative bound is cut to the precision. -/
def UpperPasses (precision : Nat) (max : Bound) (value : ℚ) : Prop :=
  ∃ read, max.read precision = some read ∧
    (value ≤ read ∨ read < 0 ∧ value - step precision < read)

theorem step_pos (precision : Nat) : 0 < step precision := by
  rw [step]
  positivity

theorem step_mul (precision : Nat) : step precision * 10 ^ precision = 1 := by
  rw [step, one_div, inv_mul_cancel₀ (pow_ne_zero _ (by norm_num))]

section Comparison

variable {precision : Nat} {value read : ℚ} {scaled : Int}

theorem truncated_le_iff (exact : value * 10 ^ precision = scaled) :
    truncated (read * 10 ^ precision) ≤ scaled ↔
      read ≤ value ∨ 0 < read ∧ read < value + step precision := by
  have power : (0 : ℚ) < 10 ^ precision := by positivity
  have more := step_pos precision
  have same : read * 10 ^ precision ≤ scaled ↔ read ≤ value := by
    rw [← exact, mul_le_mul_iff_left₀ power]
  have next : read * 10 ^ precision < scaled + 1 ↔ read < value + step precision := by
    rw [← exact, ← step_mul precision, ← add_mul, mul_lt_mul_iff_left₀ power]
  rw [truncated]
  split
  · rename_i nonneg
    have bound : 0 ≤ read := nonneg_of_mul_nonneg_left nonneg power
    rw [Int.floor_le_iff, next]
    constructor
    · intro less
      rcases bound.lt_or_eq with positive | zero
      · exact .inr ⟨positive, less⟩
      · -- zero is cut to itself
        have above := next.mpr less
        rw [← zero, zero_mul] at above
        have whole : (0 : ℤ) ≤ scaled := by
          have : (0 : ℚ) < ((scaled + 1 : ℤ) : ℚ) := by exact_mod_cast above
          have := Int.cast_pos.mp this
          omega
        refine .inl (same.mp ?_)
        rw [← zero, zero_mul]
        exact_mod_cast whole
    · rintro (less | ⟨-, less⟩)
      · linarith
      · exact less
  · rename_i negative
    have bound : read < 0 := by
      by_contra nonneg
      exact negative (mul_nonneg (not_lt.mp nonneg) power.le)
    rw [Int.ceil_le, same]
    refine ⟨.inl, ?_⟩
    rintro (less | ⟨positive, -⟩)
    · exact less
    · exact absurd positive bound.not_gt

theorem le_truncated_iff (exact : value * 10 ^ precision = scaled) :
    scaled ≤ truncated (read * 10 ^ precision) ↔
      value ≤ read ∨ read < 0 ∧ value - step precision < read := by
  have power : (0 : ℚ) < 10 ^ precision := by positivity
  have more := step_pos precision
  have same : (scaled : ℚ) ≤ read * 10 ^ precision ↔ value ≤ read := by
    rw [← exact, mul_le_mul_iff_left₀ power]
  have next : ((scaled - 1 : ℤ) : ℚ) < read * 10 ^ precision ↔
      value - step precision < read := by
    rw [Int.cast_sub, Int.cast_one, ← exact, ← step_mul precision, ← sub_mul,
      mul_lt_mul_iff_left₀ power]
  rw [truncated]
  split
  · rename_i nonneg
    have bound : 0 ≤ read := nonneg_of_mul_nonneg_left nonneg power
    rw [Int.le_floor, same]
    refine ⟨.inl, ?_⟩
    rintro (less | ⟨negative, -⟩)
    · exact less
    · exact absurd negative bound.not_gt
  · rename_i negative
    have bound : read < 0 := by
      by_contra nonneg
      exact negative (mul_nonneg (not_lt.mp nonneg) power.le)
    have ceil : scaled ≤ ⌈read * 10 ^ precision⌉ ↔ value - step precision < read := by
      rw [← next, ← Int.lt_ceil]
      omega
    rw [ceil]
    constructor
    · exact fun less => .inr ⟨bound, less⟩
    · rintro (less | ⟨-, less⟩)
      · linarith
      · exact less

end Comparison

/-! ## The text that is returned -/

section Formatting

variable (scaled : Int) (precision : Nat)

theorem rawStr_length : precision + 1 ≤ (rawStr scaled precision).length := by
  rw [rawStr, List.length_append, List.length_replicate]
  omega

theorem isDigit_of_mem_rawStr : ∀ letter ∈ rawStr scaled precision, letter.isDigit = true := by
  intro letter member
  rcases List.mem_append.mp member with member | member
  · rw [List.eq_of_mem_replicate member]
    rfl
  · exact Nat.isDigit_of_mem_toDigits (by decide) (by decide) member

theorem ofDigitChars_rawStr :
    Nat.ofDigitChars 10 (rawStr scaled precision) 0 = scaled.natAbs := by
  rw [rawStr, Nat.ofDigitChars_append, Nat.ofDigitChars_replicate_zero, Nat.mul_zero,
    Nat.ofDigitChars_ten_toDigits]

/-- What is returned, but for the precision zero. -/
def formattedNumeral : Numeral where
  negative := scaled < 0
  whole := (rawStr scaled precision).take ((rawStr scaled precision).length - precision)
  fractional := ((rawStr scaled precision).drop
    ((rawStr scaled precision).length - precision)).rdropWhile (· = '0')
  nonempty := by
    have length := rawStr_length scaled precision
    intro empty
    have := congrArg List.length empty
    rw [List.length_take, List.length_nil] at this
    omega
  wholeDigits _ member := isDigit_of_mem_rawStr scaled precision _ (List.mem_of_mem_take member)
  fractionalDigits _ member := isDigit_of_mem_rawStr scaled precision _
    (List.mem_of_mem_drop ((List.rdropWhile_prefix _ _).subset member))

variable {scaled precision}

theorem formattedNumeral_text (positive : 0 < precision) :
    (formattedNumeral scaled precision).text = formatted scaled precision := by
  have whole : sliceUntil (rawStr scaled precision) precision =
      (formattedNumeral scaled precision).whole := if_neg positive.ne'
  have fractional : (sliceFrom (rawStr scaled precision) precision).rdropWhile (· = '0') =
      (formattedNumeral scaled precision).fractional := by
    rw [sliceFrom, if_neg positive.ne']
    rfl
  rw [formatted, Numeral.text, Numeral.sign]
  simp only [whole, fractional, if_neg (formattedNumeral scaled precision).nonempty]
  simp only [formattedNumeral, decide_eq_true_iff]

theorem formattedNumeral_magnitude :
    (formattedNumeral scaled precision).magnitude = scaled.natAbs / 10 ^ precision := by
  have length := rawStr_length scaled precision
  obtain ⟨count, zeros⟩ : ∃ count, ((rawStr scaled precision).drop
      ((rawStr scaled precision).length - precision)).rtakeWhile (· = '0') =
        List.replicate count '0' :=
    ⟨_, List.eq_replicate_of_mem fun letter member => by
      have zero := List.mem_rtakeWhile_imp member
      exact of_decide_eq_true zero⟩
  have fraction := List.rdropWhile_append_rtakeWhile (p := fun letter => decide (letter = '0'))
    (l := (rawStr scaled precision).drop ((rawStr scaled precision).length - precision))
  rw [zeros] at fraction
  have places : ((rawStr scaled precision).drop
      ((rawStr scaled precision).length - precision)).length = precision := by
    rw [List.length_drop]
    omega
  rw [Numeral.magnitude, ← digitsValue_append_zeros _ _ count]
  change digitsValue ((rawStr scaled precision).take _) (List.rdropWhile _ _ ++ _) = _
  rw [fraction, digitsValue, List.take_append_drop, ofDigitChars_rawStr, places]

theorem formattedNumeral_value :
    (formattedNumeral scaled precision).value * 10 ^ precision = scaled := by
  have power : (10 : ℚ) ^ precision ≠ 0 := pow_ne_zero _ (by norm_num)
  have absolute : ((scaled.natAbs : ℕ) : ℚ) = |(scaled : ℚ)| := by
    rw [← Int.cast_natCast, Int.natCast_natAbs, Int.cast_abs]
  rw [Numeral.value, formattedNumeral_magnitude, absolute]
  simp only [formattedNumeral, decide_eq_true_iff]
  split
  · rename_i negative
    rw [abs_of_neg (Int.cast_lt_zero.mpr negative), neg_div, neg_neg, div_mul_cancel₀ _ power]
  · rename_i nonneg
    rw [abs_of_nonneg (Int.cast_nonneg (not_lt.mp nonneg)), div_mul_cancel₀ _ power]

theorem formattedNumeral_canonical (positive : 0 < precision) :
    (formattedNumeral scaled precision).Canonical where
  leading head := by
    have length := rawStr_length scaled precision
    obtain ⟨rest, split⟩ := List.head?_eq_some_iff.mp head
    have whole : (formattedNumeral scaled precision).whole.length =
        (rawStr scaled precision).length - precision := by
      change List.length (List.take _ _) = _
      rw [List.length_take]
      omega
    rw [split]
    rw [split, List.length_cons] at whole
    have single : rest.length = 0 := by
      by_contra more
      -- so many digits are not padded, and only zero is printed with a zero before all
      have long : precision + 1 < (Nat.toDigits 10 scaled.natAbs).length := by
        by_contra short
        rw [rawStr, List.length_append, List.length_replicate] at whole
        omega
      have plain : rawStr scaled precision = Nat.toDigits 10 scaled.natAbs := by
        rw [rawStr, Nat.sub_eq_zero_of_le long.le, List.replicate_zero, List.nil_append]
      have first : (Nat.toDigits 10 scaled.natAbs).head? = some '0' := by
        change ((rawStr scaled precision).take _).head? = _ at head
        rw [List.head?_take, if_neg (by omega), plain] at head
        exact head
      rw [eq_zero_of_head_toDigits first, Nat.toDigits_zero, List.length_singleton] at long
      omega
    rw [List.length_eq_zero_iff.mp single]
  trailing last := by
    have nonempty : (formattedNumeral scaled precision).fractional ≠ [] := by
      intro empty
      rw [empty] at last
      cases last
    have dropped := List.rdropWhile_last_not (fun letter => decide (letter = '0'))
      ((rawStr scaled precision).drop ((rawStr scaled precision).length - precision)) nonempty
    rw [List.getLast?_eq_getLast_of_ne_nil nonempty] at last
    exact dropped (decide_eq_true (Option.some.inj last))
  sign negative zero := by
    have value := @formattedNumeral_value scaled precision
    rw [zero, zero_mul] at value
    have below : scaled < 0 := of_decide_eq_true negative
    have := Int.cast_eq_zero.mp value.symm
    omega

end Formatting

/-! ## Normalization -/

/-- A numeral without digits beyond the precision, and not zero where zero is not allowed. -/
structure Plausible (numeral : Numeral) (options : NormalizationOptions) : Prop where
  digits : ∀ letter ∈ numeral.fractional.drop options.precision, letter = '0'
  nonzero : numeral.value ≠ 0 ∨ options.allowZero = true

def InBounds (value : ℚ) (options : NormalizationOptions) : Prop :=
  options.min.value ≤ value ∧ ∀ max ∈ options.max, value ≤ max.value

/-- What the code makes of size and bounds. -/
structure LetThrough (value : ℚ) (options : NormalizationOptions) : Prop where
  finite : (Double.double ⌊|value|⌋₊).isSome = true
  min : LowerPasses options.precision options.min value
  max : ∀ max ∈ options.max, UpperPasses options.precision max value

/-- The trimmed amount is the text of the numeral. -/
def Denotes (amount : String) (numeral : Numeral) : Prop := numeral.text = (trim amount).toList

/-- Normalization is exact. -/
structure Exact (amount : String) (options : NormalizationOptions) : Prop where
  returns : (∃ result, normalizeAmount amount options = .ok result) ↔
    ∃ numeral, Denotes amount numeral ∧ Plausible numeral options ∧ InBounds numeral.value options
  result : ∀ result, normalizeAmount amount options = .ok result →
    ∃ numeral numeral' : Numeral, Denotes amount numeral ∧ numeral'.text = result.toList ∧
      numeral'.value = numeral.value ∧ numeral'.Canonical
  again : ∀ result, normalizeAmount amount options = .ok result →
    normalizeAmount result options = .ok result

section Normalization

variable {amount result : String} {options : NormalizationOptions}

theorem checkMax_ok {precision : Nat} {value : ℚ} {scaled : Int} {max : Option Bound}
    (exact : value * 10 ^ precision = scaled) :
    checkMax scaled precision max = .ok () ↔ ∀ bound ∈ max, UpperPasses precision bound value := by
  cases max with
  | none => exact iff_of_true rfl nofun
  | some bound =>
    rw [checkMax, toScaledBigInt_string]
    simp only [Option.mem_def, Option.some.injEq, forall_eq', UpperPasses]
    cases bound.read precision with
    | none => exact iff_of_false nofun (by simp)
    | some read =>
      simp only [Option.some.injEq, exists_eq_left', ← le_truncated_iff exact]
      split
      · exact iff_of_false nofun (by omega)
      · exact iff_of_true rfl (by omega)

theorem normalizeScaled_ok {value : ℚ} {scaled : Int}
    (exact : value * 10 ^ options.precision = scaled) :
    normalizeScaled scaled options = .ok result ↔
      LowerPasses options.precision options.min value ∧
        (∀ max ∈ options.max, UpperPasses options.precision max value) ∧
        (value ≠ 0 ∨ options.allowZero = true) ∧
        result = String.ofList (formatted scaled options.precision) := by
  have power : (10 : ℚ) ^ options.precision ≠ 0 := pow_ne_zero _ (by norm_num)
  have zero : scaled = 0 ↔ value = 0 := by
    rw [← Int.cast_eq_zero (α := ℚ), ← exact, mul_eq_zero, or_iff_left power]
  rw [normalizeScaled, toScaledBigInt_string, LowerPasses]
  cases options.min.read options.precision with
  | none => exact iff_of_false nofun (by simp)
  | some read =>
    simp only [Option.some.injEq, exists_eq_left', ← truncated_le_iff exact,
      ← checkMax_ok exact]
    split
    · exact iff_of_false nofun (by omega)
    · rename_i above
      have passes := Int.not_lt.mp above
      cases checkMax scaled options.precision options.max with
      | error error => exact iff_of_false nofun (by simp)
      | ok _ =>
        simp only [passes, true_and, zero]
        split
        · rename_i refused
          exact iff_of_false nofun (by simp [refused.1, refused.2])
        · rename_i allowed
          rw [Except.ok.injEq, eq_comm, and_iff_right]
          by_cases some : value = 0
          · refine .inr ?_
            by_contra none
            exact allowed ⟨Bool.eq_false_iff.mpr none, some⟩
          · exact .inl some

theorem normalizeAmount_ok :
    normalizeAmount amount options = .ok result ↔
      ∃ numeral, Denotes amount numeral ∧ Plausible numeral options ∧
        LetThrough numeral.value options ∧ ∃ scaled : Int,
          numeral.value * 10 ^ options.precision = scaled ∧
          result = String.ofList (formatted scaled options.precision) := by
  rw [normalizeAmount]
  by_cases matching : isNumeral (trim amount).toList = true
  · obtain ⟨numeral, text⟩ := Numeral.isNumeral_iff.mp matching
    have unique {other : Numeral} (denotes : Denotes amount other) : other = numeral :=
      Numeral.eq_of_text_eq (denotes.trans text.symm)
    rw [if_neg (by rw [← text]; exact numeral.text_ne_nil), ← text]
    by_cases finite : isFiniteText numeral.text = true
    · have noFailure :
          ¬ (¬ isNumeral numeral.text = true ∨ ¬ isFiniteText numeral.text = true) := by
        rw [text, matching, ← text, finite]
        simp
      rw [if_neg noFailure, numeral.behindPoint_text]
      by_cases digits : (numeral.fractional.drop options.precision).any (· ≠ '0') = true
      · rw [if_pos digits]
        refine iff_of_false nofun ?_
        rintro ⟨other, denotes, plausibly, -⟩
        obtain ⟨letter, member, nonzero⟩ := List.any_eq_true.mp digits
        rw [unique denotes] at plausibly
        exact of_decide_eq_true nonzero (plausibly.digits letter member)
      · have zeros : ∀ letter ∈ numeral.fractional.drop options.precision, letter = '0' := by
          intro letter member
          by_contra nonzero
          exact digits (List.any_eq_true.mpr ⟨letter, member, decide_eq_true nonzero⟩)
        obtain ⟨scaled, exact⟩ := exists_scaled zeros
        rw [if_neg digits, toScaledBigInt_text, exact, truncated_intCast]
        refine (normalizeScaled_ok exact).trans ?_
        rw [isFiniteText_text] at finite
        constructor
        · rintro ⟨min, max, nonzero, same⟩
          exact ⟨numeral, text, ⟨zeros, nonzero⟩, ⟨finite, min, max⟩, scaled, exact, same⟩
        · rintro ⟨other, denotes, plausibly, through, scaled', exact', same⟩
          rw [unique denotes] at plausibly through exact'
          rw [exact, Int.cast_inj] at exact'
          rw [exact']
          exact ⟨through.min, through.max, plausibly.nonzero, same⟩
    · rw [if_pos (.inr finite)]
      refine iff_of_false nofun ?_
      rintro ⟨other, denotes, -, through, -⟩
      rw [unique denotes] at through
      rw [isFiniteText_text] at finite
      exact finite through.finite
  · have unread : ∀ numeral, ¬ Denotes amount numeral := fun numeral denotes =>
      matching (denotes ▸ numeral.isNumeral_text)
    split
    · exact iff_of_false nofun fun ⟨numeral, denotes, _⟩ => unread numeral denotes
    · rw [if_pos (.inl matching)]
      exact iff_of_false nofun fun ⟨numeral, denotes, _⟩ => unread numeral denotes

/-! ### What is returned -/

theorem formatted_zero : formatted 0 0 = zeroNumeral.text := rfl

/-- Without a precision the digits go behind the point. -/
theorem whole_of_formatted {scaled : Int} {numeral : Numeral}
    (text : numeral.text = formatted scaled 0) : numeral.whole = ['0'] := by
  have digits : ∀ letter ∈ (rawStr scaled 0).rdropWhile (· = '0'), letter.isDigit = true :=
    fun letter member =>
      isDigit_of_mem_rawStr scaled 0 letter ((List.rdropWhile_prefix _ _).subset member)
  have same : (⟨scaled < 0, ['0'], (rawStr scaled 0).rdropWhile (· = '0'), by decide, by simp,
      digits⟩ : Numeral).text = formatted scaled 0 := by
    rw [Numeral.text, Numeral.sign, formatted]
    simp only [decide_eq_true_iff]
    rfl
  rw [Numeral.eq_of_text_eq (text.trans same.symm)]

theorem value_eq_zero_of_formatted {numeral numeral' : Numeral} {scaled : Int}
    (text : numeral'.text = formatted scaled 0) (same : numeral'.value = numeral.value)
    (exact : numeral.value * 10 ^ 0 = scaled) : numeral.value = 0 := by
  have whole := numeral'.ofDigitChars_whole
  rw [whole_of_formatted text, ← Numeral.abs_value, same] at whole
  have less : |numeral.value| < 1 := by
    have floor : ⌊|numeral.value|⌋₊ = 0 := whole.symm
    exact Nat.floor_eq_zero.mp floor
  rw [pow_zero, mul_one] at exact
  rw [exact] at less ⊢
  have : |scaled| < 1 := by exact_mod_cast less
  rw [Int.abs_lt_one_iff.mp this, Int.cast_zero]

/-- What is returned is a numeral in its normal form, but for the precision zero. -/
theorem exists_formatted {value : ℚ} {scaled : Int} {precision : Nat}
    (exact : value * 10 ^ precision = scaled) (some : precision ≠ 0 ∨ value = 0) :
    ∃ numeral : Numeral, numeral.text = formatted scaled precision ∧ numeral.value = value ∧
      numeral.Canonical ∧ numeral.fractional.drop precision = [] := by
  rcases Nat.eq_zero_or_pos precision with none | positive
  · subst none
    have zero : value = 0 := some.resolve_left fun none => none rfl
    have nothing : scaled = 0 := by
      rw [zero, zero_mul] at exact
      exact Int.cast_eq_zero.mp exact.symm
    have zeroValue : zeroNumeral.value = 0 := by decide +kernel
    refine ⟨zeroNumeral, by rw [nothing, formatted_zero], by rw [zeroValue, zero], ?_, rfl⟩
    exact ⟨fun _ => rfl, by decide, nofun⟩
  · have power : (10 : ℚ) ^ precision ≠ 0 := pow_ne_zero _ (by norm_num)
    refine ⟨formattedNumeral scaled precision, formattedNumeral_text positive,
      mul_right_cancel₀ power (formattedNumeral_value.trans exact.symm),
      formattedNumeral_canonical positive, ?_⟩
    have length := rawStr_length scaled precision
    have prefixed := (List.rdropWhile_prefix (fun letter => decide (letter = '0'))
      ((rawStr scaled precision).drop ((rawStr scaled precision).length - precision))).length_le
    rw [List.length_drop] at prefixed
    refine List.drop_eq_nil_of_le (prefixed.trans ?_)
    omega

/-- Amounts are normalized exactly where size and bounds are not misjudged, and with the
    precision zero only where nothing but zero is let through. -/
theorem exact_iff (amount : String) (options : NormalizationOptions) :
    Exact amount options ↔
      ∀ numeral, Denotes amount numeral → Plausible numeral options →
        (InBounds numeral.value options ∧ LetThrough numeral.value options ∧
          (options.precision ≠ 0 ∨ numeral.value = 0)) ∨
        ¬ InBounds numeral.value options ∧ ¬ LetThrough numeral.value options := by
  constructor
  · intro exact numeral denotes plausibly
    have unique {other : Numeral} (also : Denotes amount other) : other = numeral :=
      Numeral.eq_of_text_eq (also.trans denotes.symm)
    obtain ⟨scaled, scales⟩ := exists_scaled plausibly.digits
    by_cases through : LetThrough numeral.value options
    · have returned := normalizeAmount_ok.mpr ⟨numeral, denotes, plausibly, through, scaled, scales,
        rfl⟩
      obtain ⟨other, also, -, bounds⟩ := exact.returns.mp ⟨_, returned⟩
      rw [unique also] at bounds
      refine .inl ⟨bounds, through, ?_⟩
      by_contra misplaced
      push Not at misplaced
      obtain ⟨other, numeral', also, text, same, -⟩ := exact.result _ returned
      rw [unique also] at same
      rw [String.toList_ofList, misplaced.1] at text
      rw [misplaced.1] at scales
      exact misplaced.2 (value_eq_zero_of_formatted text same scales)
    · refine .inr ⟨fun bounds => ?_, through⟩
      obtain ⟨result, returned⟩ := exact.returns.mpr ⟨numeral, denotes, plausibly, bounds⟩
      obtain ⟨other, also, -, through', -⟩ := normalizeAmount_ok.mp returned
      rw [unique also] at through'
      exact through through'
  · intro judged
    have normal {result : String} (returned : normalizeAmount amount options = .ok result) :
        ∃ numeral numeral' : Numeral, Denotes amount numeral ∧ Plausible numeral options ∧
          InBounds numeral.value options ∧ LetThrough numeral.value options ∧
          numeral'.text = result.toList ∧ numeral'.value = numeral.value ∧ numeral'.Canonical ∧
          numeral'.fractional.drop options.precision = [] ∧ ∃ scaled : Int,
            numeral.value * 10 ^ options.precision = scaled ∧
            result = String.ofList (formatted scaled options.precision) := by
      obtain ⟨numeral, denotes, plausibly, through, scaled, scales, rfl⟩ :=
        normalizeAmount_ok.mp returned
      rcases judged numeral denotes plausibly with ⟨bounds, -, placed⟩ | ⟨-, refused⟩
      · obtain ⟨numeral', text, value, canonical, short⟩ := exists_formatted scales placed
        rw [String.toList_ofList]
        exact ⟨numeral, numeral', denotes, plausibly, bounds, through, text, value, canonical,
          short, scaled, scales, rfl⟩
      · exact absurd through refused
    refine ⟨⟨?_, ?_⟩, fun result returned => ?_, fun result returned => ?_⟩
    · rintro ⟨result, returned⟩
      obtain ⟨numeral, -, denotes, plausibly, bounds, -⟩ := normal returned
      exact ⟨numeral, denotes, plausibly, bounds⟩
    · rintro ⟨numeral, denotes, plausibly, bounds⟩
      obtain ⟨scaled, scales⟩ := exists_scaled plausibly.digits
      rcases judged numeral denotes plausibly with ⟨-, through, -⟩ | ⟨outside, -⟩
      · exact ⟨_, normalizeAmount_ok.mpr ⟨numeral, denotes, plausibly, through, scaled, scales,
          rfl⟩⟩
      · exact absurd bounds outside
    · obtain ⟨numeral, numeral', denotes, -, -, -, text, value, canonical, -⟩ := normal returned
      exact ⟨numeral, numeral', denotes, text, value, canonical⟩
    · obtain ⟨numeral, numeral', -, plausibly, -, through, text, value, -, short, scaled, scales,
        same⟩ := normal returned
      have trimmed : trim result = result := by
        have solid := numeral'.trim_text
        rwa [text, String.ofList_toList] at solid
      refine normalizeAmount_ok.mpr ⟨numeral', text.trans (by rw [trimmed]), ⟨?_, ?_⟩, ?_, scaled,
        ?_, same⟩
      · rw [short]
        exact nofun
      · rw [value]
        exact plausibly.nonzero
      · rw [value]
        exact through
      · rw [value]
        exact scales

def twelve : Numeral := ⟨false, ['1', '2'], [], by decide, by simp, nofun⟩

theorem twelve_value : twelve.value = 12 := by decide +kernel

theorem letThrough_twelve : LetThrough twelve.value { precision := 0 } := by
  rw [twelve_value]
  refine ⟨?_, ⟨zeroNumeral.value, rfl, .inl ?_⟩, nofun⟩
  · have floor : ⌊|(12 : ℚ)|⌋₊ = 12 := by
      rw [abs_of_pos (by norm_num)]
      exact Nat.floor_ofNat 12
    rw [floor, Double.double_of_lt (by norm_num)]
    rfl
  · have zero : zeroNumeral.value = 0 := by decide +kernel
    rw [zero]
    norm_num

/-- Twelve, without decimal places, becomes twelve hundredths. -/
theorem twelve_misplaced :
    normalizeAmount "12" { precision := 0 } = .ok "0.12" ∧ ¬ Exact "12" { precision := 0 } := by
  have denotes : Denotes "12" twelve := rfl
  have plausibly : Plausible twelve { precision := 0 } :=
    ⟨nofun, .inl (by rw [twelve_value]; norm_num)⟩
  have scales : twelve.value * 10 ^ 0 = (12 : ℤ) := by
    rw [twelve_value]
    norm_num
  have returned : normalizeAmount "12" { precision := 0 } = .ok "0.12" :=
    normalizeAmount_ok.mpr ⟨twelve, denotes, plausibly, letThrough_twelve, 12, scales, rfl⟩
  refine ⟨returned, fun exact => ?_⟩
  obtain ⟨numeral, numeral', also, text, same, -⟩ := exact.result _ returned
  rw [Numeral.eq_of_text_eq (also.trans denotes.symm)] at same
  have zero : twelve.value = 0 := value_eq_zero_of_formatted text same scales
  rw [twelve_value] at zero
  norm_num at zero

end Normalization

end Ancore.Wallet.Amounts
