import Ancore.Library.Numerals

/-! # Numbers of fixed places

A number is rounded to the nearest whole one, and halves up.  A number counted in units of a power
of ten is written with its places behind the point, or with those of them that are left when the
zeros at the end are dropped.
-/

namespace Ancore.Library.EcmaScript

/-! ## Rounding -/

section Rounding

variable {K : Type} [Field K] [LinearOrder K] [IsStrictOrderedRing K] [FloorSemiring K]
  {value : K} {number : ℕ}

/-- The nearest natural number. -/
def nearest (value : K) : ℕ := ⌊value + 1 / 2⌋₊

theorem nearest_eq_iff (nonneg : 0 ≤ value) :
    nearest value = number ↔ (number : K) ≤ value + 1 / 2 ∧ value + 1 / 2 < number + 1 :=
  Nat.floor_eq_iff (by positivity)

@[simp] theorem nearest_natCast (number : ℕ) : nearest (number : K) = number := by
  rw [nearest_eq_iff number.cast_nonneg]
  constructor
  · linarith [one_half_pos (α := K)]
  · linarith [one_half_lt_one (α := K)]

theorem nearest_pos_iff : 0 < nearest value ↔ 1 / 2 ≤ value := by
  rw [nearest, Nat.floor_pos]
  constructor
  · intro large
    linarith [add_halves (1 : K)]
  · intro large
    linarith [add_halves (1 : K)]

/-- A whole number is taken off before or after. -/
theorem nearest_sub (value : K) (number : ℕ) :
    nearest (value - number) = nearest value - number := by
  rw [nearest, nearest, sub_add_eq_add_sub, Nat.floor_sub_natCast]

theorem le_nearest (small : (number : K) ≤ value) : number ≤ nearest value :=
  Nat.le_floor (small.trans (le_add_of_nonneg_right one_half_pos.le))

/-- Numbers may be rounded before they are added where their rests add up to less than a half. -/
theorem sum_nearest_eq_iff {values : List K} (nonneg : ∀ value ∈ values, 0 ≤ value) :
    (values.map nearest).sum = nearest values.sum ↔
      -(1 / 2) ≤ (values.map fun value => value - (nearest value : K)).sum ∧
        (values.map fun value => value - (nearest value : K)).sum < 1 / 2 := by
  have rests : (values.map fun value => value - (nearest value : K)).sum =
      values.sum - ((values.map nearest).sum : ℕ) := by
    clear nonneg
    induction values with
    | nil => simp
    | cons value values ih =>
      rw [List.map_cons, List.sum_cons, ih, List.map_cons, List.sum_cons, List.sum_cons,
        Nat.cast_add]
      ring
  rw [@eq_comm ℕ, nearest_eq_iff (List.sum_nonneg nonneg), rests]
  constructor
  · rintro ⟨least, most⟩
    constructor <;> linarith [add_halves (1 : K)]
  · rintro ⟨least, most⟩
    constructor <;> linarith [add_halves (1 : K)]

end Rounding

/-! ## Texts -/

/-- `number.toString().padStart(places, '0')` -/
def paddedDigits (places number : ℕ) : List Char :=
  List.replicate (places - (Nat.toDigits 10 number).length) '0' ++ Nat.toDigits 10 number

section Padded

variable {places number : ℕ}

theorem isDigit_of_mem_paddedDigits {letter : Char} (member : letter ∈ paddedDigits places number) :
    letter.isDigit = true := by
  rcases List.mem_append.mp member with zero | digit
  · rw [List.eq_of_mem_replicate zero]
    rfl
  · exact Nat.isDigit_of_mem_toDigits (by decide) (by decide) digit

theorem ofDigitChars_paddedDigits :
    Nat.ofDigitChars 10 (paddedDigits places number) 0 = number := by
  rw [paddedDigits, Nat.ofDigitChars_append, Nat.ofDigitChars_replicate_zero, Nat.mul_zero,
    Nat.ofDigitChars_ten_toDigits]

theorem length_paddedDigits (positive : 0 < places) (small : number < 10 ^ places) :
    (paddedDigits places number).length = places := by
  have short := (Nat.length_toDigits_le_iff (by decide) positive).mpr small
  rw [paddedDigits, List.length_append, List.length_replicate]
  omega

end Padded

/-- The units as a numeral, without zeros at the end. -/
def fixedNumeral (places units : ℕ) : Numeral where
  negative := false
  whole := Nat.toDigits 10 (units / 10 ^ places)
  fractional := (paddedDigits places (units % 10 ^ places)).rdropWhile (· = '0')
  nonempty := Nat.toDigits_ne_nil
  wholeDigits _ := Nat.isDigit_of_mem_toDigits (by decide) (by decide)
  fractionalDigits _ member :=
    isDigit_of_mem_paddedDigits ((List.rdropWhile_prefix _ _).subset member)

section Fixed

variable {places : ℕ} (units : ℕ)

theorem length_fractional_fixedNumeral (positive : 0 < places) :
    (fixedNumeral places units).fractional.length ≤ places := by
  have small : units % 10 ^ places < 10 ^ places := Nat.mod_lt _ (by positivity)
  exact ((List.rdropWhile_prefix _ _).length_le).trans
    (length_paddedDigits positive small).le

/-- The zeros that are dropped are worth nothing. -/
theorem value_fixedNumeral (positive : 0 < places) :
    (fixedNumeral places units).value = units / 10 ^ places := by
  have small : units % 10 ^ places < 10 ^ places := Nat.mod_lt _ (by positivity)
  have zeros : (paddedDigits places (units % 10 ^ places)).rtakeWhile (· = '0') =
      List.replicate ((paddedDigits places (units % 10 ^ places)).rtakeWhile (· = '0')).length
        '0' :=
    List.eq_replicate_of_mem fun letter member =>
      of_decide_eq_true (List.mem_rtakeWhile_imp (p := fun letter => decide (letter = '0')) member)
  have split := List.rdropWhile_append_rtakeWhile (p := fun letter => decide (letter = '0'))
    (l := paddedDigits places (units % 10 ^ places))
  rw [zeros] at split
  have value : (fixedNumeral places units).value =
      digitsValue (Nat.toDigits 10 (units / 10 ^ places))
        (paddedDigits places (units % 10 ^ places)) := by
    rw [← split, digitsValue_append_zeros]
    rfl
  have whole : Nat.ofDigitChars 10 (Nat.toDigits 10 (units / 10 ^ places) ++
      paddedDigits places (units % 10 ^ places)) 0 = units := by
    rw [Nat.ofDigitChars_append, Nat.ofDigitChars_eq_ofDigitChars_zero,
      length_paddedDigits positive small, ofDigitChars_paddedDigits,
      Nat.ofDigitChars_ten_toDigits, Nat.div_add_mod]
  rw [value, digitsValue, whole, length_paddedDigits positive small]

end Fixed

/-! ## `toFixed` -/

/-- The number in units of the last place. -/
def fixedUnits (places : ℕ) (value : ℚ) : ℕ := nearest (|value| * 10 ^ places)

/-- `value.toFixed(places)` of a number below `10 ** 21`. -/
def toFixed (places : ℕ) (value : ℚ) : String :=
  (if value < 0 then "-" else "") ++ toString (fixedUnits places value / 10 ^ places) ++ "." ++
    String.ofList (paddedDigits places (fixedUnits places value % 10 ^ places))

/-- `Number(value.toFixed(places))` -/
def roundTo (places : ℕ) (value : ℚ) : ℚ :=
  if value < 0 then -(fixedUnits places value / 10 ^ places)
  else fixedUnits places value / 10 ^ places

/-- The numeral of the rounded number, without zeros at the end. -/
def roundedNumeral (places : ℕ) (value : ℚ) : Numeral :=
  { fixedNumeral places (fixedUnits places value) with negative := value < 0 }

section ToFixed

variable {places : ℕ} {value : ℚ}

theorem roundTo_of_nonneg (nonneg : 0 ≤ value) :
    roundTo places value = nearest (value * 10 ^ places) / 10 ^ places := by
  rw [roundTo, if_neg nonneg.not_gt, fixedUnits, abs_of_nonneg nonneg]

theorem roundTo_nonpos (negative : value < 0) : roundTo places value ≤ 0 := by
  rw [roundTo, if_pos negative]
  exact neg_nonpos.mpr (by positivity)

theorem roundTo_units (units : ℕ) :
    roundTo places (units / 10 ^ places) = units / 10 ^ places := by
  rw [roundTo_of_nonneg (by positivity), div_mul_cancel₀ _ (by positivity), nearest_natCast]

/-- What is rounded up to more than zero is half a unit at least. -/
theorem roundTo_pos_iff : 0 < roundTo places value ↔ 1 / 2 ≤ value * 10 ^ places := by
  by_cases negative : value < 0
  · have below : value * 10 ^ places ≤ 0 :=
      mul_nonpos_of_nonpos_of_nonneg negative.le (by positivity)
    exact iff_of_false (roundTo_nonpos negative).not_gt (by linarith)
  · rw [roundTo_of_nonneg (not_lt.mp negative), div_pos_iff_of_pos_right (by positivity),
      Nat.cast_pos, nearest_pos_iff]

theorem value_roundedNumeral (positive : 0 < places) :
    (roundedNumeral places value).value = roundTo places value := by
  have magnitude := value_fixedNumeral (fixedUnits places value) positive
  rw [Numeral.value,
    if_neg (show ¬ (fixedNumeral places _).negative = true from Bool.false_ne_true)] at magnitude
  rw [Numeral.value, roundTo, ← magnitude]
  simp only [roundedNumeral, decide_eq_true_eq]
  rfl

theorem length_fractional_roundedNumeral (positive : 0 < places) :
    (roundedNumeral places value).fractional.length ≤ places :=
  length_fractional_fixedNumeral _ positive

/-- The text with all places, and the numeral without the zeros at the end. -/
theorem toList_toFixed : (toFixed places value).toList =
    (roundedNumeral places value).sign ++ (roundedNumeral places value).whole ++
      '.' :: paddedDigits places (fixedUnits places value % 10 ^ places) := by
  rw [toFixed, String.toList_append, String.toList_append, String.toList_append,
    String.toList_ofList, Nat.toString_eq_repr, Nat.toList_repr, List.append_assoc]
  congr 1
  · rw [Numeral.sign, roundedNumeral]
    by_cases negative : value < 0
    · simp [negative, fixedNumeral]
    · simp [negative, fixedNumeral]
  · exact congrArg ('.' :: ·) String.toList_ofList

end ToFixed

end Ancore.Library.EcmaScript
