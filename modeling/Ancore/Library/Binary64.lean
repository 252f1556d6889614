import Ancore.Library.Decimals
import Ancore.Library.Doubles

/-! # Doubles and their decimals

The magnitudes of finite doubles, counted in units of the smallest one, so that those below the
normal ones are among them.  A number is rounded to the nearest of them, with ties to even, and
a double is printed as the shortest decimal that is rounded to it.
-/

namespace Ancore.Library.EcmaScript

open Ancore.Library.Double

/-- The least number of units that is no finite double. -/
@[irreducible] def unitLimit : ℕ := 2 ^ 2098

/-- The magnitude of a finite double in units of `2 ^ -1074`. -/
structure Magnitude where
  units : ℕ
  representable : Representable units
  finite : units < unitLimit

namespace Magnitude

def zero : Magnitude where
  units := 0
  representable := representable_of_lt (by decide)
  finite := by unfold unitLimit; positivity

def value (magnitude : Magnitude) : ℚ := magnitude.units / 2 ^ 1074

@[ext] theorem ext {magnitude magnitude' : Magnitude} (same : magnitude.units = magnitude'.units) :
    magnitude = magnitude' := by
  cases magnitude
  cases magnitude'
  cases same
  rfl

end Magnitude

/-! ## Rounding -/

/-- The units that are nearest to a number of units that is not negative. -/
def nearestUnits (number : ℚ) : ℕ :=
  let place := lastPlace ⌊number⌋₊
  let quotient := ⌊number / place⌋₊
  let rest := number - quotient * place
  if 2 * rest < place then quotient * place
  else if place < 2 * rest then (quotient + 1) * place
  else if quotient % 2 = 0 then quotient * place
  else (quotient + 1) * place

theorem nearestUnits_eq (number : ℚ) :
    ∃ quotient ≤ ⌊number⌋₊ / lastPlace ⌊number⌋₊ + 1,
      nearestUnits number = quotient * lastPlace ⌊number⌋₊ := by
  have floors : ⌊number / lastPlace ⌊number⌋₊⌋₊ = ⌊number⌋₊ / lastPlace ⌊number⌋₊ :=
    Nat.floor_div_natCast number _
  dsimp only [nearestUnits]
  rw [floors]
  split_ifs
  · exact ⟨_, Nat.le_succ _, rfl⟩
  · exact ⟨_, le_rfl, rfl⟩
  · exact ⟨_, Nat.le_succ _, rfl⟩
  · exact ⟨_, le_rfl, rfl⟩

theorem representable_nearestUnits (number : ℚ) : Representable (nearestUnits number) := by
  obtain ⟨quotient, bound, rounded⟩ := nearestUnits_eq number
  have bits : ⌊number⌋₊ / lastPlace ⌊number⌋₊ < 2 ^ 53 := by
    rcases Nat.lt_or_ge ⌊number⌋₊ (2 ^ 53) with small | large
    · rwa [lastPlace_of_lt small, Nat.div_one]
    · exact (Nat.div_lt_iff_lt_mul (lastPlace_pos _)).mpr (quotient_bounds large).2
  rw [rounded]
  exact representable_mul_lastPlace (bound.trans bits)

/-- A double is the nearest one to itself. -/
theorem nearestUnits_of_representable {units : ℕ} (representable : Representable units) :
    nearestUnits units = units := by
  have divides := lastPlace_dvd_of_representable representable
  have whole : ((units / lastPlace units : ℕ) : ℚ) * lastPlace units = units := by
    rw [← Nat.cast_mul, Nat.div_mul_cancel divides]
  have floors : ⌊(units : ℚ) / lastPlace units⌋₊ = units / lastPlace units := by
    rw [Nat.floor_div_natCast, Nat.floor_natCast]
  have place : (0 : ℚ) < lastPlace units := Nat.cast_pos.mpr (lastPlace_pos units)
  dsimp only [nearestUnits]
  rw [Nat.floor_natCast, floors, whole, sub_self, mul_zero, if_pos place]
  exact Nat.div_mul_cancel divides

/-- The double nearest to a number that is not negative, where it is finite. -/
def toMagnitude (number : ℚ) : Option Magnitude :=
  if finite : nearestUnits (number * 2 ^ 1074) < unitLimit then
    some ⟨nearestUnits (number * 2 ^ 1074), representable_nearestUnits _, finite⟩
  else none

theorem toMagnitude_value (magnitude : Magnitude) :
    toMagnitude magnitude.value = some magnitude := by
  have units : magnitude.value * 2 ^ 1074 = magnitude.units :=
    div_mul_cancel₀ _ (by positivity)
  have rounded := nearestUnits_of_representable magnitude.representable
  rw [← units] at rounded
  have finite : nearestUnits (magnitude.value * 2 ^ 1074) < unitLimit := by
    rw [rounded]
    exact magnitude.finite
  rw [toMagnitude, dif_pos finite]
  exact congrArg some (Magnitude.ext rounded)

/-! ## Printing -/

/-- A positive whole number times a power of ten, without zeros at its end. -/
def Decimal.ofScaled (significand : ℕ) (exponent : ℤ) (positive : 0 < significand) : Decimal :=
  if trimmed : significand % 10 ≠ 0 then ⟨significand, exponent, trimmed⟩
  else ofScaled (significand / 10) (exponent + 1) (by omega)
termination_by significand
decreasing_by omega

theorem Decimal.value_ofScaled {significand : ℕ} {exponent : ℤ} (positive : 0 < significand) :
    (Decimal.ofScaled significand exponent positive).value = significand * 10 ^ exponent := by
  induction significand, exponent, positive using Decimal.ofScaled.induct with
  | case1 significand exponent positive trimmed =>
    rw [ofScaled, dif_pos trimmed, value]
  | case2 significand exponent positive untrimmed ih =>
    have divides : 10 ∣ significand := Nat.dvd_of_mod_eq_zero (not_not.mp untrimmed)
    have tenth : ((significand / 10 : ℕ) : ℚ) * 10 = significand := by
      exact_mod_cast Nat.div_mul_cancel divides
    rw [ofScaled, dif_neg untrimmed, ih, zpow_add₀ (by norm_num), zpow_one, ← tenth]
    ring

/-- The decimal is read as the double. -/
def Decimal.ReadAs (decimal : Decimal) (magnitude : Magnitude) : Prop :=
  (toMagnitude decimal.value).map (·.units) = some magnitude.units

instance (decimal : Decimal) (magnitude : Magnitude) : Decidable (decimal.ReadAs magnitude) :=
  inferInstanceAs (Decidable (_ = _))

/-- All digits of a double. -/
def Magnitude.exactDecimal (magnitude : Magnitude) (positive : 0 < magnitude.units) : Decimal :=
  .ofScaled (magnitude.units * 5 ^ 1074) (-1074) (by positivity)

/-- The decimal of a whole number at a place, if there is one. -/
def scaled? (significand : ℕ) (place : ℤ) : Option Decimal :=
  if positive : 0 < significand then some (.ofScaled significand place positive) else none

/-- The decimals of the digits above a place, rounded down and up; the nearer one stands first, and
of two that are as near the even one. -/
def Magnitude.candidates (magnitude : Magnitude) (place : ℤ) : List Decimal :=
  let quotient := magnitude.value / 10 ^ place
  let below := ⌊quotient⌋₊
  let rest := quotient - below
  if rest < 1 / 2 ∨ rest = 1 / 2 ∧ below % 2 = 0 then
    (scaled? below place).toList ++ (scaled? (below + 1) place).toList
  else (scaled? (below + 1) place).toList ++ (scaled? below place).toList

/-- The first of the decimals with so many digits, and then with more, that is read as the double:
17 digits are always enough, and all of them are tried last. -/
def Magnitude.shortestFrom (magnitude : Magnitude) (positive : 0 < magnitude.units) (point : ℤ) :
    List ℕ → Decimal
  | [] => magnitude.exactDecimal positive
  | digits :: more =>
    match (magnitude.candidates (point - digits)).find? (·.ReadAs magnitude) with
    | some decimal => decimal
    | none => shortestFrom magnitude positive point more

/-- The decimal that `Number::toString` writes. -/
def Magnitude.shortest (magnitude : Magnitude) (positive : 0 < magnitude.units) : Decimal :=
  magnitude.shortestFrom positive (Int.log 10 magnitude.value + 1) (List.range' 1 17)

theorem Decimal.ReadAs.toMagnitude {decimal : Decimal} {magnitude : Magnitude}
    (read : decimal.ReadAs magnitude) : toMagnitude decimal.value = some magnitude := by
  obtain ⟨other, rounded, units⟩ := Option.map_eq_some_iff.mp read
  rw [rounded, Magnitude.ext units]

theorem Magnitude.value_exactDecimal (magnitude : Magnitude) (positive : 0 < magnitude.units) :
    (magnitude.exactDecimal positive).value = magnitude.value := by
  have ten : (10 : ℚ) ^ (-1074 : ℤ) = 1 / (2 ^ 1074 * 5 ^ 1074) := by
    have product : (2 : ℚ) * 5 = 10 := by norm_num
    rw [← mul_pow, product, zpow_neg, zpow_ofNat, one_div]
  have five : (5 : ℚ) ^ 1074 ≠ 0 := pow_ne_zero _ (by norm_num)
  rw [exactDecimal, Decimal.value_ofScaled, value, ten, Nat.cast_mul, Nat.cast_pow,
    Nat.cast_ofNat, mul_one_div, mul_div_mul_right _ _ five]

/-- What is printed is read back. -/
theorem Magnitude.readAs_shortest (magnitude : Magnitude) (positive : 0 < magnitude.units) :
    toMagnitude (magnitude.shortest positive).value = some magnitude := by
  rw [shortest]
  generalize List.range' 1 17 = lengths
  induction lengths with
  | nil => rw [shortestFrom, value_exactDecimal, toMagnitude_value]
  | cons digits more ih =>
    rw [shortestFrom]
    split
    · rename_i decimal found
      have read := List.find?_some found
      exact Decimal.ReadAs.toMagnitude (of_decide_eq_true read)
    · exact ih

end Ancore.Library.EcmaScript
