import Mathlib

/-! # Numbers as ECMAScript has them

A number is a rational, one of the two infinities or not a number, which compares with
nothing and which `Math.max` and `Math.min` hand on. -/

namespace Ancore.Library.EcmaScript

inductive Number where
  | nan
  | negativeInfinity
  | finite (value : ℚ)
  | infinity
  deriving DecidableEq

namespace Number

instance (value : Nat) : OfNat Number value := ⟨finite value⟩

/-- `Math.max(first, second)` -/
def max : Number → Number → Number
  | nan, _ => nan
  | _, nan => nan
  | infinity, _ => infinity
  | _, infinity => infinity
  | negativeInfinity, second => second
  | first, negativeInfinity => first
  | finite first, finite second => finite (Max.max first second)

/-- `Math.min(first, second)` -/
def min : Number → Number → Number
  | nan, _ => nan
  | _, nan => nan
  | negativeInfinity, _ => negativeInfinity
  | _, negativeInfinity => negativeInfinity
  | infinity, second => second
  | first, infinity => first
  | finite first, finite second => finite (Min.min first second)

/-- `first <= second` -/
def AtMost : Number → Number → Prop
  | nan, _ => False
  | _, nan => False
  | negativeInfinity, _ => True
  | _, infinity => True
  | finite first, finite second => first ≤ second
  | _, _ => False

/-- `Array.from({ length: number }).length` -/
def toLength : Number → Nat
  | finite value => Min.min ⌊value⌋.toNat (2 ^ 53 - 1)
  | infinity => 2 ^ 53 - 1
  | _ => 0

theorem toLength_finite_le {value : ℚ} (positive : 0 ≤ value) :
    ((finite value).toLength : ℚ) ≤ value := by
  have floor : ((⌊value⌋.toNat : Int) : ℚ) ≤ value := by
    rw [Int.toNat_of_nonneg (Int.floor_nonneg.mpr positive)]
    exact Int.floor_le value
  have bound : (finite value).toLength ≤ ⌊value⌋.toNat := Nat.min_le_left _ _
  calc ((finite value).toLength : ℚ) ≤ (⌊value⌋.toNat : ℚ) := by exact_mod_cast bound
    _ ≤ value := by exact_mod_cast floor

theorem one_le_toLength_finite {value : ℚ} (bound : 1 ≤ value) : 1 ≤ (finite value).toLength := by
  have floor : 1 ≤ ⌊value⌋ := Int.le_floor.mpr (by exact_mod_cast bound)
  rw [toLength]
  omega

theorem AtMost.of_le {first second : Nat} {number : Number} (fewer : first ≤ second)
    (bounded : AtMost (finite second) number) : AtMost (finite first) number := by
  cases number with
  | nan => exact bounded
  | negativeInfinity => exact bounded
  | infinity => trivial
  | finite value =>
    have cast : (first : ℚ) ≤ second := by exact_mod_cast fewer
    exact cast.trans bounded

/-- A length that is kept from one to a bound, by what it is kept from exceeding. -/
theorem toLength_between {number : Number} (real : number ≠ nan) (bound : Nat) :
    1 ≤ (max 1 (min number (finite bound))).toLength ∧
      AtMost (finite (max 1 (min number (finite bound))).toLength) (max 1 number) := by
  cases number with
  | nan => exact absurd rfl real
  | negativeInfinity =>
    have one : (finite ((1 : Nat) : ℚ)).toLength = 1 := by decide
    change 1 ≤ (finite ((1 : Nat) : ℚ)).toLength ∧
      (((finite ((1 : Nat) : ℚ)).toLength : ℚ) ≤ ((1 : Nat) : ℚ))
    rw [one]
    exact ⟨le_refl _, le_refl _⟩
  | infinity =>
    exact ⟨one_le_toLength_finite (le_max_left ((1 : Nat) : ℚ) bound |>.trans' (by norm_num)),
      trivial⟩
  | finite value =>
    have least : 1 ≤ Max.max ((1 : Nat) : ℚ) (Min.min value bound) := by
      rw [Nat.cast_one]
      exact le_max_left _ _
    have most := toLength_finite_le (zero_le_one.trans least)
    exact ⟨one_le_toLength_finite least,
      most.trans (max_le_max_left _ (min_le_left _ _))⟩

end Number

end Ancore.Library.EcmaScript
