import Mathlib.Data.Nat.Log
import Mathlib.Data.Nat.Size
import Mathlib.Tactic.Ring
import Mathlib.Tactic.Linarith

/-! # Doubles that are natural numbers

Rounding of a natural number to 53 bits, to the nearest with ties to even, and the
shortest decimal that is read back as the same double, which is how a number is printed.
-/

namespace Ancore.Library.Double

/-- The unit in the last place of the doubles around a natural number. -/
def lastPlace (value : Nat) : Nat := 2 ^ (value.log2 + 1 - 53)

def rounded (value : Nat) : Nat :=
  let below := value / lastPlace value * lastPlace value
  let rest := value % lastPlace value
  if 2 * rest < lastPlace value then below
  else if lastPlace value < 2 * rest then below + lastPlace value
  else if value / lastPlace value % 2 = 0 then below
  else below + lastPlace value

/-- The least power of two that is no finite double. -/
@[irreducible] def limit : Nat := 2 ^ 1024

/-- The double of a natural number, where it is finite. -/
def double (value : Nat) : Option Nat :=
  if rounded value < limit then some (rounded value) else none

/-- A double, up to the greatest exponent. -/
def Representable (value : Nat) : Prop :=
  ∃ significand exponent, significand < 2 ^ 53 ∧ value = significand * 2 ^ exponent

/-! ## The doubles around a number -/

theorem lastPlace_pos (value : Nat) : 0 < lastPlace value := Nat.two_pow_pos _

theorem lastPlace_of_lt {value : Nat} (small : value < 2 ^ 53) : lastPlace value = 1 := by
  rcases Nat.eq_zero_or_pos value with rfl | positive
  · rfl
  · have bound : value.log2 < 53 := (Nat.log2_lt positive.ne').mpr small
    rw [lastPlace, Nat.sub_eq_zero_of_le (by omega), Nat.pow_zero]

/-- From 53 bits on, the last place and the number have a quotient of exactly 53 bits. -/
theorem quotient_bounds {value : Nat} (large : 2 ^ 53 ≤ value) :
    2 ^ 52 * lastPlace value ≤ value ∧ value < 2 ^ 53 * lastPlace value := by
  have nonzero : value ≠ 0 := by omega
  have bits : 53 ≤ value.log2 := (Nat.le_log2 nonzero).mpr large
  rw [lastPlace, ← Nat.pow_add, ← Nat.pow_add]
  have low : 52 + (value.log2 + 1 - 53) = value.log2 := by omega
  have high : 53 + (value.log2 + 1 - 53) = value.log2 + 1 := by omega
  rw [low, high]
  exact ⟨Nat.log2_self_le nonzero, Nat.lt_log2_self⟩

theorem lastPlace_dvd_of_representable {value : Nat} (representable : Representable value) :
    lastPlace value ∣ value := by
  obtain ⟨significand, exponent, fits, rfl⟩ := representable
  rcases Nat.eq_zero_or_pos (significand * 2 ^ exponent) with zero | positive
  · rw [zero]
    exact Nat.dvd_zero _
  · have below : significand * 2 ^ exponent < 2 ^ (53 + exponent) := by
      rw [Nat.pow_add]
      exact Nat.mul_lt_mul_of_pos_right fits (Nat.two_pow_pos exponent)
    have bits := (Nat.log2_lt positive.ne').mpr below
    exact (Nat.pow_dvd_pow 2 (by omega)).trans (Nat.dvd_mul_left _ _)

/-- A double that is not below the last power of two is a multiple of the last place. -/
theorem lastPlace_dvd {value double : Nat} (representable : Representable double)
    (above : 2 ^ 52 * lastPlace value ≤ double) :
    lastPlace value ∣ double := by
  obtain ⟨significand, exponent, fits, rfl⟩ := representable
  refine (Nat.pow_dvd_pow 2 ?_).trans (Nat.dvd_mul_left _ _)
  by_contra smaller
  have power : 2 ^ exponent * 2 ≤ lastPlace value := by
    rw [lastPlace, ← Nat.pow_succ]
    exact Nat.pow_le_pow_right (by decide) (by omega)
  have bound : significand * 2 ^ exponent < 2 ^ 53 * 2 ^ exponent :=
    Nat.mul_lt_mul_of_pos_right fits (Nat.two_pow_pos exponent)
  omega

theorem representable_of_lt {value : Nat} (small : value < 2 ^ 53) : Representable value :=
  ⟨value, 0, small, by simp⟩

theorem representable_two_pow (exponent : Nat) : Representable (2 ^ exponent) :=
  ⟨1, exponent, by decide, by simp⟩

theorem Representable.two_mul {value : Nat} (representable : Representable value) :
    Representable (2 * value) := by
  obtain ⟨significand, exponent, fits, rfl⟩ := representable
  exact ⟨significand, exponent + 1, fits, by ring⟩

/-- 53 bits and a carry. -/
theorem representable_mul_lastPlace {value quotient : Nat} (fits : quotient ≤ 2 ^ 53) :
    Representable (quotient * lastPlace value) := by
  rcases Nat.lt_or_eq_of_le fits with less | rfl
  · exact ⟨quotient, _, less, rfl⟩
  · rw [lastPlace, ← Nat.pow_add]
    exact representable_two_pow _

/-! ## Rounding -/

theorem rounded_of_dvd {value : Nat} (divides : lastPlace value ∣ value) :
    rounded value = value := by
  have rest : value % lastPlace value = 0 := Nat.mod_eq_zero_of_dvd divides
  simp only [rounded, rest, Nat.mul_zero, lastPlace_pos, if_true]
  exact Nat.div_mul_cancel divides

theorem rounded_of_representable {value : Nat} (representable : Representable value) :
    rounded value = value :=
  rounded_of_dvd (lastPlace_dvd_of_representable representable)

@[simp] theorem rounded_zero : rounded 0 = 0 := rfl

theorem rounded_of_le {value : Nat} (safe : value ≤ 2 ^ 53) : rounded value = value := by
  rcases Nat.lt_or_eq_of_le safe with less | rfl
  · exact rounded_of_representable (representable_of_lt less)
  · exact rounded_of_representable (representable_two_pow 53)

/-- What rounding chooses between. -/
theorem rounded_cases (value : Nat) :
    ∃ quotient rest, value = quotient * lastPlace value + rest ∧ rest < lastPlace value ∧
      (rounded value = quotient * lastPlace value ∧ 2 * rest ≤ lastPlace value ∨
        rounded value = (quotient + 1) * lastPlace value ∧ lastPlace value ≤ 2 * rest) := by
  refine ⟨value / lastPlace value, value % lastPlace value,
    (Nat.div_add_mod' value (lastPlace value)).symm, Nat.mod_lt _ (lastPlace_pos value), ?_⟩
  have next := Nat.succ_mul (value / lastPlace value) (lastPlace value)
  simp only [rounded]
  split
  · exact .inl ⟨rfl, by omega⟩
  · split
    · exact .inr ⟨next.symm, by omega⟩
    · split
      · exact .inl ⟨rfl, by omega⟩
      · exact .inr ⟨next.symm, by omega⟩

theorem representable_rounded (value : Nat) : Representable (rounded value) := by
  rcases Nat.lt_or_ge value (2 ^ 53) with small | large
  · rw [rounded_of_le small.le]
    exact representable_of_lt small
  · obtain ⟨quotient, rest, split, -, chosen⟩ := rounded_cases value
    have bound : quotient < 2 ^ 53 := by
      refine lt_of_mul_lt_mul_right (?_ : _ < _ * lastPlace value) (Nat.zero_le _)
      have := (quotient_bounds large).2
      omega
    rcases chosen with ⟨same, -⟩ | ⟨next, -⟩
    · rw [same]
      exact representable_mul_lastPlace bound.le
    · rw [next]
      exact representable_mul_lastPlace bound

@[simp] theorem rounded_rounded (value : Nat) : rounded (rounded value) = rounded value :=
  rounded_of_representable (representable_rounded value)

/-- No double lies between the two that rounding chooses from. -/
theorem outside {value double quotient rest : Nat}
    (split : value = quotient * lastPlace value + rest) (less : rest < lastPlace value)
    (representable : Representable double) :
    double ≤ quotient * lastPlace value ∨ (quotient + 1) * lastPlace value ≤ double := by
  rcases Nat.lt_or_ge value (2 ^ 53) with small | large
  · rw [lastPlace_of_lt small]
    omega
  · rcases Nat.lt_or_ge double (2 ^ 52 * lastPlace value) with low | high
    · have quotientLarge : 2 ^ 52 < quotient + 1 := by
        refine lt_of_mul_lt_mul_right (?_ : _ < _ * lastPlace value) (Nat.zero_le _)
        have := (quotient_bounds large).1
        rw [Nat.succ_mul]
        omega
      have := Nat.mul_le_mul_right (lastPlace value) (Nat.le_of_lt_succ quotientLarge)
      exact .inl (by omega)
    · obtain ⟨factor, rfl⟩ := lastPlace_dvd representable high
      rw [Nat.mul_comm (lastPlace value) factor]
      rcases Nat.lt_or_ge quotient factor with more | fewer
      · exact .inr (Nat.mul_le_mul_right _ more)
      · exact .inl (Nat.mul_le_mul_right _ fewer)

theorem rounded_of_le_value {value double : Nat} (representable : Representable double)
    (below : double ≤ value) :
    double ≤ rounded value ∧ (rounded value ≤ value ∨ rounded value + double ≤ 2 * value) := by
  obtain ⟨quotient, rest, split, less, chosen⟩ := rounded_cases value
  have sides := outside split less representable
  have next := Nat.add_one_mul quotient (lastPlace value)
  omega

theorem rounded_of_value_le {value double : Nat} (representable : Representable double)
    (above : value ≤ double) :
    rounded value ≤ double ∧ (value ≤ rounded value ∨ 2 * value ≤ rounded value + double) := by
  obtain ⟨quotient, rest, split, less, chosen⟩ := rounded_cases value
  have sides := outside split less representable
  have next := Nat.add_one_mul quotient (lastPlace value)
  omega

theorem rounded_mono {value value' : Nat} (less : value ≤ value') :
    rounded value ≤ rounded value' := by
  by_contra crossed
  have first := representable_rounded value
  have second := representable_rounded value'
  -- both would have to round away from the nearer of the two
  have low : rounded value' < value := by
    by_contra high
    have := (rounded_of_value_le second (Nat.le_of_not_lt high)).1
    omega
  have high : value' < rounded value := by
    by_contra low
    have := (rounded_of_le_value first (Nat.le_of_not_lt low)).1
    omega
  have near := (rounded_of_le_value second low.le).2
  have near' := (rounded_of_value_le first high.le).2
  have same : value = value' := by omega
  exact crossed (same ▸ le_refl _)

theorem rounded_eq_zero {value : Nat} : rounded value = 0 ↔ value = 0 := by
  refine ⟨fun zero => ?_, fun zero => by rw [zero, rounded_zero]⟩
  by_contra nonzero
  have := rounded_mono (Nat.one_le_iff_ne_zero.mpr nonzero)
  rw [zero, rounded_of_le (by decide)] at this
  omega

/-! ## Printing -/

/-- The shortest decimal of at most so many zeros at its end that is read back as the
    double, and of the two at that length the nearer. -/
def shortest (double : Nat) : Nat → Nat
  | 0 => double
  | zeros + 1 =>
    let place := 10 ^ (zeros + 1)
    let below := double / place * place
    let above := below + place
    if rounded below = double ∧ (rounded above = double →
        2 * (double % place) < place ∨ 2 * (double % place) = place ∧ double / place % 2 = 0) then
      below
    else if rounded above = double then above
    else shortest double zeros

/-- The decimal that `Number::toString` makes of a double. -/
def printed (double : Nat) : Nat := shortest double (Nat.log 10 double)

theorem rounded_shortest {double : Nat} (representable : Representable double) (zeros : Nat) :
    rounded (shortest double zeros) = double := by
  induction zeros with
  | zero => exact rounded_of_representable representable
  | succ zeros ih =>
    rw [shortest]
    split
    · exact ‹_ ∧ _›.1
    · split
      · assumption
      · exact ih

/-- What is printed is read back. -/
theorem rounded_printed {double : Nat} (representable : Representable double) :
    rounded (printed double) = double := rounded_shortest representable _

/-- A number of at most 53 bits is printed with all its digits. -/
theorem printed_of_lt {value : Nat} (safe : value < 2 ^ 53) : printed value = value := by
  have back := rounded_printed (representable_of_lt safe)
  rcases Nat.le_total (printed value) (2 ^ 53) with small | large
  · rwa [rounded_of_le small] at back
  · have := rounded_mono large
    rw [back, rounded_of_le (le_refl _)] at this
    omega

/-! ## Products -/

/-- What is printed of a number that is not negative. -/
inductive Text where
  | nan
  | numeral (value : Nat)
  | infinity
  deriving DecidableEq

def Text.ofDouble : Option Nat → Text
  | none => infinity
  | some double => numeral (printed double)

/-- A text read as a decimal of any size, some times over. -/
def Text.times : Text → Nat → Text
  | nan, _ => nan
  | numeral value, count => numeral (value * count)
  | infinity, 0 => nan
  | infinity, _ + 1 => infinity

/-- `(parseInt(text) * count).toString()` of the decimal text of a number -/
def product (value count : Nat) : Text :=
  match double value with
  | none => if count = 0 then .nan else .infinity
  | some value => .ofDouble (double (value * count))

/-- The product of doubles is printed as the product of the numbers. -/
def ExactProduct (value count : Nat) : Prop := product value count = .numeral (value * count)

instance (value count : Nat) : Decidable (ExactProduct value count) := decEq _ _

theorem eq_rounded_of_double {value finite : Nat} (double : double value = some finite) :
    finite = rounded value := by
  rw [Double.double] at double
  split at double
  · exact (Option.some.inj double).symm
  · cases double

theorem two_pow_lt_limit : 2 ^ 53 < limit := by
  have powers : ∀ exponent, 53 < exponent → 2 ^ 53 < 2 ^ exponent :=
    fun _ more => Nat.pow_lt_pow_right (by decide) more
  unfold limit
  exact powers 1024 (by decide)

theorem double_of_lt {value : Nat} (safe : value < 2 ^ 53) : double value = some value := by
  rw [double, rounded_of_le safe.le, if_pos (safe.trans two_pow_lt_limit)]

theorem exactProduct_of_lt {value count : Nat} (positive : 0 < count)
    (safe : value * count < 2 ^ 53) : ExactProduct value count := by
  have less : value < 2 ^ 53 := (Nat.le_mul_of_pos_right value positive).trans_lt safe
  rw [ExactProduct, product, double_of_lt less]
  change Text.ofDouble (double (value * count)) = _
  rw [double_of_lt safe, Text.ofDouble, printed_of_lt safe]

theorem exactProduct_zero {count : Nat} : ExactProduct 0 count := by
  have zero : double 0 = some 0 := double_of_lt (by norm_num)
  rw [ExactProduct, product, zero]
  change Text.ofDouble (double (0 * count)) = .numeral (0 * count)
  rw [Nat.zero_mul, zero, Text.ofDouble, printed_of_lt (by norm_num)]

/-- What a product prints is read back as the double that it is. -/
theorem product_eq_numeral {value count read : Nat}
    (printed : product value count = .numeral read) :
    rounded read = rounded (rounded value * count) := by
  rw [product] at printed
  split at printed
  · split at printed <;> cases printed
  · rename_i base finite
    cases scaled : double (base * count) with
    | none =>
      rw [scaled] at printed
      cases printed
    | some result =>
      rw [scaled, Text.ofDouble, Text.numeral.injEq] at printed
      rw [← printed, ← eq_rounded_of_double finite, eq_rounded_of_double scaled,
        rounded_printed (representable_rounded _)]

/-- From two times on, a product is not printed as the number itself. -/
theorem product_ne {value count : Nat} (positive : 0 < value) (twice : 2 ≤ count) :
    product value count ≠ .numeral value := by
  intro printed
  have read := product_eq_numeral printed
  have more : rounded (2 * rounded value) ≤ rounded (rounded value * count) :=
    rounded_mono (by rw [Nat.mul_comm]; exact Nat.mul_le_mul_left _ twice)
  rw [rounded_of_representable (representable_rounded value).two_mul, ← read] at more
  have nonzero : rounded value ≠ 0 := fun zero => positive.ne' (rounded_eq_zero.mp zero)
  omega

/-! ## Quotients -/

/-- A quotient with more bits than a double has, of which the last one stands for the rest. -/
def quotientBits (value divisor : Nat) : Nat :=
  let taken := value * 2 ^ (55 + divisor.log2)
  2 * (taken / divisor) + if taken % divisor = 0 then 0 else 1

/-- The double nearest to a quotient. -/
def quotient (value divisor : Nat) : ℚ :=
  rounded (quotientBits value divisor) / 2 ^ (56 + divisor.log2)

theorem quotientBits_thousand (value : Nat) :
    quotientBits value 1000 = 2 * (value * 2 ^ 64 / 1000) +
      if value * 2 ^ 64 % 1000 = 0 then 0 else 1 := by
  have logarithm : (1000 : Nat).log2 = 9 := by decide
  unfold quotientBits
  rw [logarithm]

theorem quotient_lt_iff_rounded {value whole : Nat} :
    quotient value 1000 < whole ↔ rounded (quotientBits value 1000) < whole * 2 ^ 65 := by
  have logarithm : (1000 : Nat).log2 = 9 := by decide
  have power : (0 : ℚ) < 2 ^ 65 := by positivity
  rw [quotient, logarithm, div_lt_iff₀ power, ← Nat.cast_lt (α := ℚ), Nat.cast_mul, Nat.cast_pow,
    Nat.cast_ofNat]

/-- On which side of a whole number a quotient lies is seen of its double. -/
theorem quotient_lt_iff {value whole : Nat} (small : whole ≤ 2 ^ 43) :
    quotient value 1000 < whole ↔ value < whole * 1000 := by
  have bits := quotientBits_thousand value
  have rest : (if value * 2 ^ 64 % 1000 = 0 then 0 else 1) ≤ 1 := by split <;> omega
  rw [quotient_lt_iff_rounded]
  constructor
  · intro less
    by_contra more
    have above : whole * 2 ^ 65 ≤ quotientBits value 1000 := by omega
    have representable : Representable (whole * 2 ^ 65) := ⟨whole, 65, by omega, rfl⟩
    have := (rounded_of_le_value representable above).1
    omega
  · intro less
    -- the double that is the next one below the whole number, or a lower one
    have below : quotientBits value 1000 ≤ (whole * 2 ^ 10 - 1) * 2 ^ 55 := by omega
    have representable : Representable ((whole * 2 ^ 10 - 1) * 2 ^ 55) := ⟨_, 55, by omega, rfl⟩
    have := (rounded_of_value_le representable below).1
    omega

/-! ## Nearest doubles -/

/-- The double nearest to a number that is not negative, with no bound to its exponent. -/
def nearest (value : ℚ) : ℚ := quotient value.num.natAbs value.den

theorem two_mul_le_quotientBits {value divisor point : Nat} (positive : 0 < divisor) :
    2 * point ≤ quotientBits value divisor ↔
      point * divisor ≤ value * 2 ^ (55 + divisor.log2) := by
  rw [← Nat.le_div_iff_mul_le positive, quotientBits]
  split <;> omega

theorem quotientBits_le_two_mul {value divisor point : Nat} (positive : 0 < divisor) :
    quotientBits value divisor ≤ 2 * point ↔
      value * 2 ^ (55 + divisor.log2) ≤ point * divisor := by
  have split := Nat.div_add_mod (value * 2 ^ (55 + divisor.log2)) divisor
  have less := Nat.mod_lt (value * 2 ^ (55 + divisor.log2)) positive
  rw [quotientBits]
  generalize value * 2 ^ (55 + divisor.log2) / divisor = whole at split ⊢
  generalize value * 2 ^ (55 + divisor.log2) % divisor = rest at split less ⊢
  rw [← split]
  constructor
  · intro bounded
    split at bounded
    · rename_i exact
      have fewer : whole ≤ point := by omega
      calc divisor * whole + rest = whole * divisor := by rw [exact, Nat.add_zero, Nat.mul_comm]
        _ ≤ point * divisor := Nat.mul_le_mul_right _ fewer
    · have fewer : whole + 1 ≤ point := by omega
      calc divisor * whole + rest ≤ (whole + 1) * divisor := by
            rw [Nat.add_one_mul, Nat.mul_comm]
            omega
        _ ≤ point * divisor := Nat.mul_le_mul_right _ fewer
  · intro bounded
    have fewer : whole ≤ point := by
      refine le_of_mul_le_mul_right (?_ : _ ≤ _ * divisor) positive
      rw [Nat.mul_comm]
      omega
    split
    · omega
    · rename_i inexact
      have other : whole ≠ point := by
        intro same
        rw [same, Nat.mul_comm] at bounded
        omega
      omega

/-- A number that is not negative, as the quotient that is rounded. -/
theorem natAbs_num_div_den {value : ℚ} (nonnegative : 0 ≤ value) :
    (value.num.natAbs : ℚ) / value.den = value := by
  have same : ((value.num.natAbs : Int) : ℚ) = value.num := by
    rw [Int.natAbs_of_nonneg (Rat.num_nonneg.mpr nonnegative)]
  rw [← Int.cast_natCast, same, Rat.num_div_den]

section Points

variable {value : ℚ} {mantissa shift : Nat}

theorem representable_point (fits : mantissa < 2 ^ 53) (more : Nat) :
    Representable (2 * (mantissa * 2 ^ (55 + more - shift))) :=
  ⟨mantissa, 55 + more - shift + 1, fits, by rw [Nat.pow_succ]; ring⟩

theorem point_eq (small : shift ≤ 55) (more : Nat) :
    ((2 * (mantissa * 2 ^ (55 + more - shift)) : Nat) : ℚ) / 2 ^ (56 + more) =
      mantissa / 2 ^ shift := by
  have powers : (2 : ℚ) ^ (56 + more) = 2 * (2 ^ (55 + more - shift) * 2 ^ shift) := by
    rw [← pow_add, ← pow_succ']
    congr 1
    omega
  rw [powers]
  push_cast
  rw [mul_div_mul_left _ _ two_ne_zero, mul_comm, mul_div_mul_left _ _ (by positivity)]

/-- A double of few bits below a number is below its nearest double. -/
theorem le_nearest (fits : mantissa < 2 ^ 53) (small : shift ≤ 55)
    (below : mantissa / 2 ^ shift ≤ value) : mantissa / 2 ^ shift ≤ nearest value := by
  have nonnegative : 0 ≤ value := (div_nonneg (Nat.cast_nonneg _) (by positivity)).trans below
  have scaled : mantissa * 2 ^ (55 + value.den.log2 - shift) * value.den ≤
      value.num.natAbs * 2 ^ (55 + value.den.log2) := by
    rw [← natAbs_num_div_den nonnegative, div_le_div_iff₀ (by positivity)
      (Nat.cast_pos.mpr value.den_pos)] at below
    norm_cast at below
    calc mantissa * 2 ^ (55 + value.den.log2 - shift) * value.den
        = mantissa * value.den * 2 ^ (55 + value.den.log2 - shift) := by ring
      _ ≤ value.num.natAbs * 2 ^ shift * 2 ^ (55 + value.den.log2 - shift) :=
        Nat.mul_le_mul_right _ below
      _ = value.num.natAbs * 2 ^ (55 + value.den.log2) := by
        rw [Nat.mul_assoc, ← Nat.pow_add]
        congr 2
        omega
  rw [← point_eq small value.den.log2, nearest, quotient]
  gcongr
  exact (rounded_of_le_value (representable_point fits _)
    ((two_mul_le_quotientBits value.den_pos).mpr scaled)).1

theorem nearest_le (nonnegative : 0 ≤ value) (fits : mantissa < 2 ^ 53) (small : shift ≤ 55)
    (above : value ≤ mantissa / 2 ^ shift) : nearest value ≤ mantissa / 2 ^ shift := by
  have scaled : value.num.natAbs * 2 ^ (55 + value.den.log2) ≤
      mantissa * 2 ^ (55 + value.den.log2 - shift) * value.den := by
    rw [← natAbs_num_div_den nonnegative, div_le_div_iff₀ (Nat.cast_pos.mpr value.den_pos)
      (by positivity)] at above
    norm_cast at above
    calc value.num.natAbs * 2 ^ (55 + value.den.log2)
        = value.num.natAbs * 2 ^ shift * 2 ^ (55 + value.den.log2 - shift) := by
          rw [Nat.mul_assoc, ← Nat.pow_add]
          congr 2
          omega
      _ ≤ mantissa * value.den * 2 ^ (55 + value.den.log2 - shift) :=
        Nat.mul_le_mul_right _ above
      _ = mantissa * 2 ^ (55 + value.den.log2 - shift) * value.den := by ring
  rw [← point_eq small value.den.log2, nearest, quotient]
  gcongr
  exact (rounded_of_value_le (representable_point fits _)
    ((quotientBits_le_two_mul value.den_pos).mpr scaled)).1

/-- Where two numbers are as far from each other as their places say, whether one is more than a
whole number is seen of its double. -/
theorem lt_nearest_iff {whole places : Nat}
    (scaled : ∃ numerator : Nat, value = numerator / 10 ^ places) (few : 10 ^ places ≤ 2 ^ 40)
    (small : whole < 2 ^ 12) : whole < nearest value ↔ whole < value := by
  obtain ⟨numerator, rfl⟩ := scaled
  have power : (0 : ℚ) < 10 ^ places := by positivity
  constructor
  · intro less
    by_contra more
    have above : (numerator / 10 ^ places : ℚ) ≤ (whole : Nat) / 2 ^ 0 := by
      rw [pow_zero, div_one]
      exact not_lt.mp more
    have rounded := nearest_le (div_nonneg (Nat.cast_nonneg _) power.le) (by omega) (by omega) above
    rw [pow_zero, div_one] at rounded
    exact rounded.not_gt less
  · intro less
    -- the double that is the next one above the whole number, or a higher one
    have next : ((whole * 2 ^ 40 + 1 : Nat) : ℚ) / 2 ^ 40 ≤ numerator / 10 ^ places := by
      rw [lt_div_iff₀ power] at less
      rw [div_le_div_iff₀ (by positivity) power]
      norm_cast at less ⊢
      have more : (whole * 10 ^ places + 1) * 2 ^ 40 ≤ numerator * 2 ^ 40 :=
        Nat.mul_le_mul_right _ less
      linarith
    have rounded := le_nearest (by omega) (by omega) next
    refine lt_of_lt_of_le ?_ rounded
    rw [lt_div_iff₀ (by positivity)]
    push_cast
    exact lt_add_one _

end Points

example : rounded (2 ^ 53 + 1) = 2 ^ 53 := by decide

example : printed (2 ^ 60) = 1152921504606847000 := by decide

end Ancore.Library.Double
