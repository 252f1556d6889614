import Mathlib

/-! # Fixed-width integers with checked and saturating addition

An integer type of fixed width is read through its mathematical value.  The
checked operations of systems languages answer only when the exact result is in
range (`checkedAdd_eq_some`), the saturating ones clamp it
(`toInt_saturatingAdd`).
-/

namespace Ancore.Library

/-- A type of integers between two bounds, each value determined by the integer it denotes. -/
class FixedWidth (α : Type) where
  toInt : α → Int
  ofInt : Int → α
  lower : Int
  upper : Int
  lower_le (a : α) : lower ≤ toInt a
  le_upper (a : α) : toInt a ≤ upper
  toInt_ofInt (n : Int) : lower ≤ n → n ≤ upper → toInt (ofInt n) = n
  toInt_injective : Function.Injective toInt

namespace FixedWidth

variable {α : Type} [FixedWidth α]

/-- Addition that fails on overflow. -/
def checkedAdd (a b : α) : Option α :=
  if lower α ≤ toInt a + toInt b ∧ toInt a + toInt b ≤ upper α then
    some (ofInt (toInt a + toInt b))
  else none

/-- Addition clamped to the range of the type. -/
def saturatingAdd (a b : α) : α :=
  ofInt (max (lower α) (min (upper α) (toInt a + toInt b)))

/-- Subtraction clamped to the range of the type. -/
def saturatingSub (a b : α) : α :=
  ofInt (max (lower α) (min (upper α) (toInt a - toInt b)))

theorem checkedAdd_eq_some {a b c : α} :
    checkedAdd a b = some c ↔ toInt c = toInt a + toInt b := by
  unfold checkedAdd
  constructor
  · intro accepted
    split at accepted
    · rename_i inRange
      cases accepted
      exact toInt_ofInt _ inRange.1 inRange.2
    · cases accepted
  · intro exact
    -- A value that denotes the exact sum is itself the proof that the sum is in range.
    have inRange : lower α ≤ toInt a + toInt b ∧ toInt a + toInt b ≤ upper α :=
      ⟨exact ▸ lower_le c, exact ▸ le_upper c⟩
    rw [if_pos inRange]
    refine congrArg some (toInt_injective ?_)
    rw [toInt_ofInt _ inRange.1 inRange.2, exact]

theorem toInt_saturatingAdd (a b : α) :
    toInt (saturatingAdd a b) = max (lower α) (min (upper α) (toInt a + toInt b)) := by
  have lowerBound := lower_le a
  have upperBound := le_upper a
  exact toInt_ofInt _ (by omega) (by omega)

/-- A value can lie strictly above a saturated sum only by lying above the exact one. -/
theorem saturatingAdd_lt_iff {a b c : α} (nonnegative : 0 ≤ toInt b) :
    toInt (saturatingAdd a b) < toInt c ↔ toInt a + toInt b < toInt c := by
  have lowerBound := lower_le a
  -- Clamping at the top is harmless: `c` is no larger than the bound clamped to.
  have upperBound := le_upper c
  rw [toInt_saturatingAdd]
  omega

end FixedWidth

/-! ## The unsigned types -/

instance : FixedWidth UInt32 where
  toInt a := a.toNat
  ofInt n := UInt32.ofNat n.toNat
  lower := 0
  upper := 2 ^ 32 - 1
  lower_le a := by omega
  le_upper a := by have := a.toNat_lt; omega
  toInt_ofInt n nonnegative bound := by
    rw [UInt32.toNat_ofNat_of_lt' (by change n.toNat < 2 ^ 32; omega)]; omega
  toInt_injective a b equal := UInt32.toNat_inj.mp (Int.ofNat.inj equal)

instance : FixedWidth UInt64 where
  toInt a := a.toNat
  ofInt n := UInt64.ofNat n.toNat
  lower := 0
  upper := 2 ^ 64 - 1
  lower_le a := by omega
  le_upper a := by have := a.toNat_lt; omega
  toInt_ofInt n nonnegative bound := by
    rw [UInt64.toNat_ofNat_of_lt' (by change n.toNat < 2 ^ 64; omega)]; omega
  toInt_injective a b equal := UInt64.toNat_inj.mp (Int.ofNat.inj equal)

namespace FixedWidth

@[simp] theorem toInt_uint32 (a : UInt32) : toInt a = (a.toNat : Int) := rfl

@[simp] theorem toInt_uint64 (a : UInt64) : toInt a = (a.toNat : Int) := rfl

theorem checkedAdd_uint32_eq_some {a b c : UInt32} :
    checkedAdd a b = some c ↔ c.toNat = a.toNat + b.toNat := by
  rw [checkedAdd_eq_some]; simp only [toInt_uint32]; omega

theorem checkedAdd_uint64_eq_some {a b c : UInt64} :
    checkedAdd a b = some c ↔ c.toNat = a.toNat + b.toNat := by
  rw [checkedAdd_eq_some]; simp only [toInt_uint64]; omega

theorem saturatingAdd_uint64_lt {a b c : UInt64} :
    saturatingAdd a b < c ↔ a.toNat + b.toNat < c.toNat := by
  have exact := saturatingAdd_lt_iff (a := a) (b := b) (c := c) (by simp)
  simp only [toInt_uint64] at exact
  rw [UInt64.lt_iff_toNat_lt]
  omega

end FixedWidth

/-! ## Signed 128-bit integers -/

/-- A 128-bit signed integer, given by the integer it denotes. -/
structure Int128 where
  val : Int
  lower : -2 ^ 127 ≤ val
  upper : val < 2 ^ 127
deriving DecidableEq

namespace Int128

@[ext] theorem ext {a b : Int128} (equal : a.val = b.val) : a = b := by
  cases a; cases b; cases equal; rfl

instance : Zero Int128 := ⟨⟨0, by decide, by decide⟩⟩

@[simp] theorem val_zero : (0 : Int128).val = 0 := rfl

instance : LT Int128 := ⟨fun a b => a.val < b.val⟩

instance : LE Int128 := ⟨fun a b => a.val ≤ b.val⟩

theorem lt_def {a b : Int128} : a < b ↔ a.val < b.val := Iff.rfl

theorem le_def {a b : Int128} : a ≤ b ↔ a.val ≤ b.val := Iff.rfl

instance (a b : Int128) : Decidable (a < b) := inferInstanceAs (Decidable (a.val < b.val))

instance (a b : Int128) : Decidable (a ≤ b) := inferInstanceAs (Decidable (a.val ≤ b.val))

instance : Max Int128 := ⟨fun a b => if a ≤ b then b else a⟩

theorem val_max (a b : Int128) : (max a b).val = max a.val b.val := by
  change (if a ≤ b then b else a).val = _
  split
  · rename_i below
    rw [le_def] at below
    omega
  · rename_i above
    rw [le_def] at above
    omega

instance : FixedWidth Int128 where
  toInt := val
  ofInt n := if inRange : -2 ^ 127 ≤ n ∧ n < 2 ^ 127 then ⟨n, inRange.1, inRange.2⟩ else 0
  lower := -2 ^ 127
  upper := 2 ^ 127 - 1
  lower_le := lower
  le_upper a := by have := a.upper; omega
  toInt_ofInt n low high := by rw [dif_pos ⟨low, by omega⟩]
  toInt_injective _ _ := ext

theorem checkedAdd_eq_some {a b c : Int128} :
    FixedWidth.checkedAdd a b = some c ↔ c.val = a.val + b.val :=
  FixedWidth.checkedAdd_eq_some

end Int128

end Ancore.Library
