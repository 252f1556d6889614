import Mathlib.Data.BitVec
import Ancore.Library.Positional

/-! # Words

FNV-1a over words of any width, the bitwise operators that ECMAScript has for numbers, and
hexadecimal text of a fixed length.
-/

namespace Ancore.Library

/-! ## FNV-1a -/

/-- Where a hash starts and what it is multiplied with, which an inverse undoes. -/
structure Fnv (width : ℕ) where
  basis : BitVec width
  prime : BitVec width
  inverse : BitVec width
  prime_mul_inverse : prime * inverse = BitVec.ofNat width 1

/-- The parameters for 32 bits. -/
def fnv32 : Fnv 32 where
  basis := 0x811c9dc5#32
  prime := 0x01000193#32
  inverse := 0x359c449b#32
  prime_mul_inverse := by decide

namespace Fnv

variable {width : ℕ} (fnv : Fnv width)

def absorb (hash unit : BitVec width) : BitVec width := (hash ^^^ unit) * fnv.prime

def absorbAll (hash : BitVec width) (units : List (BitVec width)) : BitVec width :=
  units.foldl fnv.absorb hash

def digest (units : List (BitVec width)) : BitVec width := fnv.absorbAll fnv.basis units

variable {fnv} {hash hash' unit unit' : BitVec width}

theorem absorb_eq_iff : fnv.absorb hash unit = fnv.absorb hash' unit' ↔
    hash ^^^ unit = hash' ^^^ unit' := by
  constructor
  · intro equal
    have undone := congrArg (· * fnv.inverse) equal
    simpa only [absorb, BitVec.mul_assoc, fnv.prime_mul_inverse, BitVec.mul_one] using undone
  · intro equal
    rw [absorb, absorb, equal]

/-- A common rest does not bring two hashes together. -/
theorem absorbAll_inj {units : List (BitVec width)} :
    fnv.absorbAll hash units = fnv.absorbAll hash' units ↔ hash = hash' := by
  induction units generalizing hash hash' with
  | nil => rfl
  | cons unit units ih =>
    refine Iff.trans ih ?_
    rw [absorb_eq_iff, BitVec.xor_left_inj]

theorem absorbAll_append {first second : List (BitVec width)} :
    fnv.absorbAll hash (first ++ second) = fnv.absorbAll (fnv.absorbAll hash first) second :=
  List.foldl_append

/-- One unit that is exchanged changes the digest. -/
theorem digest_eq_iff_of_one {before after : List (BitVec width)} :
    fnv.digest (before ++ unit :: after) = fnv.digest (before ++ unit' :: after) ↔
      unit = unit' := by
  rw [digest, digest, absorbAll_append, absorbAll_append]
  let hash := fnv.absorbAll fnv.basis before
  change fnv.absorbAll (fnv.absorb hash unit) after =
    fnv.absorbAll (fnv.absorb hash unit') after ↔ _
  rw [absorbAll_inj, absorb_eq_iff, BitVec.xor_right_inj]

end Fnv

/-! ## Bitwise operators -/

namespace EcmaScript

/-- What a bitwise operator takes of an integer. -/
def toWord (number : ℤ) : BitVec 32 := BitVec.ofInt 32 number

/-- `number ^ number'` -/
def bitwiseXor (number number' : ℤ) : ℤ := (toWord number ^^^ toWord number').toInt

/-- `Math.imul(number, number')` -/
def imul (number number' : ℤ) : ℤ := (toWord number * toWord number').toInt

/-- `number >>> 0` -/
def toUint32 (number : ℤ) : ℤ := (toWord number).toNat

@[simp] theorem toWord_toInt (word : BitVec 32) : toWord word.toInt = word := BitVec.ofInt_toInt

@[simp] theorem toWord_natCast (number : ℕ) : toWord number = BitVec.ofNat 32 number :=
  BitVec.ofInt_natCast 32 number

/-- The hash of FNV-1a, as a number that is kept unsigned. -/
theorem toUint32_imul_bitwiseXor (hash : BitVec 32) (unit : ℕ) :
    toUint32 (imul (bitwiseXor hash.toNat unit) 0x01000193) =
      (fnv32.absorb hash (BitVec.ofNat 32 unit)).toNat := by
  rw [toUint32, imul, toWord_toInt, bitwiseXor, toWord_toInt, toWord_natCast, toWord_natCast,
    BitVec.ofNat_toNat, BitVec.setWidth_eq]
  rfl

/-! ## Hexadecimal text -/

/-- `number.toString(16).padStart(length, '0')` of a natural number. -/
def paddedHex (length number : ℕ) : List Char := (Nat.toDigits 16 number).leftpad length '0'

def hexLetterValue (letter : Char) : ℕ :=
  if letter.toNat < 0x3A then letter.toNat - 0x30 else letter.toNat - 0x57

theorem hexLetterValue_digitChar : ∀ digit < 16, hexLetterValue (Nat.digitChar digit) = digit := by
  decide

theorem value_toDigits (number : ℕ) :
    Positional.value 16 ((Nat.toDigits 16 number).map hexLetterValue) = number := by
  induction number using Nat.strong_induction_on with
  | _ number ih =>
    rw [Nat.toDigits_eq_if (by decide)]
    split_ifs with single
    · simp [Positional.value, hexLetterValue_digitChar number single]
    · have rest := ih (number / 16) (by omega)
      rw [Positional.value] at rest
      rw [List.map_append, Positional.value, List.foldl_append, rest]
      simp only [List.map_cons, List.map_nil, List.foldl_cons, List.foldl_nil,
        hexLetterValue_digitChar (number % 16) (by omega)]
      omega

theorem length_paddedHex {length number : ℕ} (positive : 0 < length)
    (small : number < 16 ^ length) : (paddedHex length number).length = length := by
  rw [paddedHex, List.length_leftpad]
  have short := (Nat.length_toDigits_le_iff (by decide) positive).mpr small
  omega

theorem paddedHex_inj {length length' number number' : ℕ}
    (equal : paddedHex length number = paddedHex length' number') : number = number' := by
  have values := congrArg (fun letters => Positional.value 16 (letters.map hexLetterValue)) equal
  simpa [paddedHex, List.leftpad, hexLetterValue, Positional.value_replicate_append,
    value_toDigits] using values

end EcmaScript

end Ancore.Library
