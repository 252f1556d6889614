import Ancore.Library.Positional

/-! # Base58

`toBase58` and `fromBase58` of the crypto package.  Both change the base of a numeral and keep
its zeros in front, a byte 0 as the letter `1`; the empty text is refused.
-/

namespace Ancore.Crypto

open Ancore.Library.Positional

def BASE58_ALPHABET : List Char :=
  "123456789ABCDEFGHJKLMNPQRSTUVWXYZabcdefghijkmnopqrstuvwxyz".toList

/-- `BASE58_ALPHABET[Number(num % 58n)]` -/
def base58Letter (num : Nat) : Char :=
  BASE58_ALPHABET.get ⟨num % 58, Nat.mod_lt num (by decide)⟩

structure TypeError where
  message : String
  deriving DecidableEq

/-- The loop `while (num > 0n)` of `toBase58`. -/
def prependLetters (num : Nat) (result : List Char) : List Char :=
  if 0 < num then prependLetters (num / 58) (base58Letter num :: result) else result
termination_by num
decreasing_by exact Nat.div_lt_self (by assumption) (by decide)

/-- The loop of `toBase58` that stops at the first byte that is not 0. -/
def prependOnes : List UInt8 → List Char → List Char
  | [], result => result
  | byte :: bytes, result =>
    if byte ≠ 0 then result else prependOnes bytes ('1' :: result)

def toBase58 (bytes : List UInt8) : String :=
  let num := bytes.foldl (fun num byte => num * 256 + byte.toNat) 0
  let result := prependLetters num []
  String.ofList (prependOnes bytes result)

def invalidBase58 : TypeError := ⟨"invalid base58 string"⟩

/-- The loop of `fromBase58` over the letters. -/
def readLetters : List Char → Nat → Except TypeError Nat
  | [], num => .ok num
  | ch :: letters, num =>
    match BASE58_ALPHABET.idxOf? ch with
    | none => .error invalidBase58
    | some idx => readLetters letters (num * 58 + idx)

/-- The loop `while (num > 0n)` of `fromBase58`. -/
def unshiftBytes (num : Nat) (digits : List UInt8) : List UInt8 :=
  if 0 < num then unshiftBytes (num / 256) (UInt8.ofNat (num % 256) :: digits) else digits
termination_by num
decreasing_by exact Nat.div_lt_self (by assumption) (by decide)

/-- The loop of `fromBase58` that stops at the first letter that is not `1`. -/
def countOnes : List Char → Nat → Nat
  | [], leadingZeros => leadingZeros
  | ch :: letters, leadingZeros =>
    if ch ≠ '1' then leadingZeros else countOnes letters (leadingZeros + 1)

def fromBase58 (s : String) : Except TypeError (List UInt8) :=
  if s.toList = [] then .error invalidBase58
  else do
    let num ← readLetters s.toList 0
    let digits := unshiftBytes num []
    let leadingZeros := countOnes s.toList 0
    return List.replicate leadingZeros 0 ++ digits

/-! ## Letters and digits -/

theorem idxOf?_base58Letter {digit : Nat} (small : digit < 58) :
    BASE58_ALPHABET.idxOf? (base58Letter digit) = some digit := by
  have lookup : ∀ digit < 58, BASE58_ALPHABET.idxOf? (base58Letter digit) = some digit := by
    decide
  exact lookup digit small

/-- A letter of the alphabet is the letter of its place. -/
theorem exists_digit {letter : Char} (member : letter ∈ BASE58_ALPHABET) :
    ∃ digit < 58, base58Letter digit = letter := by
  obtain ⟨place, located⟩ := List.mem_iff_get.mp member
  have small : place.val < 58 := place.isLt
  refine ⟨place, small, ?_⟩
  rw [← located]
  exact congrArg BASE58_ALPHABET.get (Fin.ext (Nat.mod_eq_of_lt small))

theorem base58Letter_inj {digit digit' : Nat} (small : digit < 58) (small' : digit' < 58)
    (same : base58Letter digit = base58Letter digit') : digit = digit' := by
  have place := idxOf?_base58Letter small
  rw [same, idxOf?_base58Letter small'] at place
  exact (Option.some.inj place).symm

/-- A text over the alphabet spells digits. -/
theorem exists_digits {letters : List Char} (valid : ∀ letter ∈ letters, letter ∈ BASE58_ALPHABET) :
    ∃ digits : List Nat, (∀ digit ∈ digits, digit < 58) ∧ digits.map base58Letter = letters := by
  induction letters with
  | nil => exact ⟨[], List.forall_mem_nil _, rfl⟩
  | cons letter letters ih =>
    obtain ⟨digit, small, spelled⟩ := exists_digit (valid letter List.mem_cons_self)
    obtain ⟨digits, smalls, spelledRest⟩ :=
      ih fun other member => valid other (List.mem_cons_of_mem _ member)
    refine ⟨digit :: digits, List.forall_mem_cons.mpr ⟨small, smalls⟩, ?_⟩
    rw [List.map_cons, spelled, spelledRest]

/-! ## The loops -/

theorem prependLetters_eq (num : Nat) (result : List Char) :
    prependLetters num result = (numeral 58 num).map base58Letter ++ result := by
  induction num, result using prependLetters.induct with
  | case1 num result positive ih =>
    rw [prependLetters, if_pos positive, ih, numeral_of_pos (by decide) positive]
    simp [base58Letter]
  | case2 num result zero =>
    rw [prependLetters, if_neg zero]
    simp [numeral, Nat.eq_zero_of_not_pos zero]

theorem unshiftBytes_eq (num : Nat) (digits : List UInt8) :
    unshiftBytes num digits = (numeral 256 num).map UInt8.ofNat ++ digits := by
  induction num, digits using unshiftBytes.induct with
  | case1 num digits positive ih =>
    rw [unshiftBytes, if_pos positive, ih, numeral_of_pos (by decide) positive]
    simp
  | case2 num digits zero =>
    rw [unshiftBytes, if_neg zero]
    simp [numeral, Nat.eq_zero_of_not_pos zero]

theorem prependOnes_eq (bytes : List UInt8) (result : List Char) :
    prependOnes bytes result =
      List.replicate (leadingZeros (bytes.map UInt8.toNat)) '1' ++ result := by
  induction bytes generalizing result with
  | nil => rfl
  | cons byte bytes ih =>
    by_cases zero : byte = 0
    · subst zero
      have spelled : (0 :: bytes).map UInt8.toNat = 0 :: bytes.map UInt8.toNat := rfl
      rw [prependOnes, if_neg (by simp), ih, spelled, leadingZeros_cons_zero,
        List.replicate_succ', List.append_assoc, List.singleton_append]
    · have nonzero : byte.toNat ≠ 0 := fun same => zero (UInt8.toNat_inj.mp same)
      rw [prependOnes, if_pos zero, List.map_cons, leadingZeros_cons_of_ne nonzero]
      rfl

theorem countOnes_eq {digits : List Nat} (small : ∀ digit ∈ digits, digit < 58) (count : Nat) :
    countOnes (digits.map base58Letter) count = count + leadingZeros digits := by
  induction digits generalizing count with
  | nil => rfl
  | cons digit digits ih =>
    obtain ⟨smallDigit, smallRest⟩ := List.forall_mem_cons.mp small
    rw [List.map_cons, countOnes]
    by_cases zero : digit = 0
    · subst zero
      rw [if_neg (by decide), ih smallRest, leadingZeros_cons_zero]
      omega
    · have other : base58Letter digit ≠ '1' :=
        fun same => zero (base58Letter_inj smallDigit (by decide) same)
      rw [if_pos other, leadingZeros_cons_of_ne zero, Nat.add_zero]

theorem readLetters_eq {digits : List Nat} (small : ∀ digit ∈ digits, digit < 58) (num : Nat) :
    readLetters (digits.map base58Letter) num =
      .ok (digits.foldl (fun number digit => number * 58 + digit) num) := by
  induction digits generalizing num with
  | nil => rfl
  | cons digit digits ih =>
    obtain ⟨smallDigit, smallRest⟩ := List.forall_mem_cons.mp small
    rw [List.map_cons, readLetters, idxOf?_base58Letter smallDigit]
    exact ih smallRest _

/-- A letter outside the alphabet is refused wherever it stands. -/
theorem readLetters_of_foreign {letters : List Char} {letter : Char} (member : letter ∈ letters)
    (foreign : letter ∉ BASE58_ALPHABET) (num : Nat) :
    readLetters letters num = .error invalidBase58 := by
  induction letters generalizing num with
  | nil => cases member
  | cons first letters ih =>
    rw [readLetters]
    cases found : BASE58_ALPHABET.idxOf? first with
    | none => rfl
    | some idx =>
      rcases List.mem_cons.mp member with rfl | later
      · rw [List.idxOf?_eq_none_iff.mpr foreign] at found
        cases found
      · exact ih later _

/-! ## The two conversions -/

theorem map_ofNat_toNat (bytes : List UInt8) : (bytes.map UInt8.toNat).map UInt8.ofNat = bytes := by
  have restored : ∀ byte : UInt8, UInt8.ofNat byte.toNat = byte := fun byte => UInt8.ofNat_toNat
  rw [List.map_map]
  exact List.map_id'' restored bytes

theorem map_toNat_ofNat {digits : List Nat} (small : ∀ digit ∈ digits, digit < 256) :
    (digits.map UInt8.ofNat).map UInt8.toNat = digits := by
  have restored : ∀ digit ∈ digits, (UInt8.toNat ∘ UInt8.ofNat) digit = id digit :=
    fun digit member => UInt8.toNat_ofNat_of_lt (small digit member)
  rw [List.map_map, List.map_congr_left restored, List.map_id]

theorem toBase58_toList (bytes : List UInt8) :
    (toBase58 bytes).toList = (rebase 256 58 (bytes.map UInt8.toNat)).map base58Letter := by
  have number : bytes.foldl (fun num byte => num * 256 + byte.toNat) 0 =
      value 256 (bytes.map UInt8.toNat) := by
    rw [value, List.foldl_map]
  rw [toBase58, String.toList_ofList, prependOnes_eq, prependLetters_eq, number, rebase,
    List.map_append, List.map_replicate, List.append_nil]
  rfl

theorem fromBase58_of_letters {s : String} {digits : List Nat}
    (spelled : s.toList = digits.map base58Letter) (small : ∀ digit ∈ digits, digit < 58)
    (filled : digits ≠ []) :
    fromBase58 s = .ok ((rebase 58 256 digits).map UInt8.ofNat) := by
  have nonempty : digits.map base58Letter ≠ [] := by simpa using filled
  have read := readLetters_eq small 0
  rw [fromBase58, spelled, if_neg nonempty, read, countOnes_eq small, Nat.zero_add, rebase,
    List.map_append, List.map_replicate]
  simp only [bind, Except.bind, unshiftBytes_eq, List.append_nil, pure, Except.pure, value]
  rfl

/-- `fromBase58` undoes `toBase58`. -/
theorem fromBase58_toBase58 {bytes : List UInt8} (filled : bytes ≠ []) :
    fromBase58 (toBase58 bytes) = .ok bytes := by
  have small : ∀ digit ∈ bytes.map UInt8.toNat, digit < 256 := by
    intro digit member
    obtain ⟨byte, -, rfl⟩ := List.mem_map.mp member
    exact byte.toNat_lt
  have nonempty : rebase 256 58 (bytes.map UInt8.toNat) ≠ [] :=
    rebase_ne_nil (by decide) small (by simpa using filled)
  rw [fromBase58_of_letters (toBase58_toList bytes) (fun _ => rebase_lt (by decide)) nonempty,
    rebase_rebase (by decide) small, map_ofNat_toNat]

/-- `toBase58` undoes `fromBase58`. -/
theorem fromBase58_of_valid {s : String} (filled : s.toList ≠ [])
    (valid : ∀ letter ∈ s.toList, letter ∈ BASE58_ALPHABET) :
    ∃ bytes, fromBase58 s = .ok bytes ∧ toBase58 bytes = s := by
  obtain ⟨digits, small, spelled⟩ := exists_digits valid
  have nonempty : digits ≠ [] := by
    intro empty
    rw [empty] at spelled
    exact filled spelled.symm
  refine ⟨_, fromBase58_of_letters spelled.symm small nonempty, ?_⟩
  have bytes : ((rebase 58 256 digits).map UInt8.ofNat).map UInt8.toNat = rebase 58 256 digits :=
    map_toNat_ofNat fun _ => rebase_lt (by decide)
  rw [← String.toList_inj, toBase58_toList, bytes, rebase_rebase (by decide) small, spelled]

theorem fromBase58_of_foreign {s : String} {letter : Char} (member : letter ∈ s.toList)
    (foreign : letter ∉ BASE58_ALPHABET) : fromBase58 s = .error invalidBase58 := by
  rw [fromBase58, readLetters_of_foreign member foreign]
  split_ifs <;> rfl

theorem fromBase58_eq_error_iff (s : String) :
    fromBase58 s = .error invalidBase58 ↔
      s = "" ∨ ∃ letter ∈ s.toList, letter ∉ BASE58_ALPHABET := by
  constructor
  · intro refused
    by_contra accepted
    push Not at accepted
    obtain ⟨bytes, read, -⟩ :=
      fromBase58_of_valid (by simpa using accepted.1) accepted.2
    rw [read] at refused
    cases refused
  · rintro (rfl | ⟨letter, member, foreign⟩)
    · rfl
    · exact fromBase58_of_foreign member foreign

/-- Base58 is a bijection between the byte strings that are not empty and the texts over the
alphabet that are not, and no other text is read. -/
theorem base58_bijection :
    (∀ bytes, bytes ≠ [] → fromBase58 (toBase58 bytes) = .ok bytes) ∧
      (∀ s, s ≠ "" → (∀ letter ∈ s.toList, letter ∈ BASE58_ALPHABET) →
        ∃ bytes, fromBase58 s = .ok bytes ∧ toBase58 bytes = s) ∧
      ∀ s, fromBase58 s = .error invalidBase58 ↔
        s = "" ∨ ∃ letter ∈ s.toList, letter ∉ BASE58_ALPHABET := by
  refine ⟨fun bytes => fromBase58_toBase58, fun s filled valid => ?_, fromBase58_eq_error_iff⟩
  exact fromBase58_of_valid (by simpa using filled) valid

theorem base58_bijection_of_zero_one :
    fromBase58 (toBase58 [0, 1]) = .ok [0, 1] ∧
      ∃ bytes, fromBase58 "12" = .ok bytes ∧ toBase58 bytes = "12" :=
  ⟨base58_bijection.1 [0, 1] (by decide),
    base58_bijection.2.1 "12" (by decide) (by
      intro letter member
      rcases List.mem_pair.mp (show letter ∈ ['1', '2'] from member) with rfl | rfl
      · exact List.mem_cons_self
      · exact List.mem_cons_of_mem _ List.mem_cons_self)⟩

/-- The empty byte string is written as a text that is refused, though no letter of it is
outside the alphabet. -/
theorem fromBase58_empty :
    fromBase58 (toBase58 []) = .error ⟨"invalid base58 string"⟩ ∧
      ∀ letter ∈ (toBase58 []).toList, letter ∈ BASE58_ALPHABET := by
  have empty : toBase58 [] = "" := by
    rw [← String.toList_inj, toBase58_toList, List.map_nil, rebase_nil]
    rfl
  rw [empty]
  exact ⟨rfl, by simp⟩

end Ancore.Crypto
