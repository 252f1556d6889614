import Mathlib.Data.List.TakeWhile
import Mathlib.Data.Nat.Digits.Lemmas

/-! # Positional numerals

Digits of a number with the most significant one in front, and the numeral in one base written
again in another.  A numeral may have zeros in front; they are kept one for one, which makes
the change of base a bijection between the numerals of the two bases.
-/

namespace Ancore.Library.Positional

/-- The number that the digits are of, read from the front. -/
def value (base : ℕ) (digits : List ℕ) : ℕ :=
  digits.foldl (fun number digit => number * base + digit) 0

def leadingZeros (digits : List ℕ) : ℕ := (digits.takeWhile (· == 0)).length

/-- The digits of a number, without zeros in front: none of zero. -/
def numeral (base number : ℕ) : List ℕ := (Nat.digits base number).reverse

/-- The numeral in the base `target`, with as many zeros in front. -/
def rebase (source target : ℕ) (digits : List ℕ) : List ℕ :=
  List.replicate (leadingZeros digits) 0 ++ numeral target (value source digits)

/-! ## The value -/

theorem foldl_eq_ofDigits (base start : ℕ) (digits : List ℕ) :
    digits.foldl (fun number digit => number * base + digit) start =
      Nat.ofDigits base (digits.reverse ++ [start]) := by
  induction digits generalizing start with
  | nil => simp
  | cons digit digits ih =>
    rw [List.foldl_cons, ih, List.reverse_cons, Nat.ofDigits_append, Nat.ofDigits_append,
      Nat.ofDigits_append]
    simp only [Nat.ofDigits_singleton, List.length_append, List.length_reverse, List.length_cons,
      List.length_nil, pow_succ]
    ring

theorem value_eq_ofDigits (base : ℕ) (digits : List ℕ) :
    value base digits = Nat.ofDigits base digits.reverse := by
  rw [value, foldl_eq_ofDigits, Nat.ofDigits_append]
  simp

theorem value_replicate_append (base zeros : ℕ) (digits : List ℕ) :
    value base (List.replicate zeros 0 ++ digits) = value base digits := by
  induction zeros with
  | zero => rfl
  | succ zeros ih =>
    rw [List.replicate_succ, List.cons_append]
    simpa [value] using ih

theorem value_numeral (base number : ℕ) : value base (numeral base number) = number := by
  rw [value_eq_ofDigits, numeral, List.reverse_reverse, Nat.ofDigits_digits]

/-! ## Numerals without zeros in front -/

theorem numeral_of_pos {base number : ℕ} (large : 1 < base) (positive : 0 < number) :
    numeral base number = numeral base (number / base) ++ [number % base] := by
  rw [numeral, Nat.digits_def' large positive, List.reverse_cons, numeral]

theorem head_numeral_ne_zero {base number : ℕ} {digit : ℕ}
    (head : (numeral base number).head? = some digit) : digit ≠ 0 := by
  rw [numeral, List.head?_reverse] at head
  have filled : Nat.digits base number ≠ [] := by
    intro empty
    rw [empty] at head
    cases head
  rw [← (List.getLast_eq_iff_getLast?_eq_some filled).mpr head]
  exact Nat.getLast_digit_ne_zero base (Nat.digits_ne_nil_iff_ne_zero.mp filled)

theorem numeral_lt {base number digit : ℕ} (large : 1 < base)
    (member : digit ∈ numeral base number) : digit < base :=
  Nat.digits_lt_base large (List.mem_reverse.mp member)

/-- Digits whose first one is not zero are the numeral of their value. -/
theorem numeral_value {base : ℕ} {digits : List ℕ} (large : 1 < base)
    (small : ∀ digit ∈ digits, digit < base) (head : ∀ digit ∈ digits.head?, digit ≠ 0) :
    numeral base (value base digits) = digits := by
  rw [numeral, value_eq_ofDigits, Nat.digits_ofDigits base large, List.reverse_reverse]
  · intro digit member
    exact small digit (List.mem_reverse.mp member)
  · intro filled
    rw [List.getLast_reverse]
    exact head _ (List.head?_eq_some_head _)

/-! ## Zeros in front -/

theorem leadingZeros_cons_zero (digits : List ℕ) :
    leadingZeros (0 :: digits) = leadingZeros digits + 1 := by
  simp [leadingZeros]

theorem leadingZeros_cons_of_ne {digit : ℕ} (nonzero : digit ≠ 0) (digits : List ℕ) :
    leadingZeros (digit :: digits) = 0 := by
  simp [leadingZeros, nonzero]

theorem leadingZeros_replicate_append {zeros : ℕ} {digits : List ℕ}
    (head : ∀ digit ∈ digits.head?, digit ≠ 0) :
    leadingZeros (List.replicate zeros 0 ++ digits) = zeros := by
  induction zeros with
  | zero =>
    cases digits with
    | nil => rfl
    | cons digit digits =>
      exact leadingZeros_cons_of_ne (head digit rfl) digits
  | succ zeros ih =>
    rw [List.replicate_succ, List.cons_append, leadingZeros_cons_zero, ih]

/-- Every numeral is some zeros in front of a numeral without. -/
theorem exists_eq_replicate_append (digits : List ℕ) :
    ∃ rest, digits = List.replicate (leadingZeros digits) 0 ++ rest ∧
      ∀ digit ∈ rest.head?, digit ≠ 0 := by
  refine ⟨digits.dropWhile (· == 0), ?_, ?_⟩
  · have zeros : digits.takeWhile (· == 0) = List.replicate (leadingZeros digits) 0 := by
      refine List.eq_replicate_iff.mpr ⟨rfl, fun digit member => ?_⟩
      simpa using List.mem_takeWhile_imp member
    rw [← zeros, List.takeWhile_append_dropWhile]
  · intro digit head zero
    have kept := List.head?_dropWhile_not (· == 0) digits
    rw [Option.mem_def.mp head] at kept
    simp [zero] at kept

/-! ## The change of base -/

theorem rebase_nil (source target : ℕ) : rebase source target [] = [] := by
  simp [rebase, leadingZeros, numeral, value]

theorem rebase_lt {source target digit : ℕ} {digits : List ℕ} (large : 1 < target)
    (member : digit ∈ rebase source target digits) : digit < target := by
  rcases List.mem_append.mp member with zero | digit
  · rw [(List.mem_replicate.mp zero).2]
    omega
  · exact numeral_lt large digit

theorem value_rebase (source target : ℕ) (digits : List ℕ) :
    value target (rebase source target digits) = value source digits := by
  rw [rebase, value_replicate_append, value_numeral]

theorem leadingZeros_rebase (source target : ℕ) (digits : List ℕ) :
    leadingZeros (rebase source target digits) = leadingZeros digits :=
  leadingZeros_replicate_append fun _ => head_numeral_ne_zero

theorem rebase_rebase {source target : ℕ} {digits : List ℕ} (large : 1 < source)
    (small : ∀ digit ∈ digits, digit < source) :
    rebase target source (rebase source target digits) = digits := by
  obtain ⟨rest, split, head⟩ := exists_eq_replicate_append digits
  have valued : value source digits = value source rest := by
    rw [split, value_replicate_append]
  have smallRest : ∀ digit ∈ rest, digit < source := by
    intro digit member
    rw [split] at small
    exact small digit (List.mem_append_right _ member)
  calc rebase target source (rebase source target digits)
      = List.replicate (leadingZeros digits) 0 ++ numeral source (value source rest) := by
        rw [rebase, value_rebase, leadingZeros_rebase, valued]
    _ = digits := by rw [numeral_value large smallRest head, ← split]

theorem rebase_ne_nil {source target : ℕ} {digits : List ℕ} (large : 1 < source)
    (small : ∀ digit ∈ digits, digit < source) (filled : digits ≠ []) :
    rebase source target digits ≠ [] := by
  intro empty
  have back : rebase target source (rebase source target digits) = digits :=
    rebase_rebase large small
  rw [empty, rebase_nil] at back
  exact filled back.symm

end Ancore.Library.Positional
