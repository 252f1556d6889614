import Mathlib

/-! # Self-delimiting encoders

An encoder delimits a value when the value's code word, read off the front of
any stream, determines the value and the rest of the stream.  Code words of such
encoders can be written one after the other and still be told apart, which is
what makes an encoded tuple determine every component.

Encoders may refuse a value: they return an `Option`.
-/

namespace Ancore.Library

variable {α β γ : Type}

/-! ## Big-endian numbers -/

/-- The `width` low bytes of a number, most significant first. -/
def bigEndian : Nat → Nat → List UInt8
  | 0, _ => []
  | width + 1, value => UInt8.ofNat (value / 256 ^ width) :: bigEndian width (value % 256 ^ width)

@[simp] theorem bigEndian_length (width value : Nat) : (bigEndian width value).length = width := by
  induction width generalizing value with
  | zero => rfl
  | succ width inductionHypothesis => simp [bigEndian, inductionHypothesis]

theorem bigEndian_inj {width first second : Nat} (firstBound : first < 256 ^ width)
    (secondBound : second < 256 ^ width) (equal : bigEndian width first = bigEndian width second) :
    first = second := by
  induction width generalizing first second with
  | zero => simp only [pow_zero] at firstBound secondBound; omega
  | succ width inductionHypothesis =>
    simp only [bigEndian, List.cons.injEq] at equal
    have positive : 0 < 256 ^ width := Nat.pow_pos (by decide)
    have firstHigh : first / 256 ^ width < 256 :=
      (Nat.div_lt_iff_lt_mul positive).mpr (by rwa [pow_succ, mul_comm] at firstBound)
    have secondHigh : second / 256 ^ width < 256 :=
      (Nat.div_lt_iff_lt_mul positive).mpr (by rwa [pow_succ, mul_comm] at secondBound)
    -- The leading byte gives the quotient, the remaining ones the remainder.
    have high : first / 256 ^ width = second / 256 ^ width := by
      have bytes := congrArg UInt8.toNat equal.1
      rwa [UInt8.toNat_ofNat_of_lt' firstHigh, UInt8.toNat_ofNat_of_lt' secondHigh] at bytes
    have low := inductionHypothesis (Nat.mod_lt _ positive) (Nat.mod_lt _ positive) equal.2
    rw [← Nat.div_add_mod first (256 ^ width), high, low, Nat.div_add_mod]

/-- Numbers of one width in front of a stream are read back together with the rest of it. -/
theorem bigEndian_append_inj {width first second : Nat} {rest rest' : List UInt8}
    (firstBound : first < 256 ^ width) (secondBound : second < 256 ^ width)
    (equal : bigEndian width first ++ rest = bigEndian width second ++ rest') :
    first = second ∧ rest = rest' := by
  obtain ⟨words, tails⟩ := List.append_inj equal (by simp)
  exact ⟨bigEndian_inj firstBound secondBound words, tails⟩

/-! ## Delimited values -/

/-- The code word of `a` in front of a stream identifies `a` and the rest of the stream. -/
def Delimits (encode : α → Option (List β)) (a : α) : Prop :=
  ∀ ⦃b : α⦄ ⦃first second rest rest' : List β⦄, encode a = some first → encode b = some second →
    first ++ rest = second ++ rest' → a = b ∧ rest = rest'

/-- Two encoders, one word after the other. -/
def encodePair (encodeFst : α → Option (List β)) (encodeSnd : γ → Option (List β)) :
    α × γ → Option (List β)
  | (a, c) => do
    let first ← encodeFst a
    let second ← encodeSnd c
    some (first ++ second)

theorem Delimits.pair {encodeFst : α → Option (List β)} {encodeSnd : γ → Option (List β)}
    {a : α} {c : γ} (fst : Delimits encodeFst a) (snd : Delimits encodeSnd c) :
    Delimits (encodePair encodeFst encodeSnd) (a, c) := by
  rintro ⟨a', c'⟩ first second rest rest' encoded encoded' equal
  simp only [encodePair, Option.bind_eq_bind, Option.bind_eq_some_iff, Option.some.injEq]
    at encoded encoded'
  obtain ⟨x, encodedX, y, encodedY, rfl⟩ := encoded
  obtain ⟨x', encodedX', y', encodedY', rfl⟩ := encoded'
  rw [List.append_assoc, List.append_assoc] at equal
  -- Read the first word off the stream, then the second off what it leaves.
  obtain ⟨rfl, tail⟩ := fst encodedX encodedX' equal
  obtain ⟨rfl, rest⟩ := snd encodedY encodedY' tail
  exact ⟨rfl, rest⟩

/-- The code words of a list's items, one after the other. -/
def encodeAll (encode : α → Option (List β)) : List α → Option (List β)
  | [] => some []
  | item :: items => do
    let head ← encode item
    let tail ← encodeAll encode items
    some (head ++ tail)

/-- Items that delimit themselves can be read back off a stream once their number is known. -/
theorem encodeAll_inj {encode : α → Option (List β)} {items items' : List α}
    {first second rest rest' : List β} (each : ∀ item ∈ items, Delimits encode item)
    (sameLength : items.length = items'.length) (encoded : encodeAll encode items = some first)
    (encoded' : encodeAll encode items' = some second) (equal : first ++ rest = second ++ rest') :
    items = items' ∧ rest = rest' := by
  induction items generalizing items' first second with
  | nil =>
    cases items' with
    | nil => cases encoded; cases encoded'; exact ⟨rfl, equal⟩
    | cons _ _ => cases sameLength
  | cons item items inductionHypothesis =>
    cases items' with
    -- Lists of different lengths may share a code word; the length is what tells them apart.
    | nil => cases sameLength
    | cons item' items' =>
      simp only [encodeAll, Option.bind_eq_bind, Option.bind_eq_some_iff, Option.some.injEq]
        at encoded encoded'
      obtain ⟨head, encodedHead, tail, encodedTail, rfl⟩ := encoded
      obtain ⟨head', encodedHead', tail', encodedTail', rfl⟩ := encoded'
      rw [List.append_assoc, List.append_assoc] at equal
      obtain ⟨rfl, rest⟩ := each item List.mem_cons_self encodedHead encodedHead' equal
      obtain ⟨rfl, rest⟩ := inductionHypothesis
        (fun item member => each item (List.mem_cons_of_mem _ member))
        (Nat.succ.inj sameLength) encodedTail encodedTail' rest
      exact ⟨rfl, rest⟩

/-- Items that delimit themselves can be read back up to where none of them starts. -/
theorem flatMap_append_inj {encode : α → List β}
    (each : ∀ item, Delimits (fun item => some (encode item)) item) {items items' : List α}
    {rest rest' : List β} (ends : ∀ item tail, encode item ++ tail ≠ rest)
    (ends' : ∀ item tail, encode item ++ tail ≠ rest')
    (equal : items.flatMap encode ++ rest = items'.flatMap encode ++ rest') :
    items = items' ∧ rest = rest' := by
  induction items generalizing items' with
  | nil =>
    cases items' with
    | nil => exact ⟨rfl, equal⟩
    | cons item items' =>
      rw [List.flatMap_cons, List.append_assoc] at equal
      exact absurd equal.symm (ends _ _)
  | cons item items inductionHypothesis =>
    rw [List.flatMap_cons, List.append_assoc] at equal
    cases items' with
    | nil => exact absurd equal (ends' _ _)
    | cons item' items' =>
      rw [List.flatMap_cons, List.append_assoc] at equal
      obtain ⟨rfl, tails⟩ := each item rfl rfl equal
      obtain ⟨rfl, rest⟩ := inductionHypothesis tails
      exact ⟨rfl, rest⟩

/-! ## Separated values -/

/-- What stands behind the last separator of a stream can be read off its end. -/
theorem separated_inj {separator : β} {front front' tail tail' : List β} (plain : separator ∉ tail)
    (plain' : separator ∉ tail')
    (equal : front ++ separator :: tail = front' ++ separator :: tail') :
    front = front' ∧ tail = tail' := by
  rcases List.append_eq_append_iff.mp equal with ⟨extra, longer, rest⟩ | ⟨extra, longer, rest⟩
  · cases extra with
    | nil => exact ⟨by rw [longer, List.append_nil], (List.cons.inj rest).2⟩
    | cons letter extra =>
      -- The separator of the longer front would lie in the tail of the shorter one.
      have inside : tail = extra ++ separator :: tail' := (List.cons.inj rest).2
      exact absurd (by simp [inside]) plain
  · cases extra with
    | nil => exact ⟨by rw [longer, List.append_nil], (List.cons.inj rest).2.symm⟩
    | cons letter extra =>
      have inside : tail' = extra ++ separator :: tail := (List.cons.inj rest).2
      exact absurd (by simp [inside]) plain'

end Ancore.Library
