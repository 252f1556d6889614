import Ancore.Library.Positional

/-! # Passkey signatures

`parseDerSignature` of the passkey module reads the two numbers of a signature.  It looks at the
tags of the sequence and of the two integers and at the lengths of the integers, and at nothing
else: not at the length of the sequence, and not at what there really is of an integer.
-/

namespace Ancore.Account.Passkeys

open Ancore.Library.Positional

inductive Failure where
  | passkeySigningError (message : String)
  | rangeError (message : String)
  deriving DecidableEq

/-! ## The parser -/

/-- An offset that is `NaN` when a byte that does not exist was added to it. -/
abbrev Offset := Option ℕ

def plus (offset : Offset) (byte : Option UInt8) : Offset :=
  match offset, byte with
  | some offset, some byte => some (offset + byte.toNat)
  | _, _ => none

/-- `b[offset]` -/
def byteAt (b : List UInt8) (offset : Offset) : Option UInt8 := offset.bind (b[·]?)

/-- `b.slice(start, end)`, where `NaN` counts as 0. -/
def slice (b : List UInt8) (start stop : Offset) : List UInt8 :=
  (b.take (stop.getD 0)).drop (start.getD 0)

/-- Where the length of the sequence ends; a byte that does not exist has no bits. -/
def skipSequenceLength (b : List UInt8) (offset : ℕ) : ℕ :=
  let first := b[offset]?.getD 0
  if first &&& 0x80 ≠ 0 then offset + ((first &&& 0x7f).toNat + 1) else offset + 1

def stripPadding (integer : List UInt8) : List UInt8 :=
  if integer.length = 33 ∧ integer.head? = some 0x00 then integer.drop 1 else integer

/-- `fixed.set(integer, 32 - integer.length)` in 32 zero bytes. -/
def setRight (integer : List UInt8) : Except Failure (List UInt8) :=
  if integer.length ≤ 32 then .ok (List.replicate (32 - integer.length) 0 ++ integer)
  else .error (.rangeError "offset is out of bounds")

def parseDerSignature (b : List UInt8) : Except Failure (List UInt8 × List UInt8) :=
  if b[0]? ≠ some 0x30 then
    .error (.passkeySigningError "DER signature: expected SEQUENCE (0x30)")
  else
    let offset := skipSequenceLength b 1
    if b[offset]? ≠ some 0x02 then
      .error (.passkeySigningError "DER signature: expected INTEGER for r")
    else
      let rLen := b[offset + 1]?
      let stop := plus (some (offset + 2)) rLen
      let r := slice b (some (offset + 2)) stop
      if byteAt b stop ≠ some 0x02 then
        .error (.passkeySigningError "DER signature: expected INTEGER for s")
      else
        let sLen := byteAt b (stop.map (· + 1))
        let start := stop.map (· + 2)
        let s := slice b start (plus start sLen)
        do
          let rFixed ← setRight (stripPadding r)
          let sFixed ← setRight (stripPadding s)
          return (rFixed, sFixed)

/-! ## Signatures in DER -/

/-- The bytes of a number from the most significant one on, none of zero. -/
def bytesOf (number : ℕ) : List UInt8 := (numeral 256 number).map UInt8.ofNat

/-- The contents of a DER integer: at least one byte, and no bit in front that is a sign. -/
def contents (number : ℕ) : List UInt8 :=
  match (bytesOf number).head? with
  | none => [0]
  | some first => if first < 0x80 then bytesOf number else 0 :: bytesOf number

def derInteger (number : ℕ) : List UInt8 :=
  0x02 :: UInt8.ofNat (contents number).length :: contents number

/-- The DER encoding of a sequence of two integers whose contents are short. -/
def derSignature (r s : ℕ) : List UInt8 :=
  0x30 :: UInt8.ofNat (derInteger r ++ derInteger s).length :: (derInteger r ++ derInteger s)

def IsDerSignature (b : List UInt8) : Prop :=
  ∃ r < 2 ^ 256, ∃ s < 2 ^ 256, b = derSignature r s

/-- A number as 32 bytes, the least significant byte last. -/
def bytes32 (number : ℕ) : List UInt8 :=
  List.replicate (32 - (bytesOf number).length) 0 ++ bytesOf number

/-- What the parser has to do with a byte string. -/
structure AcceptsExactly (b : List UInt8) : Prop where
  read : ∀ r < 2 ^ 256, ∀ s < 2 ^ 256, b = derSignature r s →
    parseDerSignature b = .ok (bytes32 r, bytes32 s)
  refused : ¬ IsDerSignature b →
    ∃ message, parseDerSignature b = .error (.passkeySigningError message)

/-! ### The contents of an integer -/

theorem length_bytesOf {number : ℕ} (small : number < 2 ^ 256) : (bytesOf number).length ≤ 32 := by
  have power : (2 : ℕ) ^ 256 = 256 ^ 32 := by norm_num
  rw [bytesOf, List.length_map, numeral, List.length_reverse,
    Nat.digits_length_le_iff (by decide), ← power]
  exact small

theorem contents_cases (number : ℕ) :
    contents number = bytesOf number ∧ bytesOf number ≠ [] ∨
      contents number = 0 :: bytesOf number := by
  unfold contents
  cases bytes : bytesOf number with
  | nil => exact .inr rfl
  | cons first rest =>
    simp only [List.head?_cons]
    split_ifs
    · exact .inl ⟨rfl, List.cons_ne_nil first rest⟩
    · exact .inr rfl

theorem length_contents {number : ℕ} (small : number < 2 ^ 256) :
    0 < (contents number).length ∧ (contents number).length ≤ 33 := by
  have short := length_bytesOf small
  rcases contents_cases number with ⟨plain, filled⟩ | padded
  · rw [plain]
    exact ⟨List.length_pos_iff.mpr filled, by omega⟩
  · rw [padded, List.length_cons]
    omega

/-- However an integer is padded, its bytes end up at the right. -/
theorem setRight_contents {number : ℕ} (small : number < 2 ^ 256) :
    setRight (stripPadding (contents number)) = .ok (bytes32 number) := by
  have short := length_bytesOf small
  rcases contents_cases number with ⟨plain, -⟩ | padded
  · have whole : ¬ ((bytesOf number).length = 33 ∧ (bytesOf number).head? = some 0) := by omega
    rw [plain, stripPadding, if_neg whole, setRight, if_pos short, bytes32]
  · by_cases full : (bytesOf number).length = 32
    · have padding : (0 :: bytesOf number).length = 33 ∧ (0 :: bytesOf number).head? = some 0 := by
        simp [full]
      rw [padded, stripPadding, if_pos padding, List.drop_succ_cons, List.drop_zero, setRight,
        if_pos short, bytes32]
    · have whole : ¬ ((0 :: bytesOf number).length = 33 ∧
          (0 :: bytesOf number).head? = some 0) := by
        rw [List.length_cons]
        omega
      have fits : (0 :: bytesOf number).length ≤ 32 := by
        rw [List.length_cons]
        omega
      have zeros : 32 - (bytesOf number).length = 32 - (0 :: bytesOf number).length + 1 := by
        rw [List.length_cons]
        omega
      rw [padded, stripPadding, if_neg whole, setRight, if_pos fits, bytes32, zeros,
        List.replicate_succ', List.append_assoc, List.singleton_append]

/-! ### What is where -/

theorem toNat_length {bytes : List UInt8} (short : bytes.length < 256) :
    (UInt8.ofNat bytes.length).toNat = bytes.length :=
  UInt8.toNat_ofNat_of_lt short

theorem slice_append {front middle back : List UInt8} {start : ℕ} (starts : front.length = start) :
    slice (front ++ (middle ++ back)) (some start) (some (start + middle.length)) = middle := by
  rw [slice, ← starts]
  simp [List.drop_take]

theorem getElem?_append_cons {front back : List UInt8} {byte : UInt8} {place : ℕ}
    (placed : front.length = place) : (front ++ byte :: back)[place]? = some byte := by
  rw [← placed, List.getElem?_append_right (Nat.le_refl _), Nat.sub_self]
  rfl

/-- The parser on two integers behind each other, whatever is behind them. -/
theorem parseDerSignature_of_layout {length rLen sLen : UInt8} {b r s rest : List UInt8}
    (layout : b = [0x30, length, 0x02, rLen] ++ (r ++ 0x02 :: sLen :: (s ++ rest)))
    (short : length &&& 0x80 = 0) (rCounted : rLen.toNat = r.length)
    (sCounted : sLen.toNat = s.length) :
    parseDerSignature b = do
      let rFixed ← setRight (stripPadding r)
      let sFixed ← setRight (stripPadding s)
      return (rFixed, sFixed) := by
  have first : b[0]? = some 0x30 := by rw [layout]; rfl
  have lengthAt : b[1]? = some length := by rw [layout]; rfl
  have second : b[2]? = some 0x02 := by rw [layout]; rfl
  have third : b[3]? = some rLen := by rw [layout]; rfl
  have skipped : skipSequenceLength b 1 = 2 := by
    rw [skipSequenceLength, lengthAt, Option.getD_some, short]
    rfl
  have stop : plus (some 4) (some rLen) = some (4 + r.length) := by
    rw [← rCounted]
    rfl
  have sliced : slice b (some 4) (some (4 + r.length)) = r := by
    rw [layout]
    exact slice_append rfl
  have tag : byteAt b (some (4 + r.length)) = some 0x02 := by
    rw [layout, ← List.append_assoc]
    exact getElem?_append_cons (List.length_append)
  have counted : byteAt b (some (4 + r.length + 1)) = some sLen := by
    have split : b = ([0x30, length, 0x02, rLen] ++ (r ++ [0x02])) ++ sLen :: (s ++ rest) := by
      simp [layout]
    rw [split]
    exact getElem?_append_cons (by simp; omega)
  have stopS : plus (some (4 + r.length + 2)) (some sLen) =
      some (4 + r.length + 2 + s.length) := by
    rw [← sCounted]
    rfl
  have slicedS : slice b (some (4 + r.length + 2)) (some (4 + r.length + 2 + s.length)) = s := by
    have split : b = ([0x30, length, 0x02, rLen] ++ (r ++ [0x02, sLen])) ++ (s ++ rest) := by
      simp [layout]
    rw [split]
    exact slice_append (by simp; omega)
  rw [parseDerSignature, if_neg (not_not.mpr first), skipped, if_neg (not_not.mpr second)]
  simp only [third, stop, sliced, tag, Option.map_some, counted, stopS, slicedS, ne_eq,
    not_true_eq_false, if_false]

theorem length_derInteger {number : ℕ} (small : number < 2 ^ 256) :
    3 ≤ (derInteger number).length ∧ (derInteger number).length ≤ 35 := by
  have bounds := length_contents small
  rw [derInteger, List.length_cons, List.length_cons]
  omega

theorem parseDerSignature_derSignature {r s : ℕ} (smallR : r < 2 ^ 256) (smallS : s < 2 ^ 256) :
    parseDerSignature (derSignature r s) = .ok (bytes32 r, bytes32 s) := by
  have boundsR := length_contents smallR
  have boundsS := length_contents smallS
  have lengthR := length_derInteger smallR
  have lengthS := length_derInteger smallS
  have total : (derInteger r ++ derInteger s).length ≤ 70 := by
    rw [List.length_append]
    omega
  have short : UInt8.ofNat (derInteger r ++ derInteger s).length &&& 0x80 = 0 := by
    have clear : ∀ length ≤ 70, UInt8.ofNat length &&& 0x80 = 0 := by decide
    exact clear _ total
  have layout : derSignature r s =
      [0x30, UInt8.ofNat (derInteger r ++ derInteger s).length, 0x02,
        UInt8.ofNat (contents r).length] ++
        (contents r ++ 0x02 :: UInt8.ofNat (contents s).length :: (contents s ++ [])) := by
    simp [derSignature, derInteger]
  rw [parseDerSignature_of_layout layout short (toNat_length (by omega)) (toNat_length (by omega)),
    setRight_contents smallR, setRight_contents smallS]
  rfl

/-! ## What is accepted -/

/-- Where the parser looks for the tag of the first integer, and of the second one. -/
def firstTag (b : List UInt8) : ℕ := skipSequenceLength b 1

def secondTag (b : List UInt8) : Offset := plus (some (firstTag b + 2)) b[firstTag b + 1]?

/-- One of the three tags is not there. -/
def MissesTag (b : List UInt8) : Prop :=
  b[0]? ≠ some 0x30 ∨ b[firstTag b]? ≠ some 0x02 ∨ byteAt b (secondTag b) ≠ some 0x02

theorem setRight_ne_refused (integer : List UInt8) (message : String) :
    setRight integer ≠ .error (.passkeySigningError message) := by
  unfold setRight
  split_ifs <;> simp

theorem setRight_pair_ne_refused (r s : List UInt8) (message : String) :
    (do
      let rFixed ← setRight r
      let sFixed ← setRight s
      return (rFixed, sFixed) : Except Failure (List UInt8 × List UInt8)) ≠
      .error (.passkeySigningError message) := by
  intro refused
  cases fixedR : setRight r with
  | error failure =>
    rw [fixedR] at refused
    cases refused
    exact setRight_ne_refused r message fixedR
  | ok rFixed =>
    cases fixedS : setRight s with
    | error failure =>
      rw [fixedR, fixedS] at refused
      cases refused
      exact setRight_ne_refused s message fixedS
    | ok sFixed =>
      rw [fixedR, fixedS] at refused
      cases refused

theorem missesTag_iff_refused (b : List UInt8) :
    MissesTag b ↔ ∃ message, parseDerSignature b = .error (.passkeySigningError message) := by
  by_cases sequence : b[0]? = some 0x30
  · by_cases first : b[firstTag b]? = some 0x02
    · by_cases second : byteAt b (secondTag b) = some 0x02
      · have complete : ¬ MissesTag b := by
          rintro (missing | missing | missing)
          · exact missing sequence
          · exact missing first
          · exact missing second
        refine ⟨fun missing => absurd missing complete, ?_⟩
        rintro ⟨message, refused⟩
        simp only [firstTag] at first
        simp only [secondTag, firstTag] at second
        simp only [parseDerSignature, sequence, first, second, ne_eq, not_true_eq_false,
          if_false] at refused
        exact absurd refused (setRight_pair_ne_refused _ _ _)
      · refine ⟨fun _ => ⟨"DER signature: expected INTEGER for s", ?_⟩, fun _ => .inr (.inr second)⟩
        simp only [firstTag] at first
        simp only [secondTag, firstTag] at second
        simp only [parseDerSignature, sequence, first, second, ne_eq, not_true_eq_false,
          not_false_eq_true, if_true, if_false]
    · refine ⟨fun _ => ⟨"DER signature: expected INTEGER for r", ?_⟩, fun _ => .inr (.inl first)⟩
      rw [parseDerSignature, if_neg (not_not.mpr sequence)]
      exact if_pos first
  · refine ⟨fun _ => ⟨"DER signature: expected SEQUENCE (0x30)", ?_⟩, fun _ => .inl sequence⟩
    rw [parseDerSignature, if_pos sequence]

/-- The parser does what it has to do exactly on the signatures in DER and on what misses one of
the three tags. -/
theorem acceptsExactly_iff (b : List UInt8) :
    AcceptsExactly b ↔ IsDerSignature b ∨ MissesTag b := by
  constructor
  · intro accepts
    by_cases encoded : IsDerSignature b
    · exact .inl encoded
    · exact .inr ((missesTag_iff_refused b).mpr (accepts.refused encoded))
  · intro condition
    refine ⟨?_, ?_⟩
    · rintro r smallR s smallS rfl
      exact parseDerSignature_derSignature smallR smallS
    · intro other
      exact (missesTag_iff_refused b).mp (condition.resolve_left other)

/-- A signature that ends behind the tag of its second integer is read as one whose second number
is zero. -/
theorem truncated_accepted :
    parseDerSignature [0x30, 0x06, 0x02, 0x01, 0x01, 0x02] =
        .ok (List.replicate 31 0 ++ [1], List.replicate 32 0) ∧
      ¬ AcceptsExactly [0x30, 0x06, 0x02, 0x01, 0x01, 0x02] := by
  have accepted : parseDerSignature [0x30, 0x06, 0x02, 0x01, 0x01, 0x02] =
      .ok (List.replicate 31 0 ++ [1], List.replicate 32 0) := by
    decide
  refine ⟨accepted, fun accepts => ?_⟩
  have other : ¬ IsDerSignature [0x30, 0x06, 0x02, 0x01, 0x01, 0x02] := by
    rintro ⟨r, smallR, s, smallS, equal⟩
    have lengths := congrArg List.length equal
    have lengthR := length_derInteger smallR
    have lengthS := length_derInteger smallS
    simp only [derSignature, List.length_cons, List.length_nil, List.length_append] at lengths
    omega
  obtain ⟨message, refused⟩ := accepts.refused other
  rw [accepted] at refused
  cases refused

end Ancore.Account.Passkeys
