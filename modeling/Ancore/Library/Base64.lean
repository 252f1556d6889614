import Ancore.Library.CodeUnits

/-! # Base64

Three bytes are four digits of six bits.  One or two bytes that are left over are two or three
digits, the last of which has bits that stand for nothing: reading ignores them, and writing leaves
them zero (`digitsOf_bytesOf`).  `btoa` and `atob` are on top of that.
-/

namespace Ancore.Library.Base64

open EcmaScript

def digitsOf : List ℕ → List ℕ
  | [] => []
  | [a] => [a / 4, a % 4 * 16]
  | [a, b] => [a / 4, a % 4 * 16 + b / 16, b % 16 * 4]
  | a :: b :: c :: bytes =>
    a / 4 :: (a % 4 * 16 + b / 16) :: (b % 16 * 4 + c / 64) :: (c % 64) :: digitsOf bytes

def bytesOf : List ℕ → List ℕ
  | [] => []
  | [_] => []
  | [p, q] => [p * 4 + q / 16]
  | [p, q, r] => [p * 4 + q / 16, q % 16 * 16 + r / 4]
  | p :: q :: r :: s :: digits =>
    (p * 4 + q / 16) :: (q % 16 * 16 + r / 4) :: (r % 4 * 64 + s) :: bytesOf digits

/-- The digits with the bits zero that stand for nothing. -/
def canonicalDigits : List ℕ → List ℕ
  | [p, q] => [p, q / 16 * 16]
  | [p, q, r] => [p, q, r / 4 * 4]
  | p :: q :: r :: s :: digits => p :: q :: r :: s :: canonicalDigits digits
  | digits => digits

theorem length_canonicalDigits (digits : List ℕ) :
    (canonicalDigits digits).length = digits.length := by
  fun_induction canonicalDigits digits with
  | case1 p q => rfl
  | case2 p q r => rfl
  | case3 p q r s digits ih => simp [ih]
  | case4 digits => rfl

theorem bytesOf_digitsOf {bytes : List ℕ} (small : ∀ byte ∈ bytes, byte < 256) :
    bytesOf (digitsOf bytes) = bytes := by
  induction bytes using digitsOf.induct with
  | case1 => rfl
  | case2 a =>
    have : a % 4 * 16 / 16 = a % 4 := by omega
    rw [digitsOf, bytesOf, this, Nat.div_add_mod' a 4]
  | case3 a b =>
    have smallB : b < 256 := small b (by simp)
    have first : a / 4 * 4 + (a % 4 * 16 + b / 16) / 16 = a := by omega
    have second : (a % 4 * 16 + b / 16) % 16 * 16 + b % 16 * 4 / 4 = b := by omega
    rw [digitsOf, bytesOf, first, second]
  | case4 a b c bytes ih =>
    have smallB : b < 256 := small b (by simp)
    have smallC : c < 256 := small c (by simp)
    have first : a / 4 * 4 + (a % 4 * 16 + b / 16) / 16 = a := by omega
    have second : (a % 4 * 16 + b / 16) % 16 * 16 + (b % 16 * 4 + c / 64) / 4 = b := by omega
    have third : (b % 16 * 4 + c / 64) % 4 * 64 + c % 64 = c := by omega
    rw [digitsOf, bytesOf, first, second, third,
      ih fun byte member => small byte (by simp [member])]

theorem digitsOf_bytesOf {digits : List ℕ} (small : ∀ digit ∈ digits, digit < 64)
    (whole : digits.length % 4 ≠ 1) : digitsOf (bytesOf digits) = canonicalDigits digits := by
  induction digits using bytesOf.induct with
  | case1 => rfl
  | case2 p => exact absurd rfl whole
  | case3 p q =>
    have smallQ : q < 64 := small q (by simp)
    have first : (p * 4 + q / 16) / 4 = p := by omega
    have second : (p * 4 + q / 16) % 4 * 16 = q / 16 * 16 := by omega
    rw [bytesOf, digitsOf, canonicalDigits, first, second]
  | case4 p q r =>
    have smallQ : q < 64 := small q (by simp)
    have smallR : r < 64 := small r (by simp)
    have first : (p * 4 + q / 16) / 4 = p := by omega
    have second : (p * 4 + q / 16) % 4 * 16 + (q % 16 * 16 + r / 4) / 16 = q := by omega
    have third : (q % 16 * 16 + r / 4) % 16 * 4 = r / 4 * 4 := by omega
    rw [bytesOf, digitsOf, canonicalDigits, first, second, third]
  | case5 p q r s digits ih =>
    have smallQ : q < 64 := small q (by simp)
    have smallR : r < 64 := small r (by simp)
    have smallS : s < 64 := small s (by simp)
    have first : (p * 4 + q / 16) / 4 = p := by omega
    have second : (p * 4 + q / 16) % 4 * 16 + (q % 16 * 16 + r / 4) / 16 = q := by omega
    have third : (q % 16 * 16 + r / 4) % 16 * 4 + (r % 4 * 64 + s) / 64 = r := by omega
    have fourth : (r % 4 * 64 + s) % 64 = s := by omega
    have rest := ih (fun digit member => small digit (by simp [member]))
      (by
        rw [List.length_cons, List.length_cons, List.length_cons, List.length_cons] at whole
        omega)
    rw [bytesOf, digitsOf, canonicalDigits, first, second, third, fourth, rest]

theorem digitsOf_lt {bytes : List ℕ} (small : ∀ byte ∈ bytes, byte < 256) :
    ∀ digit ∈ digitsOf bytes, digit < 64 := by
  induction bytes using digitsOf.induct with
  | case1 => exact List.forall_mem_nil _
  | case2 a =>
    have smallA : a < 256 := small a (by simp)
    simp only [digitsOf, List.forall_mem_cons, List.not_mem_nil, false_implies, implies_true,
      and_true]
    omega
  | case3 a b =>
    have smallA : a < 256 := small a (by simp)
    have smallB : b < 256 := small b (by simp)
    simp only [digitsOf, List.forall_mem_cons, List.not_mem_nil, false_implies, implies_true,
      and_true]
    omega
  | case4 a b c bytes ih =>
    have smallA : a < 256 := small a (by simp)
    have smallB : b < 256 := small b (by simp)
    have smallC : c < 256 := small c (by simp)
    have rest := ih fun byte member => small byte (by simp [member])
    simp only [digitsOf, List.forall_mem_cons]
    exact ⟨by omega, by omega, by omega, by omega, rest⟩

theorem bytesOf_lt {digits : List ℕ} (small : ∀ digit ∈ digits, digit < 64) :
    ∀ byte ∈ bytesOf digits, byte < 256 := by
  induction digits using bytesOf.induct with
  | case1 => exact List.forall_mem_nil _
  | case2 p => exact List.forall_mem_nil _
  | case3 p q =>
    have smallP : p < 64 := small p (by simp)
    have smallQ : q < 64 := small q (by simp)
    simp only [bytesOf, List.forall_mem_cons, List.not_mem_nil, false_implies, implies_true,
      and_true]
    omega
  | case4 p q r =>
    have smallP : p < 64 := small p (by simp)
    have smallQ : q < 64 := small q (by simp)
    have smallR : r < 64 := small r (by simp)
    simp only [bytesOf, List.forall_mem_cons, List.not_mem_nil, false_implies, implies_true,
      and_true]
    omega
  | case5 p q r s digits ih =>
    have smallP : p < 64 := small p (by simp)
    have smallQ : q < 64 := small q (by simp)
    have smallR : r < 64 := small r (by simp)
    have smallS : s < 64 := small s (by simp)
    have rest := ih fun digit member => small digit (by simp [member])
    simp only [bytesOf, List.forall_mem_cons]
    exact ⟨by omega, by omega, by omega, rest⟩

/-- How many padding units the digits of so many bytes need. -/
def paddingOf (count : ℕ) : ℕ := (3 - count % 3) % 3

theorem length_digitsOf (bytes : List ℕ) :
    (digitsOf bytes).length + paddingOf bytes.length = (bytes.length + 2) / 3 * 4 := by
  induction bytes using digitsOf.induct with
  | case1 => rfl
  | case2 a => simp [digitsOf, paddingOf]
  | case3 a b => simp [digitsOf, paddingOf]
  | case4 a b c bytes ih =>
    simp only [digitsOf, List.length_cons, paddingOf] at ih ⊢
    omega

/-! ## Texts -/

def unitOf (digit : ℕ) : ℕ :=
  if digit < 26 then 0x41 + digit
  else if digit < 52 then 0x61 + (digit - 26)
  else if digit < 62 then 0x30 + (digit - 52)
  else if digit = 62 then 0x2B else 0x2F

def digitOf (unit : ℕ) : Option ℕ :=
  if 0x41 ≤ unit ∧ unit ≤ 0x5A then some (unit - 0x41)
  else if 0x61 ≤ unit ∧ unit ≤ 0x7A then some (unit - 0x61 + 26)
  else if 0x30 ≤ unit ∧ unit ≤ 0x39 then some (unit - 0x30 + 52)
  else if unit = 0x2B then some 62
  else if unit = 0x2F then some 63
  else none

theorem digitOf_unitOf {digit : ℕ} (small : digit < 64) : digitOf (unitOf digit) = some digit := by
  have each : ∀ digit < 64, digitOf (unitOf digit) = some digit := by decide
  exact each digit small

theorem unitOf_of_digitOf {unit digit : ℕ} (read : digitOf unit = some digit) :
    digit < 64 ∧ unitOf digit = unit := by
  unfold digitOf at read
  unfold unitOf
  split_ifs at read <;> cases read <;> split_ifs <;> omega

/-- `btoa(binary)` of letters below 256. -/
def btoa (binary : JsString) : JsString :=
  (digitsOf binary).map unitOf ++ List.replicate (paddingOf binary.length) 0x3D

/-- What is left without one or two `=` at the end. -/
def withoutPadding (text : JsString) : JsString :=
  text.take (text.length - min 2 (text.rtakeWhile (· = 0x3D)).length)

/-- `atob(data)`, where it does not throw. -/
def atob (data : JsString) : Option JsString :=
  let letters := data.filter fun unit => unit ∉ [0x9, 0xA, 0xC, 0xD, 0x20]
  let body := if letters.length % 4 = 0 then withoutPadding letters else letters
  if body.length % 4 = 1 then none else (body.mapM digitOf).map bytesOf

section Texts

variable {digits : List ℕ} {padding : ℕ}

theorem unitOf_ne {digit : ℕ} (small : digit < 64) :
    unitOf digit ≠ 0x3D ∧ unitOf digit ∉ [0x9, 0xA, 0xC, 0xD, 0x20] := by
  have each : ∀ digit < 64, unitOf digit ≠ 0x3D ∧ unitOf digit ∉ [0x9, 0xA, 0xC, 0xD, 0x20] := by
    decide
  exact each digit small

theorem mapM_digitOf (small : ∀ digit ∈ digits, digit < 64) :
    (digits.map unitOf).mapM digitOf = some digits := by
  induction digits with
  | nil => rfl
  | cons digit digits ih =>
    obtain ⟨first, rest⟩ := List.forall_mem_cons.mp small
    rw [List.map_cons, List.mapM_cons, digitOf_unitOf first, ih rest]
    rfl

theorem withoutPadding_append (small : ∀ digit ∈ digits, digit < 64) (short : padding ≤ 2) :
    withoutPadding (digits.map unitOf ++ List.replicate padding 0x3D) = digits.map unitOf := by
  have ends : ((digits.map unitOf ++ List.replicate padding 0x3D).rtakeWhile (· = 0x3D)).length =
      padding := by
    have stops : (digits.map unitOf).reverse.takeWhile (· = 0x3D) = [] := by
      rw [List.takeWhile_eq_nil_iff]
      intro filled isPadding
      have member := List.mem_reverse.mp (List.getElem_mem filled)
      obtain ⟨digit, isDigit, same⟩ := List.mem_map.mp member
      exact (unitOf_ne (small digit isDigit)).1 (same.trans (of_decide_eq_true isPadding))
    rw [List.rtakeWhile, List.length_reverse, List.reverse_append, List.reverse_replicate,
      List.takeWhile_append_of_pos (by simp), stops, List.append_nil, List.length_replicate]
  rw [withoutPadding, ends, Nat.min_eq_right short, List.length_append, List.length_replicate,
    Nat.add_sub_cancel, List.take_left']
  rfl

/-- Whole groups of four, of digits and then padding, are read. -/
theorem atob_append (small : ∀ digit ∈ digits, digit < 64) (short : padding ≤ 2)
    (whole : (digits.length + padding) % 4 = 0) :
    atob (digits.map unitOf ++ List.replicate padding 0x3D) = some (bytesOf digits) := by
  have solid : (digits.map unitOf ++ List.replicate padding 0x3D).filter
      (fun unit => unit ∉ [0x9, 0xA, 0xC, 0xD, 0x20]) =
      digits.map unitOf ++ List.replicate padding 0x3D := by
    refine List.filter_eq_self.mpr fun unit member => ?_
    rcases List.mem_append.mp member with letter | pad
    · obtain ⟨digit, isDigit, rfl⟩ := List.mem_map.mp letter
      exact decide_eq_true (unitOf_ne (small digit isDigit)).2
    · rw [List.eq_of_mem_replicate pad]
      rfl
  have length : (digits.map unitOf ++ List.replicate padding 0x3D).length % 4 = 0 := by
    rw [List.length_append, List.length_map, List.length_replicate]
    exact whole
  have body : ¬ (digits.map unitOf).length % 4 = 1 := by
    rw [List.length_map]
    omega
  unfold atob
  dsimp only
  rw [solid, if_pos length, withoutPadding_append small short, if_neg body, mapM_digitOf small]
  rfl

/-- What is read is written in the canonical form. -/
theorem btoa_bytesOf (small : ∀ digit ∈ digits, digit < 64) (short : padding ≤ 2)
    (whole : (digits.length + padding) % 4 = 0) :
    btoa (bytesOf digits) =
      (canonicalDigits digits).map unitOf ++ List.replicate padding 0x3D := by
  have written := digitsOf_bytesOf small (by omega)
  have length := length_digitsOf (bytesOf digits)
  have same := length_canonicalDigits digits
  have padded : paddingOf (bytesOf digits).length = padding := by
    rw [written, same] at length
    have : paddingOf (bytesOf digits).length < 3 := Nat.mod_lt _ (by decide)
    omega
  rw [btoa, written, padded]

end Texts

/-- What is written is read. -/
theorem atob_btoa {binary : JsString} (small : ∀ byte ∈ binary, byte < 256) :
    atob (btoa binary) = some binary := by
  have length := length_digitsOf binary
  have short : paddingOf binary.length < 3 := Nat.mod_lt _ (by decide)
  rw [btoa, atob_append (digitsOf_lt small) (by omega) (by omega), bytesOf_digitsOf small]

end Ancore.Library.Base64
