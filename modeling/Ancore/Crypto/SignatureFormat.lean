import Ancore.Library.Base64
import Ancore.Library.JsonText

/-! # Formats of signatures

A signature is written as hexadecimal digits, in base64 or as it is, and read back without being
told which: hexadecimal digits are tried first.
-/

namespace Ancore.Crypto

open Library Library.EcmaScript

inductive SignatureFormat where
  | hex
  | base64
  | raw

/-- `Uint8Array | string` -/
inductive Signature where
  | bytes (bytes : List UInt8)
  | text (text : JsString)
deriving DecidableEq

/-- `value.startsWith('0x')` -/
def isPrefixed (value : JsString) : Bool := (ascii "0x").isPrefixOf value

/-- `value.startsWith('0x') ? value.slice(2) : value` -/
def cleaned (value : JsString) : JsString := if isPrefixed value then value.drop 2 else value

/-- `/^[0-9a-fA-F]*$/` -/
def isHexDigit (unit : ℕ) : Bool :=
  (0x30 ≤ unit && unit ≤ 0x39) || (0x61 ≤ unit && unit ≤ 0x66) || (0x41 ≤ unit && unit ≤ 0x46)

def isValidHex (value : JsString) : Bool :=
  if (cleaned value).length % 2 ≠ 0 then false else (cleaned value).all isHexDigit

/-- `/^[A-Za-z0-9+/]*$/` -/
def isBase64Letter (unit : ℕ) : Bool :=
  (0x41 ≤ unit && unit ≤ 0x5A) || (0x61 ≤ unit && unit ≤ 0x7A) || (0x30 ≤ unit && unit ≤ 0x39) ||
    unit = 0x2B || unit = 0x2F

def isValidBase64 (value : JsString) : Bool :=
  value.dropWhile isBase64Letter ∈ [[], [0x3D], [0x3D, 0x3D]] && value.length % 4 = 0

def normalizePadding (b64 : JsString) : JsString :=
  let remainder := b64.length % 4
  if remainder = 0 then b64 else b64 ++ List.replicate (4 - remainder) 0x3D

/-- `b.toString(16).padStart(2, '0')` -/
def hexOfByte (byte : UInt8) : JsString :=
  let digits := (Nat.toDigits 16 byte.toNat).map Char.toNat
  List.replicate (2 - digits.length) 0x30 ++ digits

def toHex (bytes : List UInt8) (includePrefix : Bool) : JsString :=
  let hex := bytes.flatMap hexOfByte
  if includePrefix then ascii "0x" ++ hex else hex

/-- `parseInt(text, 16)` of a text of letters and digits; not a number where it has no digit. -/
def parseInt16 (text : JsString) : Option ℕ :=
  let digits := ((cleaned text).takeWhile isHexDigit).filterMap hexValue
  if digits = [] then none else some (digits.foldl (fun number digit => 16 * number + digit) 0)

/-- A number as an element of a `Uint8Array`. -/
def toUint8 (number : Option ℕ) : UInt8 := UInt8.ofNat (number.getD 0)

def fromHex (hex : JsString) : Except JsString (List UInt8) :=
  if isValidHex (cleaned hex) = false then .error (ascii "Invalid hex string: " ++ hex)
  else
    .ok ((List.range ((cleaned hex).length / 2)).map fun i =>
      toUint8 (parseInt16 (((cleaned hex).drop (i * 2)).take 2)))

def toBase64 (bytes : List UInt8) : JsString := Base64.btoa (bytes.map UInt8.toNat)

def fromBase64 (b64 : JsString) : Except JsString (List UInt8) :=
  let normalized := normalizePadding b64
  if isValidBase64 normalized = false then .error (ascii "Invalid base64 string: " ++ b64)
  else
    match Base64.atob normalized with
    | none => .error (ascii "InvalidCharacterError")
    | some binary => .ok (binary.map UInt8.ofNat)

def encodeSignature (signature : List UInt8) : SignatureFormat → Signature
  | .hex => .text (toHex signature false)
  | .base64 => .text (toBase64 signature)
  | .raw => .bytes signature

/-- The bytes of a text where it is taken for hexadecimal digits. -/
def tryHex (signature : JsString) : Option (List UInt8) :=
  if isValidHex signature || isPrefixed signature then (fromHex signature).toOption else none

/-- The bytes of a text where it is taken for base64. -/
def tryBase64 (signature : JsString) : Option (List UInt8) :=
  if isValidBase64 signature then (fromBase64 signature).toOption else none

def decodeSignature : Signature → Except JsString (List UInt8)
  | .bytes signature => .ok signature
  | .text signature =>
    match tryHex signature with
    | some bytes => .ok bytes
    | none =>
      match tryBase64 signature with
      | some bytes => .ok bytes
      | none => .error (ascii "Unable to detect signature format. " ++
          ascii "Expected hex, base64, or Uint8Array, got: " ++ signature)

/-- The bytes of three letters in base64 that are hexadecimal digits as well. -/
theorem hex_is_tried_first :
    decodeSignature (encodeSignature [0x69, 0xb7, 0x1d] .base64) ≠ .ok [0x69, 0xb7, 0x1d] := by
  decide

/-! ## Hexadecimal digits -/

/-- An even number of hexadecimal digits. -/
def HexText (text : JsString) : Prop :=
  text.length % 2 = 0 ∧ ∀ unit ∈ text, isHexDigit unit = true

/-- A text that begins with the prefix twice. -/
def DoublyPrefixed (text : JsString) : Prop := isPrefixed (cleaned text) = true

def lowerHex (unit : ℕ) : ℕ := if 0x41 ≤ unit ∧ unit ≤ 0x46 then unit + 0x20 else unit

theorem isValidHex_iff (value : JsString) : isValidHex value = true ↔ HexText (cleaned value) := by
  unfold isValidHex HexText
  split_ifs with odd
  · exact ⟨nofun, fun hex => absurd hex.1 odd⟩
  · rw [List.all_eq_true]
    exact ⟨fun digits => ⟨by omega, digits⟩, fun hex => hex.2⟩

theorem cleaned_of_not_prefixed {value : JsString} (plain : isPrefixed value = false) :
    cleaned value = value := by
  rw [cleaned, plain]
  rfl

/-- The prefix is no part of hexadecimal digits. -/
theorem isPrefixed_of_hexText {text : JsString} (digits : ∀ unit ∈ text, isHexDigit unit = true) :
    isPrefixed text = false := by
  rw [isPrefixed, Bool.eq_false_iff]
  intro isPrefix
  obtain ⟨rest, rfl⟩ := List.isPrefixOf_iff_prefix.mp isPrefix
  have letter := digits 0x78 (by simp [ascii])
  cases letter

theorem hexValue_of_isHexDigit {unit : ℕ} (digit : isHexDigit unit = true) :
    ∃ value < 16, hexValue unit = some value ∧ hexUnit value = lowerHex unit := by
  simp only [isHexDigit, Bool.or_eq_true, Bool.and_eq_true, decide_eq_true_eq] at digit
  unfold hexValue hexUnit lowerHex
  rcases digit with (decimal | small) | capital
  · refine ⟨unit - 0x30, by omega, if_pos decimal, ?_⟩
    rw [if_pos (by omega), if_neg (by omega)]
    omega
  · refine ⟨unit - 0x61 + 10, by omega, ?_, ?_⟩
    · rw [if_neg (by omega), if_neg (by omega), if_pos small]
    · rw [if_neg (by omega), if_neg (by omega)]
      omega
  · refine ⟨unit - 0x41 + 10, by omega, ?_, ?_⟩
    · rw [if_neg (by omega), if_pos capital]
    · rw [if_neg (by omega), if_pos capital]
      omega

theorem hexOfByte_ofNat {high low : ℕ} (smallHigh : high < 16) (smallLow : low < 16) :
    hexOfByte (UInt8.ofNat (16 * high + low)) = [hexUnit high, hexUnit low] := by
  have each : ∀ high < 16, ∀ low < 16,
      hexOfByte (UInt8.ofNat (16 * high + low)) = [hexUnit high, hexUnit low] := by
    decide
  exact each high smallHigh low smallLow

theorem hexOfByte_eq (byte : UInt8) :
    hexOfByte byte = [hexUnit (byte.toNat / 16), hexUnit (byte.toNat % 16)] := by
  have small := byte.toNat_lt
  have high : byte.toNat / 16 < 16 := by omega
  have low : byte.toNat % 16 < 16 := Nat.mod_lt _ (by decide)
  have written := hexOfByte_ofNat high low
  rwa [Nat.div_add_mod, UInt8.ofNat_toNat] at written

/-- Two digits as a number. -/
theorem parseInt16_pair {first second high low : ℕ} (isFirst : isHexDigit first = true)
    (isSecond : isHexDigit second = true) (firstValue : hexValue first = some high)
    (secondValue : hexValue second = some low) :
    parseInt16 [first, second] = some (16 * high + low) := by
  have digits : ∀ unit ∈ [first, second], isHexDigit unit = true := by simp [isFirst, isSecond]
  have plain := cleaned_of_not_prefixed (isPrefixed_of_hexText digits)
  have taken : [first, second].takeWhile isHexDigit = [first, second] :=
    List.takeWhile_eq_self_iff.mpr digits
  rw [parseInt16, plain, taken]
  simp [firstValue, secondValue]

/-- The loop of `fromHex`. -/
def bytesOfPairs (text : JsString) : List UInt8 :=
  (List.range (text.length / 2)).map fun i => toUint8 (parseInt16 ((text.drop (i * 2)).take 2))

theorem bytesOfPairs_cons (first second : ℕ) (text : JsString) :
    bytesOfPairs (first :: second :: text) =
      toUint8 (parseInt16 [first, second]) :: bytesOfPairs text := by
  have half : (first :: second :: text).length / 2 = text.length / 2 + 1 := by
    rw [List.length_cons, List.length_cons]
    omega
  rw [bytesOfPairs, half, List.range_succ_eq_map, List.map_cons, List.map_map]
  refine congrArg _ (List.map_congr_left fun i _ => ?_)
  have next : (i + 1) * 2 = i * 2 + 1 + 1 := by omega
  rw [Function.comp_apply, Nat.succ_eq_add_one, next, List.drop_succ_cons, List.drop_succ_cons]

/-- The bytes that a text of digits stands for are written as it is, in small letters. -/
theorem toHex_bytesOfPairs {text : JsString} (hex : HexText text) :
    (bytesOfPairs text).flatMap hexOfByte = text.map lowerHex := by
  obtain ⟨even, digits⟩ := hex
  induction text using List.twoStepInduction with
  | nil => rfl
  | singleton unit => cases even
  | cons_cons first second text ih =>
    obtain ⟨isFirst, isSecond, others⟩ :
        isHexDigit first = true ∧ isHexDigit second = true ∧
          ∀ unit ∈ text, isHexDigit unit = true := by
      rwa [List.forall_mem_cons, List.forall_mem_cons] at digits
    obtain ⟨high, smallHigh, highValue, highUnit⟩ := hexValue_of_isHexDigit isFirst
    obtain ⟨low, smallLow, lowValue, lowUnit⟩ := hexValue_of_isHexDigit isSecond
    have rest : text.length % 2 = 0 := by
      rw [List.length_cons, List.length_cons] at even
      omega
    rw [bytesOfPairs_cons, parseInt16_pair isFirst isSecond highValue lowValue, List.flatMap_cons,
      ih rest others, toUint8, Option.getD_some, hexOfByte_ofNat smallHigh smallLow, highUnit,
      lowUnit]
    rfl

theorem length_bytesOfPairs (text : JsString) : (bytesOfPairs text).length = text.length / 2 := by
  rw [bytesOfPairs, List.length_map, List.length_range]

/-! ## What is tried -/

theorem tryHex_eq (text : JsString) :
    tryHex text =
      if isValidHex (cleaned text) then some (bytesOfPairs (cleaned text)) else none := by
  have read : (fromHex text).toOption =
      if isValidHex (cleaned text) then some (bytesOfPairs (cleaned text)) else none := by
    unfold fromHex bytesOfPairs
    cases isValidHex (cleaned text) <;> rfl
  unfold tryHex
  cases plain : isPrefixed text with
  | true => rw [Bool.or_true, if_pos rfl, read]
  | false =>
    rw [cleaned_of_not_prefixed plain] at read ⊢
    rw [Bool.or_false, read]
    cases isValidHex text <;> rfl

section Tried

variable {text : JsString} (single : ¬ DoublyPrefixed text)
include single

/-- Behind a single prefix nothing else is taken off. -/
theorem isValidHex_cleaned : isValidHex (cleaned text) = true ↔ HexText (cleaned text) := by
  rw [isValidHex_iff, cleaned_of_not_prefixed (Bool.eq_false_iff.mpr single)]

theorem tryHex_of_hexText (hex : HexText (cleaned text)) :
    tryHex text = some (bytesOfPairs (cleaned text)) := by
  rw [tryHex_eq, if_pos ((isValidHex_cleaned single).mpr hex)]

theorem tryHex_of_not_hexText (other : ¬ HexText (cleaned text)) : tryHex text = none := by
  rw [tryHex_eq, if_neg (mt (isValidHex_cleaned single).mp other)]

end Tried

theorem isHexDigit_hexUnit {digit : ℕ} (small : digit < 16) :
    isHexDigit (hexUnit digit) = true := by
  have each : ∀ digit < 16, isHexDigit (hexUnit digit) = true := by decide
  exact each digit small

theorem hexText_flatMap (bytes : List UInt8) : HexText (bytes.flatMap hexOfByte) := by
  induction bytes with
  | nil => exact ⟨rfl, List.forall_mem_nil _⟩
  | cons byte bytes ih =>
    have small := byte.toNat_lt
    have high : isHexDigit (hexUnit (byte.toNat / 16)) = true := isHexDigit_hexUnit (by omega)
    have low : isHexDigit (hexUnit (byte.toNat % 16)) = true :=
      isHexDigit_hexUnit (Nat.mod_lt _ (by decide))
    rw [List.flatMap_cons, hexOfByte_eq]
    refine ⟨?_, ?_⟩
    · have even := ih.1
      simp only [List.cons_append, List.nil_append, List.length_cons]
      omega
    · exact List.forall_mem_cons.mpr ⟨high, List.forall_mem_cons.mpr ⟨low, ih.2⟩⟩

theorem bytesOfPairs_flatMap (bytes : List UInt8) :
    bytesOfPairs (bytes.flatMap hexOfByte) = bytes := by
  induction bytes with
  | nil => rfl
  | cons byte bytes ih =>
    have small := byte.toNat_lt
    have high : byte.toNat / 16 < 16 := by omega
    have low : byte.toNat % 16 < 16 := Nat.mod_lt _ (by decide)
    have number := parseInt16_pair (isHexDigit_hexUnit high) (isHexDigit_hexUnit low)
      (Reader.hexValue_hexUnit high) (Reader.hexValue_hexUnit low)
    rw [List.flatMap_cons, hexOfByte_eq, List.cons_append, List.cons_append, List.nil_append,
      bytesOfPairs_cons, ih, number, toUint8, Option.getD_some, Nat.div_add_mod,
      UInt8.ofNat_toNat]

theorem tryHex_toHex (bytes : List UInt8) : tryHex (toHex bytes false) = some bytes := by
  have hex := hexText_flatMap bytes
  have plain := isPrefixed_of_hexText hex.2
  have clean := cleaned_of_not_prefixed plain
  have single : ¬ DoublyPrefixed (bytes.flatMap hexOfByte) := by
    rw [DoublyPrefixed, clean, plain]
    exact Bool.false_ne_true
  have tried := tryHex_of_hexText single (clean.symm ▸ hex)
  rw [clean, bytesOfPairs_flatMap] at tried
  exact tried

/-! ## Base64 -/

theorem isBase64Letter_iff (unit : ℕ) :
    isBase64Letter unit = true ↔ ∃ digit, Base64.digitOf unit = some digit := by
  unfold isBase64Letter Base64.digitOf
  split_ifs <;> simp <;> omega

theorem exists_digits_of_letters {letters : JsString}
    (valid : ∀ unit ∈ letters, isBase64Letter unit = true) :
    ∃ digits : List ℕ, (∀ digit ∈ digits, digit < 64) ∧ letters = digits.map Base64.unitOf := by
  induction letters with
  | nil => exact ⟨[], List.forall_mem_nil _, rfl⟩
  | cons unit letters ih =>
    obtain ⟨first, others⟩ := List.forall_mem_cons.mp valid
    obtain ⟨digit, read⟩ := (isBase64Letter_iff unit).mp first
    obtain ⟨small, same⟩ := Base64.unitOf_of_digitOf read
    obtain ⟨digits, smallDigits, rfl⟩ := ih others
    exact ⟨digit :: digits, List.forall_mem_cons.mpr ⟨small, smallDigits⟩, by
      rw [List.map_cons, same]⟩

theorem isBase64Letter_unitOf {digit : ℕ} (small : digit < 64) :
    isBase64Letter (Base64.unitOf digit) = true :=
  (isBase64Letter_iff _).mpr ⟨digit, Base64.digitOf_unitOf small⟩

/-- A valid text: digits, and then padding up to a whole group. -/
theorem isValidBase64_iff (value : JsString) : isValidBase64 value = true ↔
    ∃ (digits : List ℕ) (padding : ℕ), (∀ digit ∈ digits, digit < 64) ∧ padding ≤ 2 ∧
      (digits.length + padding) % 4 = 0 ∧
      value = digits.map Base64.unitOf ++ List.replicate padding 0x3D := by
  rw [isValidBase64, Bool.and_eq_true, decide_eq_true_eq, decide_eq_true_eq]
  constructor
  · rintro ⟨ends, whole⟩
    have valid : ∀ unit ∈ value.takeWhile isBase64Letter, isBase64Letter unit = true :=
      fun _ member => List.mem_takeWhile_imp member
    obtain ⟨digits, small, letters⟩ := exists_digits_of_letters valid
    have padded : ∃ padding ≤ 2, value.dropWhile isBase64Letter = List.replicate padding 0x3D := by
      simp only [List.mem_cons, List.not_mem_nil, or_false] at ends
      rcases ends with none | one | two
      · exact ⟨0, by omega, none⟩
      · exact ⟨1, by omega, one⟩
      · exact ⟨2, by omega, two⟩
    obtain ⟨padding, short, rest⟩ := padded
    have split : value = digits.map Base64.unitOf ++ List.replicate padding 0x3D := by
      rw [← letters, ← rest, List.takeWhile_append_dropWhile]
    refine ⟨digits, padding, small, short, ?_, split⟩
    rwa [split, List.length_append, List.length_map, List.length_replicate] at whole
  · rintro ⟨digits, padding, small, short, whole, rfl⟩
    have letters : ∀ unit ∈ digits.map Base64.unitOf, isBase64Letter unit = true := by
      intro unit member
      obtain ⟨digit, isDigit, rfl⟩ := List.mem_map.mp member
      exact isBase64Letter_unitOf (small digit isDigit)
    refine ⟨?_, ?_⟩
    · rw [List.dropWhile_append_of_pos letters]
      have each : ∀ padding ≤ 2, (List.replicate padding 0x3D).dropWhile isBase64Letter ∈
          [[], [0x3D], [0x3D, 0x3D]] := by decide
      exact each padding short
    · rwa [List.length_append, List.length_map, List.length_replicate]

/-- Whole groups are taken for base64 as they are. -/
theorem tryBase64_append {digits : List ℕ} {padding : ℕ} (small : ∀ digit ∈ digits, digit < 64)
    (short : padding ≤ 2) (whole : (digits.length + padding) % 4 = 0) :
    tryBase64 (digits.map Base64.unitOf ++ List.replicate padding 0x3D) =
      some ((Base64.bytesOf digits).map UInt8.ofNat) := by
  have valid := (isValidBase64_iff _).mpr ⟨digits, padding, small, short, whole, rfl⟩
  have length : (digits.map Base64.unitOf ++ List.replicate padding 0x3D).length % 4 = 0 := by
    rwa [List.length_append, List.length_map, List.length_replicate]
  have same : normalizePadding (digits.map Base64.unitOf ++ List.replicate padding 0x3D) =
      digits.map Base64.unitOf ++ List.replicate padding 0x3D := if_pos length
  rw [tryBase64, if_pos valid, fromBase64, same, valid, if_neg (by exact nofun),
    Base64.atob_append small short whole]
  rfl

theorem toBase64_eq (bytes : List UInt8) :
    ∃ (digits : List ℕ) (padding : ℕ), (∀ digit ∈ digits, digit < 64) ∧ padding ≤ 2 ∧
      digits.length + padding = (bytes.length + 2) / 3 * 4 ∧ (padding = 0 → 3 ∣ bytes.length) ∧
      toBase64 bytes = digits.map Base64.unitOf ++ List.replicate padding 0x3D ∧
      (Base64.bytesOf digits).map UInt8.ofNat = bytes := by
  have small : ∀ byte ∈ bytes.map UInt8.toNat, byte < 256 := by
    intro byte member
    obtain ⟨old, -, rfl⟩ := List.mem_map.mp member
    exact old.toNat_lt
  have length := Base64.length_digitsOf (bytes.map UInt8.toNat)
  have short : Base64.paddingOf (bytes.map UInt8.toNat).length < 3 := Nat.mod_lt _ (by decide)
  refine ⟨Base64.digitsOf (bytes.map UInt8.toNat), _, Base64.digitsOf_lt small,
    Nat.le_of_lt_succ short, ?_, fun unpadded => ?_, rfl, ?_⟩
  · rw [List.length_map] at length ⊢
    exact length
  · rw [Base64.paddingOf, List.length_map] at unpadded
    omega
  · rw [Base64.bytesOf_digitsOf small, List.map_map]
    exact List.map_id'' (fun byte => UInt8.ofNat_toNat) bytes

theorem tryBase64_toBase64 (bytes : List UInt8) : tryBase64 (toBase64 bytes) = some bytes := by
  obtain ⟨digits, padding, small, short, length, -, text, read⟩ := toBase64_eq bytes
  rw [text, tryBase64_append small short (by omega), read]

/-- Where base64 is taken for hexadecimal digits, these stand for fewer bytes. -/
theorem bytesOfPairs_toBase64_ne {bytes : List UInt8} (filled : bytes ≠ [])
    (hex : HexText (cleaned (toBase64 bytes))) :
    bytesOfPairs (cleaned (toBase64 bytes)) ≠ bytes := by
  obtain ⟨digits, padding, small, short, length, unpadded, text, -⟩ := toBase64_eq bytes
  have positive : 0 < bytes.length := List.length_pos_iff.mpr filled
  have whole : (toBase64 bytes).length = (bytes.length + 2) / 3 * 4 := by
    rw [text, List.length_append, List.length_map, List.length_replicate, length]
  have long : 2 ≤ (digits.map Base64.unitOf).length := by
    rw [List.length_map]
    omega
  -- padding would be left behind a prefix
  have kept : padding ≠ 0 → 0x3D ∈ cleaned (toBase64 bytes) := by
    intro padded
    have pad : 0x3D ∈ List.replicate padding 0x3D := List.mem_replicate.mpr ⟨padded, rfl⟩
    rw [cleaned, text]
    split_ifs
    · rw [List.drop_append_of_le_length long]
      exact List.mem_append_right _ pad
    · exact List.mem_append_right _ pad
  have none : padding = 0 := by
    by_contra padded
    cases hex.2 0x3D (kept padded)
  have shorter : (cleaned (toBase64 bytes)).length ≤ (toBase64 bytes).length := by
    unfold cleaned
    split_ifs
    · rw [List.length_drop]
      exact Nat.sub_le _ _
    · exact le_rfl
  intro same
  have lengths := congrArg List.length same
  rw [length_bytesOfPairs] at lengths
  have := unpadded none
  omega

/-! ## Round trips -/

/-- The format that a text is detected to have, with the bytes that it is decoded to. -/
def DetectedAs (text : JsString) : SignatureFormat → List UInt8 → Prop
  | .hex, bytes => tryHex text = some bytes
  | .base64, bytes => tryHex text = none ∧ tryBase64 text = some bytes
  | .raw, _ => False

/-- Small hexadecimal digits without a prefix; base64 with the bits zero that stand for nothing. -/
def canonicalText (format : SignatureFormat) (text : JsString) : JsString :=
  match format with
  | .hex => (cleaned text).map lowerHex
  | .base64 =>
    (Base64.canonicalDigits ((text.takeWhile isBase64Letter).filterMap Base64.digitOf)).map
      Base64.unitOf ++ text.dropWhile isBase64Letter
  | .raw => text

theorem decodeSignature_eq_ok_iff (text : JsString) (bytes : List UInt8) :
    decodeSignature (.text text) = .ok bytes ↔ ∃ format, DetectedAs text format bytes := by
  have decoded : decodeSignature (.text text) = match tryHex text with
      | some bytes => .ok bytes
      | none => match tryBase64 text with
        | some bytes => .ok bytes
        | none => .error (ascii "Unable to detect signature format. " ++
            ascii "Expected hex, base64, or Uint8Array, got: " ++ text) := rfl
  rw [decoded]
  cases hex : tryHex text with
  | some found =>
    constructor
    · intro same
      cases same
      exact ⟨.hex, hex⟩
    · rintro ⟨format, detected⟩
      cases format with
      | hex => exact congrArg Except.ok (Option.some.inj (hex.symm.trans detected))
      | base64 => cases hex.symm.trans detected.1
      | raw => exact detected.elim
  | none =>
    cases base64 : tryBase64 text with
    | some found =>
      constructor
      · intro same
        cases same
        exact ⟨.base64, hex, base64⟩
      · rintro ⟨format, detected⟩
        cases format with
        | hex => cases hex.symm.trans detected
        | base64 => exact congrArg Except.ok (Option.some.inj (base64.symm.trans detected.2))
        | raw => exact detected.elim
    | none =>
      constructor
      · exact nofun
      · rintro ⟨format, detected⟩
        cases format with
        | hex => cases hex.symm.trans detected
        | base64 => cases base64.symm.trans detected.2
        | raw => exact detected.elim

theorem canonicalText_base64 {digits : List ℕ} {padding : ℕ} (small : ∀ digit ∈ digits, digit < 64)
    (short : padding ≤ 2) :
    canonicalText .base64 (digits.map Base64.unitOf ++ List.replicate padding 0x3D) =
      (Base64.canonicalDigits digits).map Base64.unitOf ++ List.replicate padding 0x3D := by
  have letters : ∀ unit ∈ digits.map Base64.unitOf, isBase64Letter unit = true := by
    intro unit member
    obtain ⟨digit, isDigit, rfl⟩ := List.mem_map.mp member
    exact isBase64Letter_unitOf (small digit isDigit)
  have ends : (List.replicate padding 0x3D).takeWhile isBase64Letter = [] ∧
      (List.replicate padding 0x3D).dropWhile isBase64Letter = List.replicate padding 0x3D := by
    have each : ∀ padding ≤ 2, (List.replicate padding 0x3D).takeWhile isBase64Letter = [] ∧
        (List.replicate padding 0x3D).dropWhile isBase64Letter =
          List.replicate padding 0x3D := by decide
    exact each padding short
  have read : (digits.map Base64.unitOf).filterMap Base64.digitOf = digits := by
    rw [List.filterMap_map]
    refine (List.filterMap_congr fun digit isDigit => ?_).trans List.filterMap_some
    exact Base64.digitOf_unitOf (small digit isDigit)
  rw [canonicalText, List.takeWhile_append_of_pos letters, List.dropWhile_append_of_pos letters,
    ends.1, ends.2, List.append_nil, read]

/-- What is decoded in a detected format is encoded as the canonical form of the text. -/
theorem encodeSignature_of_detectedAs {text : JsString} {format : SignatureFormat}
    {bytes : List UInt8} (single : ¬ DoublyPrefixed text)
    (detected : DetectedAs text format bytes) :
    encodeSignature bytes format = .text (canonicalText format text) := by
  cases format with
  | hex =>
    by_cases hex : HexText (cleaned text)
    · rw [DetectedAs, tryHex_of_hexText single hex, Option.some.injEq] at detected
      rw [← detected]
      exact congrArg Signature.text (toHex_bytesOfPairs hex)
    · rw [DetectedAs, tryHex_of_not_hexText single hex] at detected
      cases detected
  | base64 =>
    obtain ⟨-, base64⟩ := detected
    cases valid : isValidBase64 text with
    | false =>
      rw [tryBase64, valid] at base64
      cases base64
    | true =>
      obtain ⟨digits, padding, small, short, whole, rfl⟩ := (isValidBase64_iff text).mp valid
      rw [tryBase64_append small short whole, Option.some.injEq] at base64
      have values : bytes.map UInt8.toNat = Base64.bytesOf digits := by
        rw [← base64, List.map_map]
        refine (List.map_congr_left fun byte member => ?_).trans (List.map_id _)
        exact Nat.mod_eq_of_lt (Base64.bytesOf_lt small byte member)
      rw [canonicalText_base64 small short, encodeSignature, toBase64, values,
        Base64.btoa_bytesOf small short whole]
  | raw => exact detected.elim

/-- Bytes come back from hexadecimal digits and as they are; from base64 too, unless that is
hexadecimal digits as well.  A text that is decoded is encoded in its canonical form. -/
theorem signature_round_trips :
    (∀ bytes, decodeSignature (encodeSignature bytes .raw) = .ok bytes) ∧
      (∀ bytes, decodeSignature (encodeSignature bytes .hex) = .ok bytes) ∧
      (∀ bytes, ¬ DoublyPrefixed (toBase64 bytes) →
        (decodeSignature (encodeSignature bytes .base64) = .ok bytes ↔
          bytes = [] ∨ ¬ HexText (cleaned (toBase64 bytes)))) ∧
      ∀ text bytes, decodeSignature (.text text) = .ok bytes → ¬ DoublyPrefixed text →
        ∃ format, DetectedAs text format bytes ∧
          encodeSignature bytes format = .text (canonicalText format text) := by
  refine ⟨fun _ => rfl, fun bytes => ?_, fun bytes single => ?_,
    fun text bytes decoded single => ?_⟩
  · exact (decodeSignature_eq_ok_iff _ bytes).mpr ⟨.hex, tryHex_toHex bytes⟩
  · have asText : encodeSignature bytes .base64 = .text (toBase64 bytes) := rfl
    rw [asText, decodeSignature_eq_ok_iff]
    by_cases hex : HexText (cleaned (toBase64 bytes))
    · have tried := tryHex_of_hexText single hex
      constructor
      · rintro ⟨format, detected⟩
        cases format with
        | hex =>
          refine .inl (by_contra fun filled => ?_)
          exact bytesOfPairs_toBase64_ne filled hex (Option.some.inj (tried.symm.trans detected))
        | base64 => cases tried.symm.trans detected.1
        | raw => exact detected.elim
      · rintro (rfl | other)
        · exact ⟨.hex, rfl⟩
        · exact absurd hex other
    · exact ⟨fun _ => .inr hex, fun _ =>
        ⟨.base64, tryHex_of_not_hexText single hex, tryBase64_toBase64 bytes⟩⟩
  · obtain ⟨format, detected⟩ := (decodeSignature_eq_ok_iff text bytes).mp decoded
    exact ⟨format, detected, encodeSignature_of_detectedAs single detected⟩

end Ancore.Crypto
