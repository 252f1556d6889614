import Ancore.Payouts.Csv

/-! # Public keys of payouts

`isValidEd25519PublicKey` decodes base32 with shifts of a buffer of 32 bits.  It accepts exactly the
strkeys of keys of 32 bytes (`isValidEd25519PublicKey_iff`).
-/

namespace Ancore.Payouts

open Ancore.Library Ancore.Soroban

/-! ## Bits -/

section Bits

/-- The low bits of a number, the most significant one first. -/
def lowBits (number count : ℕ) : List Bool := (List.range count).reverse.map number.testBit

@[simp] theorem length_lowBits (number count : ℕ) : (lowBits number count).length = count := by
  simp [lowBits]

theorem lowBits_add (number low high : ℕ) :
    lowBits number (low + high) = lowBits (number >>> low) high ++ lowBits number low := by
  simp [lowBits, List.range_add, Function.comp_def, List.map_reverse]

theorem lowBits_congr {number number' count : ℕ}
    (same : ∀ place < count, number.testBit place = number'.testBit place) :
    lowBits number count = lowBits number' count := by
  refine List.map_congr_left fun place member => same place ?_
  simpa using member

theorem bits_cons (byte : UInt8) (data : Bytes) :
    bits (byte :: data) = lowBits byte.toNat 8 ++ bits data := rfl

theorem testBit_of_lowBits {number number' count : ℕ}
    (same : lowBits number count = lowBits number' count) {place : ℕ} (low : place < count) :
    number.testBit place = number'.testBit place := by
  have members := (List.map_inj_left.mp same) place
  exact members (by simpa using low)

theorem bits_injective : Function.Injective bits := by
  intro data
  induction data with
  | nil =>
    intro data' same
    have lengths := congrArg List.length same
    rw [bits_length, bits_length] at lengths
    exact (List.length_eq_zero_iff.mp (by simpa using lengths.symm)).symm
  | cons byte data ih =>
    intro data' same
    cases data' with
    | nil =>
      have lengths := congrArg List.length same
      rw [bits_length, bits_length] at lengths
      simp at lengths
    | cons byte' data' =>
      rw [bits_cons, bits_cons] at same
      obtain ⟨first, rest⟩ := List.append_inj same (by simp)
      have equal : byte = byte' := by
        refine UInt8.toNat_inj.mp (Nat.eq_of_testBit_eq fun place => ?_)
        by_cases low : place < 8
        · exact testBit_of_lowBits first low
        · have high (byte : UInt8) : byte.toNat.testBit place = false :=
            Nat.testBit_lt_two_pow (byte.toNat_lt.trans_le
              (Nat.pow_le_pow_right (by decide) (Nat.not_lt.mp low)))
          rw [high, high]
      rw [equal, ih rest]

end Bits

/-! ## Base32 -/

section Base32

/-- The letter of a digit. -/
def base32Letter (digit : ℕ) : Char := base32Alphabet.getD digit 'A'

theorem idxOf?_base32Letter : ∀ digit < 32,
    base32Alphabet.idxOf? (base32Letter digit) = some digit := by
  decide

theorem base32Char_lowBits : ∀ digit < 32, base32Char (lowBits digit 5) = base32Letter digit := by
  decide

theorem exists_digit_of_mem {letter : Char} (member : letter ∈ base32Alphabet) :
    ∃ digit < 32, base32Letter digit = letter := by
  obtain ⟨digit, small, rfl⟩ := List.getElem_of_mem member
  exact ⟨digit, small, List.getD_eq_getElem _ _ small⟩

theorem exists_digit_of_bits :
    ∀ a b c d e : Bool, ∃ digit < 32, lowBits digit 5 = [a, b, c, d, e] := by
  decide

theorem exists_digits_of_letters {letters : List Char}
    (members : ∀ letter ∈ letters, letter ∈ base32Alphabet) :
    ∃ digits : List ℕ, (∀ digit ∈ digits, digit < 32) ∧ letters = digits.map base32Letter := by
  induction letters with
  | nil => exact ⟨[], List.forall_mem_nil _, rfl⟩
  | cons letter letters ih =>
    obtain ⟨first, rest⟩ := List.forall_mem_cons.mp members
    obtain ⟨digit, small, rfl⟩ := exists_digit_of_mem first
    obtain ⟨digits, others, rfl⟩ := ih rest
    exact ⟨digit :: digits, List.forall_mem_cons.mpr ⟨small, others⟩, rfl⟩

theorem exists_digits_of_bits {input : List Bool} {count : ℕ} (whole : input.length = 5 * count) :
    ∃ digits : List ℕ, (∀ digit ∈ digits, digit < 32) ∧
      input = digits.flatMap fun digit => lowBits digit 5 := by
  induction count generalizing input with
  | zero =>
    rw [List.length_eq_zero_iff.mp whole]
    exact ⟨[], List.forall_mem_nil _, rfl⟩
  | succ count ih =>
    match input with
    | a :: b :: c :: d :: e :: rest =>
      obtain ⟨digit, small, same⟩ := exists_digit_of_bits a b c d e
      obtain ⟨digits, others, split⟩ := @ih rest (by simp at whole; omega)
      exact ⟨digit :: digits, List.forall_mem_cons.mpr ⟨small, others⟩,
        by rw [List.flatMap_cons, same, split]; rfl⟩
    | [] | [_] | [_, _] | [_, _, _] | [_, _, _, _] =>
      simp only [List.length_cons, List.length_nil] at whole
      omega

theorem base32Groups_lowBits {digits : List ℕ} (small : ∀ digit ∈ digits, digit < 32) :
    base32Groups (digits.flatMap fun digit => lowBits digit 5) = digits.map base32Letter := by
  induction digits with
  | nil => rfl
  | cons digit digits ih =>
    obtain ⟨first, rest⟩ := List.forall_mem_cons.mp small
    rw [List.flatMap_cons, List.map_cons, ← base32Char_lowBits digit first, ← ih rest]
    rfl

theorem mapM_base32Letter {digits : List ℕ} (small : ∀ digit ∈ digits, digit < 32) :
    (digits.map base32Letter).mapM (fun letter => base32Alphabet.idxOf? letter) =
      some digits := by
  induction digits with
  | nil => rfl
  | cons digit digits ih =>
    obtain ⟨first, rest⟩ := List.forall_mem_cons.mp small
    rw [List.map_cons, List.mapM_cons, idxOf?_base32Letter digit first, ih rest]
    rfl

end Base32

/-! ## The decoder -/

section Decoder

/-- A digit more in the buffer. -/
theorem testBit_buffer (buffer : UInt32) {digit place : ℕ} (small : digit < 32)
    (low : place < 32) :
    ((buffer <<< 5) ||| UInt32.ofNat digit).toNat.testBit place =
      if place < 5 then digit.testBit place else buffer.toNat.testBit (place - 5) := by
  have inside : digit % 2 ^ 32 = digit := Nat.mod_eq_of_lt (by omega)
  rw [UInt32.toNat_or, UInt32.toNat_shiftLeft, UInt32.toNat_ofNat', inside, Nat.testBit_or,
    Nat.testBit_mod_two_pow]
  simp only [low, decide_true, Bool.true_and]
  rw [Nat.testBit_shiftLeft]
  split_ifs with short
  · simp [show ¬ 5 ≤ place by omega]
  · have high : digit.testBit place = false := Nat.testBit_lt_two_pow
      (small.trans_le (Nat.pow_le_pow_right (Nat.two_pos) (Nat.not_lt.mp short)))
    simp [high, Nat.not_lt.mp short]

theorem lowBits_buffer (buffer : UInt32) {digit count : ℕ} (small : digit < 32)
    (short : count < 8) :
    lowBits ((buffer <<< 5) ||| UInt32.ofNat digit).toNat (count + 5) =
      lowBits buffer.toNat count ++ lowBits digit 5 := by
  rw [Nat.add_comm, lowBits_add]
  congr 1
  · refine lowBits_congr fun place bound => ?_
    rw [Nat.testBit_shiftRight, testBit_buffer buffer small (by omega), if_neg (by omega),
      Nat.add_sub_cancel_left]
  · refine lowBits_congr fun place bound => ?_
    rw [testBit_buffer buffer small (by omega), if_pos bound]

/-- What the loop makes of its buffer and the digits: their bits, up to a last part that fills no
byte. -/
theorem bits_decodeDigits {digits : List ℕ} (small : ∀ digit ∈ digits, digit < 32)
    (buffer : UInt32) {count : ℕ} (short : count < 8) :
    ∃ rest, rest.length < 8 ∧
      lowBits buffer.toNat count ++ digits.flatMap (fun digit => lowBits digit 5) =
        bits (decodeDigits digits buffer count) ++ rest := by
  induction digits generalizing buffer count with
  | nil => exact ⟨lowBits buffer.toNat count, by simpa using short, by simp [decodeDigits, bits]⟩
  | cons digit digits ih =>
    obtain ⟨first, others⟩ := List.forall_mem_cons.mp small
    have shifted := lowBits_buffer buffer first short
    rw [List.flatMap_cons, ← List.append_assoc, ← shifted, decodeDigits]
    generalize (buffer <<< 5) ||| UInt32.ofNat digit = buffer
    split_ifs with full
    · obtain ⟨rest, few, split⟩ := @ih others buffer (count + 5 - 8) (by omega)
      refine ⟨rest, few, ?_⟩
      have counts : count + 5 = (count + 5 - 8) + 8 := by omega
      have byte : lowBits (buffer >>> UInt32.ofNat (count + 5 - 8)).toUInt8.toNat 8 =
          lowBits (buffer.toNat >>> (count + 5 - 8)) 8 := by
        refine lowBits_congr fun place bound => ?_
        have shift : (UInt32.ofNat (count + 5 - 8)).toNat % 32 = count + 5 - 8 := by
          rw [UInt32.toNat_ofNat', Nat.mod_eq_of_lt (by omega : count + 5 - 8 < 2 ^ 32)]
          exact Nat.mod_eq_of_lt (by omega)
        rw [UInt32.toNat_toUInt8, UInt32.toNat_shiftRight, shift, Nat.testBit_mod_two_pow]
        simp only [bound, decide_true, Bool.true_and]
      rw [bits_cons, byte, List.append_assoc, ← split, ← List.append_assoc, ← lowBits_add, ← counts]
    · exact ih others buffer (by omega)

/-- Digits that are the bits of whole bytes are decoded as these bytes. -/
theorem decodeDigits_of_bits {digits : List ℕ} {data : Bytes}
    (small : ∀ digit ∈ digits, digit < 32)
    (same : bits data = digits.flatMap fun digit => lowBits digit 5) :
    decodeDigits digits 0 0 = data := by
  obtain ⟨rest, few, split⟩ := @bits_decodeDigits digits small 0 0 (by decide)
  rw [← same, show lowBits (0 : UInt32).toNat 0 = [] from rfl, List.nil_append] at split
  have lengths := congrArg List.length split
  rw [List.length_append, bits_length, bits_length] at lengths
  have none : rest = [] := List.length_eq_zero_iff.mp (by omega)
  rw [none, List.append_nil] at split
  exact (bits_injective split).symm

theorem decodeBase32_base32 {data : Bytes} {count : ℕ} (whole : 8 * data.length = 5 * count) :
    decodeBase32 (base32 data) = some data := by
  obtain ⟨digits, small, same⟩ :=
    exists_digits_of_bits ((bits_length data).trans whole)
  rw [base32, same, base32Groups_lowBits small, decodeBase32, mapM_base32Letter small,
    Option.map_some, decodeDigits_of_bits small same]

/-- Letters that fill whole bytes are the base32 of what is decoded. -/
theorem base32_of_decodeBase32 {letters : List Char} {count : ℕ}
    (members : ∀ letter ∈ letters, letter ∈ base32Alphabet)
    (whole : 5 * letters.length = 8 * count) :
    ∃ data, decodeBase32 letters = some data ∧ data.length = count ∧ base32 data = letters := by
  obtain ⟨digits, small, rfl⟩ := exists_digits_of_letters members
  obtain ⟨rest, few, split⟩ := @bits_decodeDigits digits small 0 0 (by decide)
  rw [show lowBits (0 : UInt32).toNat 0 = [] from rfl, List.nil_append] at split
  have total : (digits.flatMap fun digit => lowBits digit 5).length = 8 * count := by
    rw [← whole, List.length_map]
    simp [List.length_flatMap, Nat.mul_comm]
  have lengths := congrArg List.length split
  rw [total, List.length_append, bits_length] at lengths
  have none : rest = [] := List.length_eq_zero_iff.mp (by omega)
  rw [none, List.append_nil] at split
  refine ⟨decodeDigits digits 0 0, ?_, by rw [none] at lengths; simp at lengths; omega, ?_⟩
  · rw [decodeBase32, mapM_base32Letter small, Option.map_some]
  · rw [base32, ← split, base32Groups_lowBits small]

end Decoder

/-! ## Checksums -/

section Checksums

theorem testBit_byte {byte : UInt8} {place : ℕ} (high : 8 ≤ place) :
    byte.toNat.testBit place = false :=
  Nat.testBit_lt_two_pow (byte.toNat_lt.trans_le (Nat.pow_le_pow_right (by decide) high))

/-- The bits of two bytes, the low one first. -/
theorem testBit_or_shiftLeft (low high : UInt8) (place : ℕ) :
    (low.toUInt16 ||| (high.toUInt16 <<< 8)).toNat.testBit place =
      if place < 8 then low.toNat.testBit place else high.toNat.testBit (place - 8) := by
  rw [UInt16.toNat_or, UInt16.toNat_shiftLeft, UInt8.toNat_toUInt16, UInt8.toNat_toUInt16,
    show (8 : UInt16).toNat % 16 = 8 from rfl, Nat.testBit_or, Nat.testBit_mod_two_pow,
    Nat.testBit_shiftLeft]
  split_ifs with small
  · simp [show ¬ 8 ≤ place by omega]
  · rw [testBit_byte (Nat.not_lt.mp small)]
    by_cases inside : place < 16
    · simp [inside, Nat.not_lt.mp small]
    · simp [inside, testBit_byte (show 8 ≤ place - 8 by omega)]

theorem toUInt8_or_shiftLeft (low high : UInt8) :
    (low.toUInt16 ||| (high.toUInt16 <<< 8)).toUInt8 = low := by
  refine UInt8.toNat_inj.mp (Nat.eq_of_testBit_eq fun place => ?_)
  rw [UInt16.toNat_toUInt8, Nat.testBit_mod_two_pow, testBit_or_shiftLeft]
  split_ifs with small
  · simp [small]
  · simp [small, testBit_byte (Nat.not_lt.mp small)]

theorem toUInt8_shiftRight_or_shiftLeft (low high : UInt8) :
    ((low.toUInt16 ||| (high.toUInt16 <<< 8)) >>> 8).toUInt8 = high := by
  refine UInt8.toNat_inj.mp (Nat.eq_of_testBit_eq fun place => ?_)
  rw [UInt16.toNat_toUInt8, Nat.testBit_mod_two_pow, UInt16.toNat_shiftRight,
    show (8 : UInt16).toNat % 16 = 8 from rfl, Nat.testBit_shiftRight, testBit_or_shiftLeft,
    if_neg (by omega), Nat.add_sub_cancel_left]
  by_cases small : place < 8
  · simp [small]
  · simp [small, testBit_byte (Nat.not_lt.mp small)]

/-- A checksum is put together from its bytes. -/
theorem toUInt8_or_toUInt8 (crc : UInt16) :
    crc.toUInt8.toUInt16 ||| ((crc >>> 8).toUInt8.toUInt16 <<< 8) = crc := by
  refine UInt16.toNat_inj.mp (Nat.eq_of_testBit_eq fun place => ?_)
  rw [testBit_or_shiftLeft, UInt16.toNat_toUInt8, UInt16.toNat_toUInt8, Nat.testBit_mod_two_pow,
    Nat.testBit_mod_two_pow, UInt16.toNat_shiftRight, show (8 : UInt16).toNat % 16 = 8 from rfl,
    Nat.testBit_shiftRight]
  split_ifs with small
  · simp [small]
  · rw [Nat.add_sub_cancel' (Nat.not_lt.mp small)]
    by_cases inside : place - 8 < 8
    · simp [inside]
    · have high : crc.toNat.testBit place = false := Nat.testBit_lt_two_pow
        (crc.toNat_lt.trans_le (Nat.pow_le_pow_right (by decide) (by omega)))
      simp [high]

end Checksums

/-! ## Keys -/

/-- The text is the strkey of a key of 32 bytes. -/
def IsPublicKey (value : List Char) : Prop :=
  ∃ key : Bytes, key.length = 32 ∧ value = strkey ((6 : UInt8) <<< 3) key

theorem mem_base32Alphabet_of_base32 {data : Bytes} {count : ℕ}
    (whole : 8 * data.length = 5 * count) : ∀ letter ∈ base32 data, letter ∈ base32Alphabet := by
  obtain ⟨digits, small, same⟩ :=
    exists_digits_of_bits ((bits_length data).trans whole)
  rw [base32, same, base32Groups_lowBits small]
  intro letter member
  obtain ⟨digit, isDigit, rfl⟩ := List.mem_map.mp member
  have inside : digit < base32Alphabet.length := small digit isDigit
  rw [base32Letter, List.getD_eq_getElem _ _ inside]
  exact List.getElem_mem inside

/-- The version byte gives the first letter. -/
theorem head?_base32 {key : Bytes} : (base32 (((6 : UInt8) <<< 3) :: key)).head? = some 'G' := by
  rw [base32, bits_cons]
  cases key with
  | nil => rfl
  | cons byte key => rfl

theorem strkey_eq (version : UInt8) (key : Bytes) :
    strkey version key = base32 (version :: (key ++
      [(crc16 (version :: key)).toUInt8, (crc16 (version :: key) >>> 8).toUInt8])) := rfl

/-- Bytes that pass the checks of `isValidEd25519PublicKey`. -/
def IsChecked (data : Bytes) : Prop :=
  data.length = 35 ∧ (data.take 33).head? = some ((6 : UInt8) <<< 3) ∧
    crc16 (data.take 33) =
      (data.getD 33 0).toUInt16 ||| ((data.getD 34 0).toUInt16 <<< 8)

theorem isValidEd25519PublicKey_iff_decode {value : String} :
    isValidEd25519PublicKey value = true ↔
      value.toList.head? = some 'G' ∧ value.toList.length = 56 ∧
        (∀ letter ∈ value.toList, letter ∈ base32Alphabet) ∧
        ∃ data, decodeBase32 value.toList = some data ∧ IsChecked data := by
  have isLetter : 'G' ∈ base32Alphabet := by decide
  unfold isValidEd25519PublicKey
  split
  · rename_i letters spelled
    rw [spelled, List.head?_cons, List.length_cons, List.forall_mem_cons]
    cases decodeBase32 ('G' :: letters) with
    | none => simp
    | some data => simp [IsChecked, isLetter, and_assoc]
  · rename_i other
    refine iff_of_false Bool.false_ne_true fun ⟨head, _⟩ => ?_
    obtain ⟨letters, spelled⟩ := List.head?_eq_some_iff.mp head
    exact other letters spelled

/-- Checked bytes are a version byte, a key and the checksum of both. -/
theorem IsChecked.exists_key {data : Bytes} (checked : IsChecked data) :
    ∃ key : Bytes, key.length = 32 ∧ strkey ((6 : UInt8) <<< 3) key = base32 data := by
  obtain ⟨length, version, sum⟩ := checked
  obtain ⟨key, payload⟩ := List.head?_eq_some_iff.mp version
  have keyLength : key.length = 32 := by
    have taken := congrArg List.length payload
    rw [List.length_take, List.length_cons] at taken
    omega
  have split : data = data.take 33 ++ [data.getD 33 0, data.getD 34 0] := by
    conv_lhs => rw [← List.take_append_drop 33 data]
    congr 1
    rw [List.drop_eq_getElem_cons (by omega), List.drop_eq_getElem_cons (by omega),
      List.drop_eq_nil_of_le (by omega), List.getD_eq_getElem _ _ (by omega),
      List.getD_eq_getElem _ _ (by omega)]
  refine ⟨key, keyLength, ?_⟩
  rw [payload] at sum split
  rw [strkey_eq, sum, toUInt8_or_shiftLeft, toUInt8_shiftRight_or_shiftLeft, ← List.cons_append,
    ← split]

theorem isChecked_of_key {key : Bytes} (length : key.length = 32) :
    IsChecked (((6 : UInt8) <<< 3) :: (key ++ [(crc16 (((6 : UInt8) <<< 3) :: key)).toUInt8,
      (crc16 (((6 : UInt8) <<< 3) :: key) >>> 8).toUInt8])) := by
  generalize sum : crc16 (((6 : UInt8) <<< 3) :: key) = crc
  have payload : (((6 : UInt8) <<< 3) :: (key ++ [crc.toUInt8, (crc >>> 8).toUInt8])).take 33 =
      ((6 : UInt8) <<< 3) :: key := by
    rw [List.take_succ_cons, List.take_left' length]
  refine ⟨by simp [length], by rw [payload, List.head?_cons], ?_⟩
  rw [payload, sum]
  have low : (((6 : UInt8) <<< 3) :: (key ++ [crc.toUInt8, (crc >>> 8).toUInt8])).getD 33 0 =
      crc.toUInt8 := by
    rw [List.getD_cons_succ, List.getD_append_right _ _ _ _ length.le, length]
    rfl
  have high : (((6 : UInt8) <<< 3) :: (key ++ [crc.toUInt8, (crc >>> 8).toUInt8])).getD 34 0 =
      (crc >>> 8).toUInt8 := by
    rw [List.getD_cons_succ, List.getD_append_right _ _ _ _ (by omega), length]
    rfl
  rw [low, high, toUInt8_or_toUInt8]

theorem isValidEd25519PublicKey_iff (value : String) :
    isValidEd25519PublicKey value = true ↔ IsPublicKey value.toList := by
  rw [isValidEd25519PublicKey_iff_decode]
  constructor
  · rintro ⟨-, length, members, data, decoded, checked⟩
    obtain ⟨data', decoded', -, encoded⟩ :=
      @base32_of_decodeBase32 value.toList 35 members (by rw [length])
    have same : data' = data := Option.some.inj (decoded'.symm.trans decoded)
    obtain ⟨key, keyLength, spelled⟩ := checked.exists_key
    exact ⟨key, keyLength, by rw [spelled, ← same, encoded]⟩
  · rintro ⟨key, length, spelled⟩
    rw [strkey_eq] at spelled
    have checked := isChecked_of_key length
    rw [spelled]
    generalize crc16 (((6 : UInt8) <<< 3) :: key) = crc at checked spelled ⊢
    have whole : 8 * (((6 : UInt8) <<< 3) ::
        (key ++ [crc.toUInt8, (crc >>> 8).toUInt8])).length = 5 * 56 := by
      rw [checked.1]
    refine ⟨head?_base32, ?_, mem_base32Alphabet_of_base32 whole, _,
      decodeBase32_base32 whole, checked⟩
    rw [base32, base32Groups_length, bits_length, checked.1]

end Ancore.Payouts
