import Ancore.Soroban.Value

/-! # Strkeys

The text form of an address: a version byte, the 32 bytes of the key or contract
id and a CRC-16 of both, written in base32 without padding.
-/

namespace Ancore.Soroban

/-! ## CRC-16/XMODEM -/

def crcShift (crc : UInt16) : UInt16 :=
  if crc &&& 0x8000 = 0 then crc <<< 1 else (crc <<< 1) ^^^ 0x1021

def crcByte (crc : UInt16) (byte : UInt8) : UInt16 :=
  crcShift^[8] (crc ^^^ (byte.toUInt16 <<< (8 : UInt16)))

def crc16 (data : Bytes) : UInt16 := data.foldl crcByte 0

/-! ## Base32 -/

def base32Alphabet : List Char :=
  ['A', 'B', 'C', 'D', 'E', 'F', 'G', 'H', 'I', 'J', 'K', 'L', 'M', 'N', 'O', 'P', 'Q', 'R', 'S',
   'T', 'U', 'V', 'W', 'X', 'Y', 'Z', '2', '3', '4', '5', '6', '7']

/-- The bits of a byte string, the most significant bit of each byte first. -/
def bits (data : Bytes) : List Bool :=
  data.flatMap fun byte => [7, 6, 5, 4, 3, 2, 1, 0].map fun position => byte.toNat.testBit position

def base32Char (group : List Bool) : Char :=
  base32Alphabet.getD (group.foldl (fun value bit => 2 * value + bit.toNat) 0) 'A'

/-- Five bits to a character; a shorter last group is filled with zeros. -/
def base32Groups : List Bool → List Char
  | a :: b :: c :: d :: e :: rest => base32Char [a, b, c, d, e] :: base32Groups rest
  | [] => []
  | short => [base32Char (short ++ List.replicate (5 - short.length) false)]

def base32 (data : Bytes) : List Char := base32Groups (bits data)

/-! ## Addresses -/

def strkey (version : UInt8) (payload : Bytes) : List Char :=
  let crc := crc16 (version :: payload)
  base32 (version :: payload ++ [crc.toUInt8, (crc >>> 8).toUInt8])

/-- `Address::to_string`: account addresses start with `G`, contract addresses with `C`. -/
def Address.toStrkey : Address → List Char
  | .account key => strkey ((6 : UInt8) <<< 3) key.val
  | .contract id => strkey ((2 : UInt8) <<< 3) id.val

theorem bits_length (data : Bytes) : (bits data).length = 8 * data.length := by
  induction data with
  | nil => rfl
  | cons byte data inductionHypothesis =>
    simp only [bits, List.flatMap_cons, List.length_append, List.length_map, List.length_cons,
      List.length_nil] at inductionHypothesis ⊢
    omega

theorem base32Groups_length (input : List Bool) :
    (base32Groups input).length = (input.length + 4) / 5 := by
  induction input using base32Groups.induct with
  | case1 a b c d e rest inductionHypothesis =>
    simp only [base32Groups, List.length_cons, inductionHypothesis]
    omega
  | case2 => rfl
  | case3 short long nonempty =>
    match short with
    | [] => exact absurd rfl nonempty
    -- Only a rest of one to four bits is left to the last equation.
    | [_] | [_, _] | [_, _, _] | [_, _, _, _] => simp [base32Groups]
    | a :: b :: c :: d :: e :: rest => exact absurd rfl (long a b c d e rest)

/-- Every strkey of an address has 56 characters. -/
theorem Address.toStrkey_length (address : Address) : address.toStrkey.length = 56 := by
  cases address with
  | account key =>
    simp [toStrkey, strkey, base32, base32Groups_length, bits_length, key.property]
  | contract id =>
    simp [toStrkey, strkey, base32, base32Groups_length, bits_length, id.property]

end Ancore.Soroban
