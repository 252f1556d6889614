import Ancore.Library.FixedWidth
import Ancore.Library.SelfDelimiting

/-! # Soroban values and their XDR encoding

The values a contract is called with (`Val`), the addresses and symbols among
them, and the XDR bytes `to_xdr` turns them into.  A value is encoded as its
four-byte type tag followed by its body; strings, vectors and maps carry their
length.  The encoding delimits every value (`Val.delimits`), so a sequence of
encoded values determines each of them.
-/

namespace Ancore.Soroban

open Ancore.Library

abbrev Bytes := List UInt8

/-- `BytesN<n>` -/
abbrev BytesN (n : Nat) := { bytes : Bytes // bytes.length = n }

/-- 32 times the same byte. -/
def repeatedByte (byte : UInt8) : BytesN 32 := ⟨List.replicate 32 byte, rfl⟩

/-- 32 zero bytes. -/
def zeroBytes : BytesN 32 := repeatedByte 0

inductive Address where
  | account (key : BytesN 32)
  | contract (id : BytesN 32)
deriving DecidableEq

def isSymbolChar (c : Char) : Bool := c.isAlphanum || c == '_'

/-- At most 32 characters among letters, digits and the underscore. -/
structure Symbol where
  name : List Char
  short : name.length ≤ 32
  wellFormed : ∀ c ∈ name, isSymbolChar c = true
deriving DecidableEq

inductive Val where
  | bool (value : Bool)
  | void
  | error (kind code : UInt32)
  | u32 (value : UInt32)
  | i32 (value : BitVec 32)
  | u64 (value : UInt64)
  | i64 (value : BitVec 64)
  | timepoint (value : UInt64)
  | duration (value : UInt64)
  | u128 (value : BitVec 128)
  | i128 (value : Int128)
  | u256 (value : BitVec 256)
  | i256 (value : BitVec 256)
  | bytes (value : Bytes)
  | string (value : Bytes)
  | symbol (value : Symbol)
  | vec (items : List Val)
  | map (entries : List (Val × Val))
  | address (value : Address)

/-! ## Encoding -/

/-- The `SCValType` of a value. -/
def Val.tag : Val → Nat
  | .bool _ => 0
  | .void => 1
  | .error _ _ => 2
  | .u32 _ => 3
  | .i32 _ => 4
  | .u64 _ => 5
  | .i64 _ => 6
  | .timepoint _ => 7
  | .duration _ => 8
  | .u128 _ => 9
  | .i128 _ => 10
  | .u256 _ => 11
  | .i256 _ => 12
  | .bytes _ => 13
  | .string _ => 14
  | .symbol _ => 15
  | .vec _ => 16
  | .map _ => 17
  | .address _ => 18

/-- Variable-length data: the length, the bytes, zeros up to a multiple of four. -/
def encodeOpaque (data : Bytes) : Option Bytes :=
  if data.length < 256 ^ 4 then
    some (bigEndian 4 data.length ++ (data ++ List.replicate ((4 - data.length % 4) % 4) 0))
  else none

def encodeAddress : Address → Bytes
  | .account key => bigEndian 4 0 ++ (bigEndian 4 0 ++ key.val)
  | .contract id => bigEndian 4 1 ++ id.val

def Symbol.bytes (symbol : Symbol) : Bytes := symbol.name.map fun c => UInt8.ofNat c.toNat

/-- The two's complement of a signed 128-bit integer. -/
def twosComplement (value : Int128) : Nat := (value.val % 2 ^ 128).toNat

mutual
/-- The encoding after the type tag; `none` when a length does not fit 32 bits. -/
def Val.encodeBody : Val → Option Bytes
  | .bool value => some (bigEndian 4 value.toNat)
  | .void => some []
  | .error kind code => some (bigEndian 4 kind.toNat ++ bigEndian 4 code.toNat)
  | .u32 value => some (bigEndian 4 value.toNat)
  | .i32 value => some (bigEndian 4 value.toNat)
  | .u64 value => some (bigEndian 8 value.toNat)
  | .i64 value => some (bigEndian 8 value.toNat)
  | .timepoint value => some (bigEndian 8 value.toNat)
  | .duration value => some (bigEndian 8 value.toNat)
  | .u128 value => some (bigEndian 16 value.toNat)
  | .i128 value => some (bigEndian 16 (twosComplement value))
  | .u256 value => some (bigEndian 32 value.toNat)
  | .i256 value => some (bigEndian 32 value.toNat)
  | .bytes value => encodeOpaque value
  | .string value => encodeOpaque value
  | .symbol value => encodeOpaque value.bytes
  | .vec items => do
    -- vectors and maps are optional in XDR: the leading 1 says that one is present
    let body ← encodeItems items
    if items.length < 256 ^ 4 then
      some (bigEndian 4 1 ++ (bigEndian 4 items.length ++ body))
    else none
  | .map entries => do
    let body ← encodeEntries entries
    if entries.length < 256 ^ 4 then
      some (bigEndian 4 1 ++ (bigEndian 4 entries.length ++ body))
    else none
  | .address value => some (encodeAddress value)

def encodeItems : List Val → Option Bytes
  | [] => some []
  | item :: items => do
    let head ← item.encodeBody
    let tail ← encodeItems items
    some (bigEndian 4 item.tag ++ head ++ tail)

def encodeEntry : Val × Val → Option Bytes
  | (key, value) => do
    let first ← key.encodeBody
    let second ← value.encodeBody
    some (bigEndian 4 key.tag ++ first ++ (bigEndian 4 value.tag ++ second))

def encodeEntries : List (Val × Val) → Option Bytes
  | [] => some []
  | entry :: entries => do
    let head ← encodeEntry entry
    let tail ← encodeEntries entries
    some (head ++ tail)
end

/-- `to_xdr` -/
def Val.toXdr (value : Val) : Option Bytes :=
  value.encodeBody.map (bigEndian 4 value.tag ++ ·)

/-! ## Encoded values are delimited -/

theorem Val.tag_lt (value : Val) : value.tag < 256 ^ 4 := by
  cases value <;> simp [Val.tag]

theorem Val.toXdr_eq_some {value : Val} {word : Bytes} :
    value.toXdr = some word ↔
      ∃ body, value.encodeBody = some body ∧ word = bigEndian 4 value.tag ++ body := by
  simp [Val.toXdr, eq_comm]

theorem encodeItems_eq (items : List Val) : encodeItems items = encodeAll Val.toXdr items := by
  induction items with
  | nil => rfl
  | cons item items inductionHypothesis =>
    simp only [encodeItems, encodeAll, inductionHypothesis, Val.toXdr]
    cases item.encodeBody <;> rfl

theorem encodeEntries_eq (entries : List (Val × Val)) :
    encodeEntries entries = encodeAll (encodePair Val.toXdr Val.toXdr) entries := by
  induction entries with
  | nil => rfl
  | cons entry entries inductionHypothesis =>
    obtain ⟨key, value⟩ := entry
    simp only [encodeEntries, encodeEntry, encodeAll, encodePair, inductionHypothesis, Val.toXdr]
    cases key.encodeBody <;> cases value.encodeBody <;> rfl

theorem encodeOpaque_append_inj {data data' first second rest rest' : Bytes}
    (encoded : encodeOpaque data = some first) (encoded' : encodeOpaque data' = some second)
    (equal : first ++ rest = second ++ rest') : data = data' ∧ rest = rest' := by
  unfold encodeOpaque at encoded encoded'
  split at encoded
  · rename_i bound
    split at encoded'
    · rename_i bound'
      cases encoded
      cases encoded'
      simp only [List.append_assoc] at equal
      -- Equal lengths fix where the data ends, and with it the padding.
      obtain ⟨lengths, equal⟩ := bigEndian_append_inj bound bound' equal
      obtain ⟨rfl, equal⟩ := List.append_inj equal lengths
      exact ⟨rfl, (List.append_inj equal rfl).2⟩
    · cases encoded'
  · cases encoded

theorem encodeAddress_append_inj {address address' : Address} {rest rest' : Bytes}
    (equal : encodeAddress address ++ rest = encodeAddress address' ++ rest') :
    address = address' ∧ rest = rest' := by
  have payload {key key' : BytesN 32} (same : key.val ++ rest = key'.val ++ rest') :
      key = key' ∧ rest = rest' := by
    obtain ⟨keys, rests⟩ := List.append_inj same (key.property.trans key'.property.symm)
    exact ⟨Subtype.ext keys, rests⟩
  cases address with
  | account key =>
    cases address' with
    | account key' =>
      simp only [encodeAddress, List.append_assoc, List.append_cancel_left_eq] at equal
      obtain ⟨rfl, rests⟩ := payload equal
      exact ⟨rfl, rests⟩
    | contract id' =>
      simp only [encodeAddress, List.append_assoc] at equal
      -- The discriminants of the two kinds of address differ.
      have kinds := (bigEndian_append_inj (by decide) (by decide) equal).1
      cases kinds
  | contract id =>
    cases address' with
    | account key' =>
      simp only [encodeAddress, List.append_assoc] at equal
      have kinds := (bigEndian_append_inj (by decide) (by decide) equal).1
      cases kinds
    | contract id' =>
      simp only [encodeAddress, List.append_assoc, List.append_cancel_left_eq] at equal
      obtain ⟨rfl, rests⟩ := payload equal
      exact ⟨rfl, rests⟩

theorem isSymbolChar_toNat_lt {c : Char} (symbolic : isSymbolChar c = true) : c.toNat < 256 := by
  simp only [isSymbolChar, Char.isAlphanum, Char.isAlpha, Char.isUpper, Char.isLower, Char.isDigit,
    Bool.or_eq_true, Bool.and_eq_true, decide_eq_true_eq, beq_iff_eq, UInt32.le_iff_toNat_le,
    ge_iff_le] at symbolic
  have value : c.toNat = c.val.toNat := rfl
  have upper : 'Z'.val.toNat = 90 := rfl
  have lower : 'z'.val.toNat = 122 := rfl
  have digit : '9'.val.toNat = 57 := rfl
  obtain (bounds | rfl) := symbolic
  · omega
  · decide

/-- The characters of a symbol are ASCII, so its bytes give them back. -/
theorem Symbol.name_eq (symbol : Symbol) :
    symbol.name = symbol.bytes.map fun byte => Char.ofNat byte.toNat := by
  rw [Symbol.bytes, List.map_map]
  refine (List.map_id _).symm.trans (List.map_congr_left fun c member => ?_)
  have small := isSymbolChar_toNat_lt (symbol.wellFormed c member)
  -- An ASCII character survives the round trip through one byte.
  simp only [id_eq, Function.comp_apply, UInt8.toNat_ofNat_of_lt' small, Char.ofNat_toNat]

theorem Symbol.bytes_inj {symbol symbol' : Symbol} (equal : symbol.bytes = symbol'.bytes) :
    symbol = symbol' := by
  have names : symbol.name = symbol'.name := by rw [symbol.name_eq, symbol'.name_eq, equal]
  cases symbol
  cases symbol'
  cases names
  rfl

theorem twosComplement_lt (value : Int128) : twosComplement value < 256 ^ 16 := by
  simp only [twosComplement]
  omega

theorem twosComplement_inj {value value' : Int128}
    (equal : twosComplement value = twosComplement value') : value = value' := by
  have := value.lower
  have := value.upper
  have := value'.lower
  have := value'.upper
  simp only [twosComplement] at equal
  ext
  omega

/-- A body is delimited once the type tag is known. -/
def Val.BodyDelimits (value : Val) : Prop :=
  ∀ ⦃value' : Val⦄ ⦃first second rest rest' : Bytes⦄, value.tag = value'.tag →
    value.encodeBody = some first → value'.encodeBody = some second →
    first ++ rest = second ++ rest' → value = value' ∧ rest = rest'

theorem Val.BodyDelimits.delimits {value : Val} (body : value.BodyDelimits) :
    Delimits Val.toXdr value := by
  intro value' first second rest rest' encoded encoded' equal
  obtain ⟨word, bodyEncoded, rfl⟩ := toXdr_eq_some.mp encoded
  obtain ⟨word', bodyEncoded', rfl⟩ := toXdr_eq_some.mp encoded'
  rw [List.append_assoc, List.append_assoc] at equal
  -- The tag fixes the constructor, so only the bodies are left to compare.
  obtain ⟨tags, equal⟩ := bigEndian_append_inj value.tag_lt value'.tag_lt equal
  exact body tags bodyEncoded bodyEncoded' equal

theorem encodeBody_vec {items : List Val} {word : Bytes}
    (encoded : (Val.vec items).encodeBody = some word) :
    ∃ body, encodeItems items = some body ∧ items.length < 256 ^ 4 ∧
      word = bigEndian 4 1 ++ (bigEndian 4 items.length ++ body) := by
  simp only [Val.encodeBody, Option.bind_eq_bind, Option.bind_eq_some_iff,
    Option.ite_none_right_eq_some, Option.some.injEq] at encoded
  obtain ⟨body, items, bound, rfl⟩ := encoded
  exact ⟨body, items, bound, rfl⟩

theorem encodeBody_map {entries : List (Val × Val)} {word : Bytes}
    (encoded : (Val.map entries).encodeBody = some word) :
    ∃ body, encodeEntries entries = some body ∧ entries.length < 256 ^ 4 ∧
      word = bigEndian 4 1 ++ (bigEndian 4 entries.length ++ body) := by
  simp only [Val.encodeBody, Option.bind_eq_bind, Option.bind_eq_some_iff,
    Option.ite_none_right_eq_some, Option.some.injEq] at encoded
  obtain ⟨body, entries, bound, rfl⟩ := encoded
  exact ⟨body, entries, bound, rfl⟩

/-- Two bodies of one fixed width hold the same number. -/
theorem word_inj {width number number' : Nat} {first second rest rest' : Bytes}
    (encoded : some (bigEndian width number) = some first)
    (encoded' : some (bigEndian width number') = some second)
    (bound : number < 256 ^ width) (bound' : number' < 256 ^ width)
    (equal : first ++ rest = second ++ rest') : number = number' ∧ rest = rest' := by
  cases encoded
  cases encoded'
  exact bigEndian_append_inj bound bound' equal

mutual
theorem Val.bodyDelimits (value : Val) : value.BodyDelimits := by
  intro value' first second rest rest' tags encoded encoded' equal
  match value with
  | .bool a =>
    cases value' with
    | bool b =>
      obtain ⟨same, rest⟩ := word_inj encoded encoded' (by cases a <;> decide)
        (by cases b <;> decide) equal
      exact ⟨congrArg Val.bool (by cases a <;> cases b <;> first | rfl | cases same), rest⟩
    | _ => cases tags
  | .void =>
    cases value' with
    | void => cases encoded; cases encoded'; exact ⟨rfl, equal⟩
    | _ => cases tags
  | .error kind code =>
    cases value' with
    | error kind' code' =>
      cases encoded
      cases encoded'
      simp only [List.append_assoc] at equal
      obtain ⟨kinds, equal⟩ := bigEndian_append_inj kind.toNat_lt kind'.toNat_lt equal
      obtain ⟨codes, rest⟩ := bigEndian_append_inj code.toNat_lt code'.toNat_lt equal
      rw [UInt32.toNat_inj.mp kinds, UInt32.toNat_inj.mp codes]
      exact ⟨rfl, rest⟩
    | _ => cases tags
  | .u32 a =>
    cases value' with
    | u32 b =>
      obtain ⟨same, rest⟩ := word_inj encoded encoded' a.toNat_lt b.toNat_lt equal
      exact ⟨congrArg Val.u32 (UInt32.toNat_inj.mp same), rest⟩
    | _ => cases tags
  | .i32 a =>
    cases value' with
    | i32 b =>
      obtain ⟨same, rest⟩ := word_inj encoded encoded' a.isLt b.isLt equal
      exact ⟨congrArg Val.i32 (BitVec.eq_of_toNat_eq same), rest⟩
    | _ => cases tags
  | .u64 a =>
    cases value' with
    | u64 b =>
      obtain ⟨same, rest⟩ := word_inj encoded encoded' a.toNat_lt b.toNat_lt equal
      exact ⟨congrArg Val.u64 (UInt64.toNat_inj.mp same), rest⟩
    | _ => cases tags
  | .i64 a =>
    cases value' with
    | i64 b =>
      obtain ⟨same, rest⟩ := word_inj encoded encoded' a.isLt b.isLt equal
      exact ⟨congrArg Val.i64 (BitVec.eq_of_toNat_eq same), rest⟩
    | _ => cases tags
  | .timepoint a =>
    cases value' with
    | timepoint b =>
      obtain ⟨same, rest⟩ := word_inj encoded encoded' a.toNat_lt b.toNat_lt equal
      exact ⟨congrArg Val.timepoint (UInt64.toNat_inj.mp same), rest⟩
    | _ => cases tags
  | .duration a =>
    cases value' with
    | duration b =>
      obtain ⟨same, rest⟩ := word_inj encoded encoded' a.toNat_lt b.toNat_lt equal
      exact ⟨congrArg Val.duration (UInt64.toNat_inj.mp same), rest⟩
    | _ => cases tags
  | .u128 a =>
    cases value' with
    | u128 b =>
      obtain ⟨same, rest⟩ := word_inj encoded encoded' a.isLt b.isLt equal
      exact ⟨congrArg Val.u128 (BitVec.eq_of_toNat_eq same), rest⟩
    | _ => cases tags
  | .i128 a =>
    cases value' with
    | i128 b =>
      obtain ⟨same, rest⟩ := word_inj encoded encoded' (twosComplement_lt a)
        (twosComplement_lt b) equal
      exact ⟨congrArg Val.i128 (twosComplement_inj same), rest⟩
    | _ => cases tags
  | .u256 a =>
    cases value' with
    | u256 b =>
      obtain ⟨same, rest⟩ := word_inj encoded encoded' a.isLt b.isLt equal
      exact ⟨congrArg Val.u256 (BitVec.eq_of_toNat_eq same), rest⟩
    | _ => cases tags
  | .i256 a =>
    cases value' with
    | i256 b =>
      obtain ⟨same, rest⟩ := word_inj encoded encoded' a.isLt b.isLt equal
      exact ⟨congrArg Val.i256 (BitVec.eq_of_toNat_eq same), rest⟩
    | _ => cases tags
  | .bytes a =>
    cases value' with
    | bytes b =>
      obtain ⟨same, rest⟩ := encodeOpaque_append_inj encoded encoded' equal
      exact ⟨congrArg Val.bytes same, rest⟩
    | _ => cases tags
  | .string a =>
    cases value' with
    | string b =>
      obtain ⟨same, rest⟩ := encodeOpaque_append_inj encoded encoded' equal
      exact ⟨congrArg Val.string same, rest⟩
    | _ => cases tags
  | .symbol a =>
    cases value' with
    | symbol b =>
      obtain ⟨same, rest⟩ := encodeOpaque_append_inj encoded encoded' equal
      exact ⟨congrArg Val.symbol (Symbol.bytes_inj same), rest⟩
    | _ => cases tags
  | .vec items =>
    cases value' with
    | vec items' =>
      obtain ⟨body, encodedItems, bound, rfl⟩ := encodeBody_vec encoded
      obtain ⟨body', encodedItems', bound', rfl⟩ := encodeBody_vec encoded'
      simp only [List.append_assoc, List.append_cancel_left_eq] at equal
      obtain ⟨lengths, equal⟩ := bigEndian_append_inj bound bound' equal
      rw [encodeItems_eq] at encodedItems encodedItems'
      obtain ⟨same, rest⟩ := encodeAll_inj (Val.items_delimits items) lengths
        encodedItems encodedItems' equal
      exact ⟨congrArg Val.vec same, rest⟩
    | _ => cases tags
  | .map entries =>
    cases value' with
    | map entries' =>
      obtain ⟨body, encodedEntries, bound, rfl⟩ := encodeBody_map encoded
      obtain ⟨body', encodedEntries', bound', rfl⟩ := encodeBody_map encoded'
      simp only [List.append_assoc, List.append_cancel_left_eq] at equal
      obtain ⟨lengths, equal⟩ := bigEndian_append_inj bound bound' equal
      rw [encodeEntries_eq] at encodedEntries encodedEntries'
      obtain ⟨same, rest⟩ := encodeAll_inj (Val.entries_delimit entries) lengths
        encodedEntries encodedEntries' equal
      exact ⟨congrArg Val.map same, rest⟩
    | _ => cases tags
  | .address a =>
    cases value' with
    | address b =>
      cases encoded
      cases encoded'
      obtain ⟨same, rest⟩ := encodeAddress_append_inj equal
      exact ⟨congrArg Val.address same, rest⟩
    | _ => cases tags

theorem Val.items_delimits : (items : List Val) → ∀ item ∈ items, Delimits Val.toXdr item
  | [], _, member => nomatch member
  | item :: items, other, member => by
    cases member with
    | head => exact (Val.bodyDelimits item).delimits
    | tail _ member => exact Val.items_delimits items other member

theorem Val.entry_delimits : (entry : Val × Val) → Delimits (encodePair Val.toXdr Val.toXdr) entry
  | (key, value) => (Val.bodyDelimits key).delimits.pair (Val.bodyDelimits value).delimits

theorem Val.entries_delimit : (entries : List (Val × Val)) →
    ∀ entry ∈ entries, Delimits (encodePair Val.toXdr Val.toXdr) entry
  | [], _, member => nomatch member
  | entry :: entries, other, member => by
    cases member with
    | head => exact Val.entry_delimits entry
    | tail _ member => exact Val.entries_delimit entries other member
end

/-- The XDR encoding of a value in front of a stream determines the value. -/
theorem Val.delimits (value : Val) : Delimits Val.toXdr value := value.bodyDelimits.delimits

end Ancore.Soroban
