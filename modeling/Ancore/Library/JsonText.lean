import Ancore.Library.CodeUnits
import Ancore.Library.JsonNumbers

/-! # JSON texts of code units

`JSON.parse` and `JSON.stringify` over strings of UTF-16 code units, lone surrogates among them.
The reader takes a text unit by unit and keeps the open arrays and objects on a stack.  What is
written of a value is read as that value, apart from zero, which loses its sign, and what is no
finite number, which becomes null.
-/

namespace Ancore.Library.EcmaScript

inductive JsonValue where
  | null
  | bool (value : Bool)
  | number (value : JsNumber)
  | string (value : JsString)
  | array (items : List JsonValue)
  | object (members : List (JsString × JsonValue))

/-! ## The properties of an object -/

/-- The number that the key is the canonical text of, where it is an index of an array. -/
def arrayIndex (key : JsString) : Option ℕ :=
  let index := Nat.ofDigitChars 10 (key.map Char.ofNat) 0
  if key = (Nat.toDigits 10 index).map Char.toNat ∧ index < 2 ^ 32 - 1 then some index else none

/-- The order of properties: indices by their numbers, before the other keys. -/
def KeyBefore (key key' : JsString) : Prop :=
  match arrayIndex key, arrayIndex key' with
  | some index, some index' => index ≤ index'
  | some _, none => True
  | none, some _ => False
  | none, none => True

instance : DecidableRel KeyBefore := fun key key' => by
  unfold KeyBefore
  split <;> infer_instance

section Objects

variable {α : Type}

/-- A property of a name that is there gets another value; it keeps its place. -/
def define (members : List (JsString × α)) (entry : JsString × α) : List (JsString × α) :=
  if entry.1 ∈ members.map Prod.fst then
    members.map fun member => if member.1 = entry.1 then entry else member
  else members ++ [entry]

/-- The properties of the object with these entries, in their order. -/
def objectOf (entries : List (JsString × α)) : List (JsString × α) :=
  (entries.foldl define []).insertionSort fun member member' => KeyBefore member.1 member'.1

/-- Names as an object has them. -/
structure PropertyKeys (keys : List JsString) : Prop where
  nodup : keys.Nodup
  ordered : keys.Pairwise KeyBefore

theorem keys_define (members : List (JsString × α)) (entry : JsString × α) :
    (define members entry).map Prod.fst =
      if entry.1 ∈ members.map Prod.fst then members.map Prod.fst
      else members.map Prod.fst ++ [entry.1] := by
  unfold define
  split_ifs with known
  · rw [List.map_map]
    refine List.map_congr_left fun member _ => ?_
    simp only [Function.comp_apply]
    split_ifs with same
    · exact same.symm
    · rfl
  · rw [List.map_append]
    rfl

theorem nodup_define {members : List (JsString × α)} (nodup : (members.map Prod.fst).Nodup)
    (entry : JsString × α) : ((define members entry).map Prod.fst).Nodup := by
  rw [keys_define]
  split_ifs with known
  · exact nodup
  · exact List.nodup_append.mpr ⟨nodup, List.nodup_singleton _, by
      rintro key member key' same rfl
      exact known (List.mem_singleton.mp same ▸ member)⟩

theorem nodup_foldl_define {members : List (JsString × α)} (nodup : (members.map Prod.fst).Nodup)
    (entries : List (JsString × α)) : ((entries.foldl define members).map Prod.fst).Nodup := by
  induction entries generalizing members with
  | nil => exact nodup
  | cons entry entries ih => exact ih (nodup_define nodup entry)

theorem KeyBefore.total (key key' : JsString) : KeyBefore key key' ∨ KeyBefore key' key := by
  unfold KeyBefore
  cases arrayIndex key <;> cases arrayIndex key' <;> simp [Nat.le_total]

theorem KeyBefore.trans {key key' key'' : JsString} (first : KeyBefore key key')
    (second : KeyBefore key' key'') : KeyBefore key key'' := by
  unfold KeyBefore at *
  cases index : arrayIndex key <;> cases index' : arrayIndex key' <;>
    cases index'' : arrayIndex key'' <;> simp_all
  omega

theorem propertyKeys_objectOf (entries : List (JsString × α)) :
    PropertyKeys ((objectOf entries).map Prod.fst) where
  nodup := by
    have perm := List.perm_insertionSort
      (fun member member' : JsString × α => KeyBefore member.1 member'.1) (entries.foldl define [])
    have start : (([] : List (JsString × α)).map Prod.fst).Nodup := List.nodup_nil
    exact (perm.map Prod.fst).nodup_iff.mpr (nodup_foldl_define start entries)
  ordered := by
    have : Std.Total fun member member' : JsString × α => KeyBefore member.1 member'.1 :=
      ⟨fun _ _ => KeyBefore.total _ _⟩
    have : IsTrans (JsString × α) fun member member' => KeyBefore member.1 member'.1 :=
      ⟨fun _ _ _ => KeyBefore.trans⟩
    exact List.pairwise_map.mpr (List.pairwise_insertionSort _ _)

theorem foldl_define_eq {members entries : List (JsString × α)}
    (nodup : ((members ++ entries).map Prod.fst).Nodup) :
    entries.foldl define members = members ++ entries := by
  induction entries generalizing members with
  | nil => simp
  | cons entry entries ih =>
    have fresh : entry.1 ∉ members.map Prod.fst := by
      rw [List.map_append, List.map_cons] at nodup
      intro member
      exact (List.disjoint_of_nodup_append nodup) member List.mem_cons_self
    have split : members ++ entry :: entries = members ++ [entry] ++ entries := by simp
    rw [split] at nodup ⊢
    rw [List.foldl_cons, define, if_neg fresh]
    exact ih nodup

/-- Properties that an object has are those of the object with them as entries. -/
theorem objectOf_eq_self {members : List (JsString × α)}
    (keys : PropertyKeys (members.map Prod.fst)) : objectOf members = members := by
  have collected : members.foldl define [] = members := foldl_define_eq keys.nodup
  rw [objectOf, collected]
  exact (List.pairwise_map.mp keys.ordered).insertionSort_eq

theorem mem_of_mem_foldl_define {members entries : List (JsString × α)} {entry : JsString × α}
    (member : entry ∈ entries.foldl define members) : entry ∈ members ∨ entry ∈ entries := by
  induction entries generalizing members with
  | nil => exact .inl member
  | cons first entries ih =>
    rcases ih member with defined | later
    · unfold define at defined
      split_ifs at defined with known
      · obtain ⟨old, oldMember, same⟩ := List.mem_map.mp defined
        split_ifs at same
        · exact .inr (same ▸ List.mem_cons_self)
        · exact .inl (same ▸ oldMember)
      · rcases List.mem_append.mp defined with old | new
        · exact .inl old
        · exact .inr (List.mem_singleton.mp new ▸ List.mem_cons_self)
    · exact .inr (List.mem_cons_of_mem _ later)

/-- Every property of an object comes from an entry. -/
theorem mem_of_mem_objectOf {entries : List (JsString × α)} {entry : JsString × α}
    (member : entry ∈ objectOf entries) : entry ∈ entries := by
  have collected := (List.mem_insertionSort _).mp member
  exact (mem_of_mem_foldl_define collected).resolve_left (List.not_mem_nil)

end Objects

/-! ## Reading -/

/-- White space of JSON, which is less than that of ECMAScript. -/
def isJsonSpace (unit : ℕ) : Bool := unit ∈ [0x20, 0x9, 0xA, 0xD]

/-- What numbers and the three words are made of. -/
def isAtomUnit (unit : ℕ) : Bool :=
  (0x30 ≤ unit && unit ≤ 0x39) || (0x41 ≤ unit && unit ≤ 0x5A) || (0x61 ≤ unit && unit ≤ 0x7A) ||
    unit ∈ [0x2B, 0x2D, 0x2E]

def atomValue (letters : JsString) : Option JsonValue :=
  if letters = ascii "null" then some .null
  else if letters = ascii "true" then some (.bool true)
  else if letters = ascii "false" then some (.bool false)
  else (numberOf (letters.map Char.ofNat)).map .number

/-- The unit that a letter behind a backslash stands for. -/
def escapedUnit (letter : ℕ) : Option ℕ :=
  if letter ∈ [0x22, 0x5C, 0x2F] then some letter
  else if letter = 0x62 then some 0x8
  else if letter = 0x66 then some 0xC
  else if letter = 0x6E then some 0xA
  else if letter = 0x72 then some 0xD
  else if letter = 0x74 then some 0x9
  else none

def hexValue (unit : ℕ) : Option ℕ :=
  if 0x30 ≤ unit ∧ unit ≤ 0x39 then some (unit - 0x30)
  else if 0x41 ≤ unit ∧ unit ≤ 0x46 then some (unit - 0x41 + 10)
  else if 0x61 ≤ unit ∧ unit ≤ 0x66 then some (unit - 0x61 + 10)
  else none

/-- An open array with its items so far, or an open object with its entries so far and the key
whose value is read. -/
inductive Frame where
  | array (items : List JsonValue)
  | object (entries : List (JsString × JsonValue)) (key : JsString)

/-- What a string is read for: as a value, or as the next key of an object. -/
inductive Purpose where
  | value
  | key (entries : List (JsString × JsonValue))

/-- Where the reader is. -/
inductive Place where
  | value
  | firstItem
  | firstKey
  | nextKey (entries : List (JsString × JsonValue))
  | colon (entries : List (JsString × JsonValue)) (key : JsString)
  | after (value : JsonValue)
  | atom (letters : JsString)
  | string (purpose : Purpose) (letters : JsString)
  | escape (purpose : Purpose) (letters : JsString)
  | hexadecimal (purpose : Purpose) (letters : JsString) (digits : List ℕ)

structure Reader where
  place : Place
  frames : List Frame

def Reader.beginValue (frames : List Frame) (unit : ℕ) : Option Reader :=
  if isJsonSpace unit then some ⟨.value, frames⟩
  else if unit = 0x22 then some ⟨.string .value [], frames⟩
  else if unit = 0x5B then some ⟨.firstItem, frames⟩
  else if unit = 0x7B then some ⟨.firstKey, frames⟩
  else if isAtomUnit unit then some ⟨.atom [unit], frames⟩
  else none

def Reader.beginKey (entries : List (JsString × JsonValue)) (frames : List Frame) (unit : ℕ) :
    Option Reader :=
  if isJsonSpace unit then some ⟨.nextKey entries, frames⟩
  else if unit = 0x22 then some ⟨.string (.key entries) [], frames⟩
  else none

/-- What stands behind a value. -/
def Reader.behindValue (value : JsonValue) : List Frame → ℕ → Option Reader
  | frames, unit =>
    if isJsonSpace unit then some ⟨.after value, frames⟩
    else
      match frames with
      | [] => none
      | .array items :: frames =>
        if unit = 0x2C then some ⟨.value, .array (items ++ [value]) :: frames⟩
        else if unit = 0x5D then some ⟨.after (.array (items ++ [value])), frames⟩
        else none
      | .object entries key :: frames =>
        if unit = 0x2C then some ⟨.nextKey (entries ++ [(key, value)]), frames⟩
        else if unit = 0x7D then
          some ⟨.after (.object (objectOf (entries ++ [(key, value)]))), frames⟩
        else none

/-- The place behind a string. -/
def Purpose.place (letters : JsString) : Purpose → Place
  | value => .after (.string letters)
  | key entries => .colon entries letters

def Reader.step (reader : Reader) (unit : ℕ) : Option Reader :=
  match reader.place with
  | .value => beginValue reader.frames unit
  | .firstItem =>
    if isJsonSpace unit then some reader
    else if unit = 0x5D then some ⟨.after (.array []), reader.frames⟩
    else beginValue (.array [] :: reader.frames) unit
  | .firstKey =>
    if isJsonSpace unit then some reader
    else if unit = 0x7D then some ⟨.after (.object []), reader.frames⟩
    else beginKey [] reader.frames unit
  | .nextKey entries => beginKey entries reader.frames unit
  | .colon entries key =>
    if isJsonSpace unit then some reader
    else if unit = 0x3A then some ⟨.value, .object entries key :: reader.frames⟩
    else none
  | .after value => Reader.behindValue value reader.frames unit
  | .atom letters =>
    if isAtomUnit unit then some ⟨.atom (letters ++ [unit]), reader.frames⟩
    else (atomValue letters).bind fun value => Reader.behindValue value reader.frames unit
  | .string purpose letters =>
    if unit = 0x22 then some ⟨purpose.place letters, reader.frames⟩
    else if unit = 0x5C then some ⟨.escape purpose letters, reader.frames⟩
    else if unit < 0x20 then none
    else some ⟨.string purpose (letters ++ [unit]), reader.frames⟩
  | .escape purpose letters =>
    if unit = 0x75 then some ⟨.hexadecimal purpose letters [], reader.frames⟩
    else
      (escapedUnit unit).map fun letter => ⟨.string purpose (letters ++ [letter]), reader.frames⟩
  | .hexadecimal purpose letters digits =>
    (hexValue unit).map fun digit =>
      if digits.length < 3 then ⟨.hexadecimal purpose letters (digits ++ [digit]), reader.frames⟩
      else
        let letter := (digits ++ [digit]).foldl (fun number digit => 16 * number + digit) 0
        ⟨.string purpose (letters ++ [letter]), reader.frames⟩

/-- The value that was read when the text ends. -/
def Reader.result (reader : Reader) : Option JsonValue :=
  match reader.place, reader.frames with
  | .after value, [] => some value
  | .atom letters, [] => atomValue letters
  | _, _ => none

def Reader.read (reader : Reader) : JsString → Option JsonValue
  | [] => reader.result
  | unit :: text => (reader.step unit).bind fun reader => reader.read text

/-- `JSON.parse(text)`, where it does not throw. -/
def parseJson (text : JsString) : Option JsonValue := Reader.read ⟨.value, []⟩ text

/-! ## Writing -/

def isHighSurrogate (unit : ℕ) : Bool := 0xD800 ≤ unit && unit ≤ 0xDBFF

def isLowSurrogate (unit : ℕ) : Bool := 0xDC00 ≤ unit && unit ≤ 0xDFFF

def hexUnit (digit : ℕ) : ℕ := if digit < 10 then 0x30 + digit else 0x57 + digit

/-- `\u` and four digits -/
def unicodeEscape (unit : ℕ) : JsString :=
  [0x5C, 0x75, hexUnit (unit / 4096 % 16), hexUnit (unit / 256 % 16), hexUnit (unit / 16 % 16),
    hexUnit (unit % 16)]

/-- A unit that is no surrogate. -/
def quotedUnit (unit : ℕ) : JsString :=
  if unit = 0x22 ∨ unit = 0x5C then [0x5C, unit]
  else if unit = 0x8 then [0x5C, 0x62]
  else if unit = 0x9 then [0x5C, 0x74]
  else if unit = 0xA then [0x5C, 0x6E]
  else if unit = 0xC then [0x5C, 0x66]
  else if unit = 0xD then [0x5C, 0x72]
  else if unit < 0x20 then unicodeEscape unit
  else [unit]

/-- The units of a string; the first one may be the second one of a pair. -/
def quotedUnits (paired : Bool) : JsString → JsString
  | [] => []
  | unit :: text =>
    if paired then unit :: quotedUnits false text
    else if isHighSurrogate unit then
      if text.head?.any isLowSurrogate then unit :: quotedUnits true text
      else unicodeEscape unit ++ quotedUnits false text
    else if isLowSurrogate unit then unicodeEscape unit ++ quotedUnits false text
    else quotedUnit unit ++ quotedUnits false text

/-- `JSON.stringify` of a string. -/
def quoteUnits (text : JsString) : JsString := 0x22 :: (quotedUnits false text ++ [0x22])

section Serialize

variable (gap : JsString)

/-- A line break and the indentation, where there is a gap. -/
def lineBreak (indent : JsString) : JsString := if gap = [] then [] else 0xA :: indent

mutual

/-- `SerializeJSONProperty` of a value at a depth. -/
def serialize (indent : JsString) : JsonValue → JsString
  | .null => ascii "null"
  | .bool true => ascii "true"
  | .bool false => ascii "false"
  | .number value => value.text.map Char.toNat
  | .string value => quoteUnits value
  | .array [] => [0x5B, 0x5D]
  | .array (item :: items) =>
    0x5B :: (serializeItems (indent ++ gap) (item :: items) ++ lineBreak gap indent ++ [0x5D])
  | .object [] => [0x7B, 0x7D]
  | .object (member :: members) =>
    0x7B :: (serializeMembers (indent ++ gap) (member :: members) ++ lineBreak gap indent ++ [0x7D])

def serializeItems (indent : JsString) : List JsonValue → JsString
  | [] => []
  | [item] => lineBreak gap indent ++ serialize indent item
  | item :: items =>
    lineBreak gap indent ++ serialize indent item ++ 0x2C :: serializeItems indent items

def serializeMembers (indent : JsString) : List (JsString × JsonValue) → JsString
  | [] => []
  | [(key, value)] =>
    lineBreak gap indent ++ quoteUnits key ++ 0x3A ::
      ((if gap = [] then [] else [0x20]) ++ serialize indent value)
  | (key, value) :: members =>
    lineBreak gap indent ++ quoteUnits key ++ 0x3A ::
      ((if gap = [] then [] else [0x20]) ++ serialize indent value) ++
      0x2C :: serializeMembers indent members

end

end Serialize

/-- `JSON.stringify(value, null, gap)` of a value whose functions, if it has any, are left out. -/
def stringifyJson (gap : JsString) (value : JsonValue) : JsString := serialize gap [] value

/-! ## What is read of what was written -/

mutual

/-- The objects in a value have properties in their order. -/
def JsonValue.WellFormed : JsonValue → Prop
  | .array items => wellFormedItems items
  | .object members => PropertyKeys (members.map Prod.fst) ∧ wellFormedMembers members
  | _ => True

def wellFormedItems : List JsonValue → Prop
  | [] => True
  | item :: items => item.WellFormed ∧ wellFormedItems items

def wellFormedMembers : List (JsString × JsonValue) → Prop
  | [] => True
  | (_, value) :: members => value.WellFormed ∧ wellFormedMembers members

end

def JsNumber.reread : JsNumber → JsonValue
  | infinite _ => .null
  | finite negative magnitude =>
    .number (.finite (negative && decide (0 < magnitude.units)) magnitude)

mutual

def JsonValue.reread : JsonValue → JsonValue
  | .null => .null
  | .bool value => .bool value
  | .number value => value.reread
  | .string value => .string value
  | .array items => .array (rereadItems items)
  | .object members => .object (rereadMembers members)

def rereadItems : List JsonValue → List JsonValue
  | [] => []
  | item :: items => item.reread :: rereadItems items

def rereadMembers : List (JsString × JsonValue) → List (JsString × JsonValue)
  | [] => []
  | (key, value) :: members => (key, value.reread) :: rereadMembers members

end

namespace Reader

variable {frames : List Frame} {purpose : Purpose} {letters rest text : JsString} {unit : ℕ}

theorem read_cons {reader next : Reader} (step : reader.step unit = some next) :
    reader.read (unit :: text) = next.read text := by
  rw [read, step]
  rfl

/-! ### Strings -/

theorem read_raw (printable : 0x20 ≤ unit) (noQuote : unit ≠ 0x22) (noBackslash : unit ≠ 0x5C) :
    read ⟨.string purpose letters, frames⟩ (unit :: text) =
      read ⟨.string purpose (letters ++ [unit]), frames⟩ text := by
  refine read_cons ?_
  rw [step]
  dsimp only
  rw [if_neg noQuote, if_neg noBackslash, if_neg (Nat.not_lt.mpr printable)]

theorem hexValue_hexUnit {digit : ℕ} (small : digit < 16) :
    hexValue (hexUnit digit) = some digit := by
  have digits : ∀ digit < 16, hexValue (hexUnit digit) = some digit := by decide
  exact digits digit small

theorem read_hexadecimal {digits : List ℕ} {digit : ℕ} (value : hexValue unit = some digit)
    (more : digits.length < 3) :
    read ⟨.hexadecimal purpose letters digits, frames⟩ (unit :: text) =
      read ⟨.hexadecimal purpose letters (digits ++ [digit]), frames⟩ text := by
  refine read_cons ?_
  rw [step]
  dsimp only
  rw [value, Option.map_some, if_pos more]

theorem read_lastHexadecimal {digits : List ℕ} {digit : ℕ} (value : hexValue unit = some digit)
    (last : ¬ digits.length < 3) :
    read ⟨.hexadecimal purpose letters digits, frames⟩ (unit :: text) =
      read ⟨.string purpose (letters ++
        [(digits ++ [digit]).foldl (fun number digit => 16 * number + digit) 0]), frames⟩ text := by
  refine read_cons ?_
  rw [step]
  dsimp only
  rw [value, Option.map_some, if_neg last]

theorem read_unicodeEscape (small : unit < 2 ^ 16) :
    read ⟨.string purpose letters, frames⟩ (unicodeEscape unit ++ text) =
      read ⟨.string purpose (letters ++ [unit]), frames⟩ text := by
  have digit (value : ℕ) : hexValue (hexUnit (value % 16)) = some (value % 16) :=
    hexValue_hexUnit (Nat.mod_lt _ (by decide))
  have number : [unit / 4096 % 16, unit / 256 % 16, unit / 16 % 16, unit % 16].foldl
      (fun number digit => 16 * number + digit) 0 = unit := by
    simp only [List.foldl_cons, List.foldl_nil]
    omega
  calc read ⟨.string purpose letters, frames⟩ (unicodeEscape unit ++ text)
      = read ⟨.hexadecimal purpose letters [], frames⟩
          (hexUnit (unit / 4096 % 16) :: hexUnit (unit / 256 % 16) :: hexUnit (unit / 16 % 16) ::
            hexUnit (unit % 16) :: text) := rfl
    _ = read ⟨.string purpose (letters ++ [unit]), frames⟩ text := by
      rw [read_hexadecimal (digit _) (by simp), read_hexadecimal (digit _) (by simp),
        read_hexadecimal (digit _) (by simp), read_lastHexadecimal (digit _) (by simp)]
      exact congrArg (fun unit => read ⟨.string purpose (letters ++ [unit]), frames⟩ text) number

theorem read_backslash {letter : ℕ} (other : unit ≠ 0x75)
    (escaped : escapedUnit unit = some letter) :
    read ⟨.string purpose letters, frames⟩ (0x5C :: unit :: text) =
      read ⟨.string purpose (letters ++ [letter]), frames⟩ text := by
  have opened : read ⟨.string purpose letters, frames⟩ (0x5C :: unit :: text) =
      read ⟨.escape purpose letters, frames⟩ (unit :: text) := rfl
  rw [opened]
  refine read_cons ?_
  rw [step]
  dsimp only
  rw [if_neg other, escaped, Option.map_some]

theorem read_quotedUnit (small : unit < 2 ^ 16 ∨ 0x20 ≤ unit) :
    read ⟨.string purpose letters, frames⟩ (quotedUnit unit ++ text) =
      read ⟨.string purpose (letters ++ [unit]), frames⟩ text := by
  unfold quotedUnit
  split_ifs with quotation backspace tabulator newline formFeed carriageReturn control
  · rcases quotation with rfl | rfl <;> exact read_backslash (by decide) rfl
  · rw [backspace]
    exact read_backslash (by decide) rfl
  · rw [tabulator]
    exact read_backslash (by decide) rfl
  · rw [newline]
    exact read_backslash (by decide) rfl
  · rw [formFeed]
    exact read_backslash (by decide) rfl
  · rw [carriageReturn]
    exact read_backslash (by decide) rfl
  · exact read_unicodeEscape (by omega)
  · rw [not_or] at quotation
    exact read_raw (Nat.not_lt.mp control) quotation.1 quotation.2

/-- The units of a string are read up to the quotation mark. -/
theorem read_quotedUnits (paired : Bool) (units : JsString)
    (second : paired = true → ∀ unit ∈ units.head?, isLowSurrogate unit = true) :
    read ⟨.string purpose letters, frames⟩ (quotedUnits paired units ++ 0x22 :: rest) =
      read ⟨purpose.place (letters ++ units), frames⟩ rest := by
  induction units generalizing paired letters with
  | nil =>
    rw [quotedUnits, List.append_nil]
    exact read_cons rfl
  | cons unit units ih =>
    have together : letters ++ unit :: units = letters ++ [unit] ++ units := by simp
    have high (surrogate : isHighSurrogate unit = true) : 0xD800 ≤ unit ∧ unit ≤ 0xDBFF := by
      simpa [isHighSurrogate] using surrogate
    have low (surrogate : isLowSurrogate unit = true) : 0xDC00 ≤ unit ∧ unit ≤ 0xDFFF := by
      simpa [isLowSurrogate] using surrogate
    rw [together, quotedUnits]
    split_ifs with isPaired isHigh followed isLow
    · have bounds := low (second isPaired unit rfl)
      rw [List.cons_append, read_raw (by omega) (by omega) (by omega)]
      exact ih false nofun
    · have bounds := high isHigh
      rw [List.cons_append, read_raw (by omega) (by omega) (by omega)]
      refine ih true fun _ next head => ?_
      rw [Option.mem_def.mp head] at followed
      exact followed
    · have bounds := high isHigh
      rw [List.append_assoc, read_unicodeEscape (by omega)]
      exact ih false nofun
    · have bounds := low isLow
      rw [List.append_assoc, read_unicodeEscape (by omega)]
      exact ih false nofun
    · rw [List.append_assoc, read_quotedUnit (by omega)]
      exact ih false nofun

theorem read_quoteUnits (units : JsString) :
    read ⟨.string purpose [], frames⟩ (quotedUnits false units ++ 0x22 :: rest) =
      read ⟨purpose.place units, frames⟩ rest :=
  read_quotedUnits false units nofun

/-! ### Space, words and numbers -/

/-- The reader stays where it is over white space. -/
theorem read_spaces {place : Place} {spaces : JsString}
    (stays : ∀ unit, isJsonSpace unit = true → step ⟨place, frames⟩ unit = some ⟨place, frames⟩)
    (blank : ∀ unit ∈ spaces, isJsonSpace unit = true) :
    read ⟨place, frames⟩ (spaces ++ text) = read ⟨place, frames⟩ text := by
  induction spaces with
  | nil => rfl
  | cons space spaces ih =>
    obtain ⟨first, others⟩ := List.forall_mem_cons.mp blank
    rw [List.cons_append, read_cons (stays space first), ih others]

theorem stays_value (unit : ℕ) (blank : isJsonSpace unit = true) :
    step ⟨.value, frames⟩ unit = some ⟨.value, frames⟩ := if_pos blank

theorem stays_firstItem (unit : ℕ) (blank : isJsonSpace unit = true) :
    step ⟨.firstItem, frames⟩ unit = some ⟨.firstItem, frames⟩ := if_pos blank

theorem stays_firstKey (unit : ℕ) (blank : isJsonSpace unit = true) :
    step ⟨.firstKey, frames⟩ unit = some ⟨.firstKey, frames⟩ := if_pos blank

theorem stays_nextKey {entries : List (JsString × JsonValue)} (unit : ℕ)
    (blank : isJsonSpace unit = true) :
    step ⟨.nextKey entries, frames⟩ unit = some ⟨.nextKey entries, frames⟩ := if_pos blank

theorem stays_after {value : JsonValue} (unit : ℕ) (blank : isJsonSpace unit = true) :
    step ⟨.after value, frames⟩ unit = some ⟨.after value, frames⟩ := if_pos blank

theorem ne_of_atom {other : ℕ} (atom : isAtomUnit unit = true)
    (notAtom : isAtomUnit other = false) :
    unit ≠ other := by
  rintro rfl
  rw [atom] at notAtom
  cases notAtom

theorem isJsonSpace_of_atom (atom : isAtomUnit unit = true) : isJsonSpace unit = false := by
  rw [isJsonSpace, decide_eq_false_iff_not]
  intro space
  simp only [List.mem_cons, List.not_mem_nil, or_false] at space
  rcases space with rfl | rfl | rfl | rfl <;> cases atom

/-- Nothing follows that a word or a number could go on with. -/
def Ends (rest : JsString) : Prop := ∀ unit ∈ rest.head?, isAtomUnit unit = false

theorem read_atom {value : JsonValue} {done : JsString}
    (valued : atomValue (done ++ letters) = some value)
    (atoms : ∀ unit ∈ letters, isAtomUnit unit = true) (ends : Ends rest) :
    read ⟨.atom done, frames⟩ (letters ++ rest) = read ⟨.after value, frames⟩ rest := by
  induction letters generalizing done with
  | nil =>
    rw [List.append_nil] at valued
    cases rest with
    | nil =>
      cases frames with
      | nil => exact valued
      | cons frame frames => rfl
    | cons unit rest =>
      have behind : isAtomUnit unit = false := ends unit rfl
      rw [List.nil_append, read, read, step]
      dsimp only
      rw [behind, valued]
      rfl
  | cons letter letters ih =>
    obtain ⟨first, others⟩ := List.forall_mem_cons.mp atoms
    have next : step ⟨.atom done, frames⟩ letter = some ⟨.atom (done ++ [letter]), frames⟩ :=
      if_pos first
    rw [List.cons_append, read_cons next]
    exact ih (by simpa using valued) others

theorem read_atomValue {value : JsonValue} (valued : atomValue letters = some value)
    (filled : letters ≠ []) (atoms : ∀ unit ∈ letters, isAtomUnit unit = true) (ends : Ends rest) :
    read ⟨.value, frames⟩ (letters ++ rest) = read ⟨.after value, frames⟩ rest := by
  cases letters with
  | nil => exact absurd rfl filled
  | cons letter letters =>
    obtain ⟨first, others⟩ := List.forall_mem_cons.mp atoms
    have begins : step ⟨.value, frames⟩ letter = some ⟨.atom [letter], frames⟩ := by
      rw [step]
      dsimp only
      rw [beginValue, isJsonSpace_of_atom first, if_neg Bool.false_ne_true,
        if_neg (ne_of_atom first rfl), if_neg (ne_of_atom first rfl),
        if_neg (ne_of_atom first rfl), if_pos first]
    rw [List.cons_append, read_cons begins]
    exact read_atom valued others ends

end Reader

/-! ### Numbers -/

theorem isAtomUnit_toNat {letter : Char} (numeral : isNumeralLetter letter = true) :
    isAtomUnit letter.toNat = true := by
  simp only [isNumeralLetter, Bool.or_eq_true, decide_eq_true_eq] at numeral
  rcases numeral with (((digit | rfl) | rfl) | rfl) | rfl
  · have bounds : 48 ≤ letter.toNat ∧ letter.toNat ≤ 57 := by
      simp only [Char.isDigit, Bool.and_eq_true, decide_eq_true_iff] at digit
      exact ⟨digit.1, digit.2⟩
    simp [isAtomUnit, bounds.1, bounds.2]
  all_goals rfl

theorem map_ofNat_toNat (letters : List Char) :
    (letters.map Char.toNat).map Char.ofNat = letters := by
  rw [List.map_map]
  exact List.map_id'' (fun letter => Char.ofNat_toNat letter) letters

namespace JsNumber

variable {negative : Bool} {magnitude : Magnitude}

theorem isNumeralLetter_of_mem_magnitude {letter : Char} (member : letter ∈ magnitude.text) :
    isNumeralLetter letter = true := by
  unfold Magnitude.text at member
  split_ifs at member with positive
  · exact Decimal.isNumeralLetter_of_mem_text _ member
  · rw [List.mem_singleton.mp member]
    rfl

/-- The text of a finite number: letters of a numeral, one at least. -/
theorem isNumeralLetter_of_mem_text {letter : Char}
    (member : letter ∈ (finite negative magnitude).text) : isNumeralLetter letter = true := by
  unfold text at member
  dsimp only at member
  split_ifs at member
  · rcases List.mem_cons.mp member with rfl | member
    · rfl
    · exact isNumeralLetter_of_mem_magnitude member
  · exact isNumeralLetter_of_mem_magnitude member

theorem text_ne_nil (number : JsNumber) : number.text ≠ [] := by
  cases number with
  | infinite negative => exact List.cons_ne_nil _ _
  | finite negative magnitude =>
    intro empty
    have read := numberOf_text negative magnitude
    rw [empty] at read
    cases read

theorem isAtomUnit_of_mem_text {number : JsNumber} {unit : ℕ}
    (member : unit ∈ number.text.map Char.toNat) : isAtomUnit unit = true := by
  cases number with
  | infinite negative =>
    have atoms : ∀ unit ∈ ascii "null", isAtomUnit unit = true := by decide
    exact atoms unit member
  | finite negative magnitude =>
    obtain ⟨letter, isLetter, rfl⟩ := List.mem_map.mp member
    exact isAtomUnit_toNat (isNumeralLetter_of_mem_text isLetter)

/-- The sign of zero is not written. -/
theorem text_finite_and : (finite (negative && decide (0 < magnitude.units)) magnitude).text =
    (finite negative magnitude).text := by
  unfold text
  by_cases positive : 0 < magnitude.units <;> simp [positive]

/-- A number is read as it is written. -/
theorem atomValue_text (number : JsNumber) :
    atomValue (number.text.map Char.toNat) = some number.reread := by
  cases number with
  | infinite negative => rfl
  | finite negative magnitude =>
    -- no word is made of the letters of numerals
    have other {word : String} (letter : Char) (member : letter ∈ word.toList)
        (notNumeral : isNumeralLetter letter = false) :
        (finite negative magnitude).text.map Char.toNat ≠ ascii word := by
      intro same
      have letters := congrArg (List.map Char.ofNat) same
      rw [ascii, map_ofNat_toNat, map_ofNat_toNat] at letters
      rw [← letters] at member
      rw [isNumeralLetter_of_mem_text member] at notNumeral
      cases notNumeral
    rw [atomValue, if_neg (other 'n' (by decide) rfl), if_neg (other 't' (by decide) rfl),
      if_neg (other 'f' (by decide) rfl), map_ofNat_toNat, numberOf_text]
    rfl

end JsNumber

/-! ### Values -/

section RoundTrip

variable {gap indent : JsString}

theorem blank_lineBreak (blank : ∀ unit ∈ indent, isJsonSpace unit = true) :
    ∀ unit ∈ lineBreak gap indent, isJsonSpace unit = true := by
  unfold lineBreak
  split_ifs
  · exact nofun
  · exact List.forall_mem_cons.mpr ⟨rfl, blank⟩

theorem serializeItems_cons_cons (item next : JsonValue) (items : List JsonValue) :
    serializeItems gap indent (item :: next :: items) =
      lineBreak gap indent ++ serialize gap indent item ++
        0x2C :: serializeItems gap indent (next :: items) := by
  rw [serializeItems]
  exact nofun

theorem serializeMembers_cons_cons (key : JsString) (value : JsonValue)
    (next : JsString × JsonValue) (members : List (JsString × JsonValue)) :
    serializeMembers gap indent ((key, value) :: next :: members) =
      lineBreak gap indent ++ quoteUnits key ++ 0x3A ::
        ((if gap = [] then [] else [0x20]) ++ serialize gap indent value) ++
        0x2C :: serializeMembers gap indent (next :: members) := by
  rw [serializeMembers]
  exact nofun

theorem ends_of_blank {spaces rest : JsString} {unit : ℕ}
    (blank : ∀ unit ∈ spaces, isJsonSpace unit = true) (notAtom : isAtomUnit unit = false) :
    Reader.Ends (spaces ++ unit :: rest) := by
  intro first head
  cases spaces with
  | nil =>
    cases head
    exact notAtom
  | cons space spaces =>
    cases head
    have isSpace := blank _ List.mem_cons_self
    simp only [isJsonSpace, List.mem_cons, List.not_mem_nil, or_false, decide_eq_true_eq] at isSpace
    rcases isSpace with rfl | rfl | rfl | rfl <;> rfl

/-- What a value is written with begins with what only a value begins with. -/
theorem serialize_head (gap indent : JsString) (value : JsonValue) :
    ∃ first tail, serialize gap indent value = first :: tail ∧
      (first = 0x22 ∨ first = 0x5B ∨ first = 0x7B ∨ isAtomUnit first = true) := by
  cases value with
  | null => exact ⟨_, _, rfl, .inr (.inr (.inr rfl))⟩
  | bool value => cases value <;> exact ⟨_, _, rfl, .inr (.inr (.inr rfl))⟩
  | number value =>
    rw [serialize]
    cases text : value.text.map Char.toNat with
    | nil => exact absurd (List.map_eq_nil_iff.mp text) value.text_ne_nil
    | cons first tail =>
      have member : first ∈ value.text.map Char.toNat := text ▸ List.mem_cons_self
      exact ⟨first, tail, rfl, .inr (.inr (.inr (JsNumber.isAtomUnit_of_mem_text member)))⟩
  | string value =>
    rw [serialize]
    exact ⟨_, _, rfl, .inl rfl⟩
  | array items => cases items <;> rw [serialize] <;> exact ⟨_, _, rfl, .inr (.inl rfl)⟩
  | object members => cases members <;> rw [serialize] <;> exact ⟨_, _, rfl, .inr (.inr (.inl rfl))⟩

/-- The first item of an array is read as any other value. -/
theorem read_firstItem (spaces : JsString) (blank : ∀ unit ∈ spaces, isJsonSpace unit = true)
    (value : JsonValue) (frames : List Frame) (rest : JsString) :
    Reader.read ⟨.firstItem, frames⟩ (spaces ++ serialize gap indent value ++ rest) =
      Reader.read ⟨.value, .array [] :: frames⟩ (spaces ++ serialize gap indent value ++ rest) := by
  obtain ⟨first, tail, split, begins⟩ := serialize_head gap indent value
  rw [List.append_assoc, Reader.read_spaces Reader.stays_firstItem blank,
    Reader.read_spaces Reader.stays_value blank, split, List.cons_append, Reader.read, Reader.read]
  have notBlank : isJsonSpace first = false ∧ first ≠ 0x5D := by
    rcases begins with rfl | rfl | rfl | atom
    · exact ⟨rfl, by decide⟩
    · exact ⟨rfl, by decide⟩
    · exact ⟨rfl, by decide⟩
    · exact ⟨Reader.isJsonSpace_of_atom atom, Reader.ne_of_atom atom rfl⟩
  have same : Reader.step ⟨.firstItem, frames⟩ first =
      Reader.step ⟨.value, .array [] :: frames⟩ first := by
    rw [Reader.step, Reader.step]
    dsimp only
    rw [notBlank.1, if_neg Bool.false_ne_true, if_neg notBlank.2]
  rw [same]

theorem keys_rereadMembers (members : List (JsString × JsonValue)) :
    (rereadMembers members).map Prod.fst = members.map Prod.fst := by
  induction members with
  | nil => rfl
  | cons member members ih => rw [rereadMembers, List.map_cons, ih, List.map_cons]

theorem blank_append (blankGap : ∀ unit ∈ gap, isJsonSpace unit = true)
    (blank : ∀ unit ∈ indent, isJsonSpace unit = true) :
    ∀ unit ∈ indent ++ gap, isJsonSpace unit = true :=
  List.forall_mem_append.mpr ⟨blank, blankGap⟩

variable (gap) in
/-- The value is read off the front of a text, at whatever depth it is written. -/
def Reads (value : JsonValue) : Prop :=
  ∀ (indent : JsString) (frames : List Frame) (rest : JsString),
    (∀ unit ∈ indent, isJsonSpace unit = true) → Reader.Ends rest →
      Reader.read ⟨.value, frames⟩ (serialize gap indent value ++ rest) =
        Reader.read ⟨.after value.reread, frames⟩ rest

section Inside

variable {frames : List Frame} {close rest : JsString}
  (blank : ∀ unit ∈ indent, isJsonSpace unit = true)
  (blankClose : ∀ unit ∈ close, isJsonSpace unit = true)
include blank blankClose

variable (frames rest) in
/-- The items that are left of an array, up to its closing bracket. -/
theorem read_serializeItems (item : JsonValue) (items done : List JsonValue)
    (each : ∀ item' ∈ item :: items, Reads gap item') :
    Reader.read ⟨.value, .array done :: frames⟩
      (serializeItems gap indent (item :: items) ++ (close ++ 0x5D :: rest)) =
      Reader.read ⟨.after (.array (done ++ rereadItems (item :: items))), frames⟩ rest := by
  obtain ⟨first, others⟩ := List.forall_mem_cons.mp each
  induction items generalizing item done with
  | nil =>
    have ended : Reader.step ⟨.after item.reread, .array done :: frames⟩ 0x5D =
        some ⟨.after (.array (done ++ [item.reread])), frames⟩ := rfl
    rw [serializeItems, List.append_assoc,
      Reader.read_spaces Reader.stays_value (blank_lineBreak blank),
      first indent _ _ blank (ends_of_blank blankClose rfl),
      Reader.read_spaces Reader.stays_after blankClose, Reader.read_cons ended]
    rfl
  | cons next items ih =>
    have comma : Reader.step ⟨.after item.reread, .array done :: frames⟩ 0x2C =
        some ⟨.value, .array (done ++ [item.reread]) :: frames⟩ := rfl
    have ends : Reader.Ends (0x2C :: (serializeItems gap indent (next :: items) ++
        (close ++ 0x5D :: rest))) := ends_of_blank (List.forall_mem_nil _) rfl
    obtain ⟨second, later⟩ := List.forall_mem_cons.mp others
    have together : done ++ rereadItems (item :: next :: items) =
        done ++ [item.reread] ++ rereadItems (next :: items) := by
      rw [rereadItems, List.append_assoc]
      rfl
    rw [serializeItems_cons_cons, List.append_assoc, List.append_assoc, List.cons_append,
      Reader.read_spaces Reader.stays_value (blank_lineBreak blank),
      first indent _ _ blank ends, Reader.read_cons comma, ih next _ others second later, together]

omit blankClose in
/-- What is written of one property, up to what stands behind its value. -/
theorem read_member {key : JsString} {value : JsonValue} (done : List (JsString × JsonValue))
    (reads : Reads gap value) (ends : Reader.Ends rest) :
    Reader.read ⟨.nextKey done, frames⟩
      (lineBreak gap indent ++ quoteUnits key ++ 0x3A ::
        ((if gap = [] then [] else [0x20]) ++ serialize gap indent value) ++ rest) =
      Reader.read ⟨.after value.reread, .object done key :: frames⟩ rest := by
  have opened : Reader.step ⟨.nextKey done, frames⟩ 0x22 =
      some ⟨.string (.key done) [], frames⟩ := rfl
  have colon : Reader.step ⟨.colon done key, frames⟩ 0x3A =
      some ⟨.value, .object done key :: frames⟩ := rfl
  have space : ∀ unit ∈ (if gap = [] then [] else [0x20] : JsString), isJsonSpace unit = true := by
    split_ifs
    · exact nofun
    · decide
  calc Reader.read ⟨.nextKey done, frames⟩ (lineBreak gap indent ++ quoteUnits key ++ 0x3A ::
        ((if gap = [] then [] else [0x20]) ++ serialize gap indent value) ++ rest)
      = Reader.read ⟨.nextKey done, frames⟩ (lineBreak gap indent ++ 0x22 ::
          (quotedUnits false key ++ 0x22 :: 0x3A ::
            ((if gap = [] then [] else [0x20]) ++ (serialize gap indent value ++ rest)))) := by
        simp [quoteUnits]
    _ = Reader.read ⟨.colon done key, frames⟩ (0x3A ::
          ((if gap = [] then [] else [0x20]) ++ (serialize gap indent value ++ rest))) := by
        rw [Reader.read_spaces Reader.stays_nextKey (blank_lineBreak blank),
          Reader.read_cons opened, Reader.read_quoteUnits]
        rfl
    _ = Reader.read ⟨.after value.reread, .object done key :: frames⟩ rest := by
        rw [Reader.read_cons colon, Reader.read_spaces Reader.stays_value space]
        exact reads indent _ rest blank ends

variable (frames rest) in
/-- The properties that are left of an object, up to its closing brace. -/
theorem read_serializeMembers (member : JsString × JsonValue)
    (members done : List (JsString × JsonValue))
    (each : ∀ member' ∈ member :: members, Reads gap member'.2) :
    Reader.read ⟨.nextKey done, frames⟩
      (serializeMembers gap indent (member :: members) ++ (close ++ 0x7D :: rest)) =
      Reader.read ⟨.after (.object (objectOf (done ++ rereadMembers (member :: members)))), frames⟩
        rest := by
  obtain ⟨first, others⟩ := List.forall_mem_cons.mp each
  obtain ⟨key, value⟩ := member
  induction members generalizing key value done with
  | nil =>
    have ended : Reader.step ⟨.after value.reread, .object done key :: frames⟩ 0x7D =
        some ⟨.after (.object (objectOf (done ++ [(key, value.reread)]))), frames⟩ := rfl
    rw [serializeMembers, read_member blank done first (ends_of_blank blankClose rfl),
      Reader.read_spaces Reader.stays_after blankClose, Reader.read_cons ended]
    rfl
  | cons next members ih =>
    have comma : Reader.step ⟨.after value.reread, .object done key :: frames⟩ 0x2C =
        some ⟨.nextKey (done ++ [(key, value.reread)]), frames⟩ := rfl
    have ends : Reader.Ends (0x2C :: (serializeMembers gap indent (next :: members) ++
        (close ++ 0x7D :: rest))) := ends_of_blank (List.forall_mem_nil _) rfl
    obtain ⟨second, later⟩ := List.forall_mem_cons.mp others
    have together : done ++ rereadMembers ((key, value) :: next :: members) =
        done ++ [(key, value.reread)] ++ rereadMembers (next :: members) := by
      rw [rereadMembers, List.append_assoc]
      rfl
    rw [serializeMembers_cons_cons, List.append_assoc, List.cons_append,
      read_member blank done first ends, Reader.read_cons comma,
      ih _ later next.1 next.2 others second, together]

end Inside

theorem serializeItems_head (gap indent : JsString) (item : JsonValue) (items : List JsonValue) :
    ∃ tail, serializeItems gap indent (item :: items) =
      lineBreak gap indent ++ serialize gap indent item ++ tail := by
  cases items with
  | nil => exact ⟨[], by rw [serializeItems, List.append_nil]⟩
  | cons next items => exact ⟨_, serializeItems_cons_cons item next items⟩

theorem reads_array (blankGap : ∀ unit ∈ gap, isJsonSpace unit = true) {items : List JsonValue}
    (each : ∀ item ∈ items, Reads gap item) : Reads gap (.array items) := by
  intro indent frames rest blank ends
  have opened : Reader.step ⟨.value, frames⟩ 0x5B = some ⟨.firstItem, frames⟩ := rfl
  cases items with
  | nil =>
    rw [serialize]
    rfl
  | cons item items =>
    have blankInside := blank_append blankGap blank
    obtain ⟨tail, split⟩ := serializeItems_head gap (indent ++ gap) item items
    have blankClose : ∀ unit ∈ lineBreak gap indent, isJsonSpace unit = true :=
      blank_lineBreak blank
    have inside :=
      read_serializeItems frames rest blankInside blankClose item items [] each
    rw [split, List.append_assoc, ← read_firstItem _ (blank_lineBreak blankInside),
      ← List.append_assoc, ← split] at inside
    rw [serialize, List.cons_append, Reader.read_cons opened, List.append_assoc, List.append_assoc]
    exact inside

/-- The first key of an object is read as any other key. -/
theorem read_firstKey (spaces : JsString) (blank : ∀ unit ∈ spaces, isJsonSpace unit = true)
    {frames : List Frame} {rest : JsString} :
    Reader.read ⟨.firstKey, frames⟩ (spaces ++ 0x22 :: rest) =
      Reader.read ⟨.nextKey [], frames⟩ (spaces ++ 0x22 :: rest) := by
  rw [Reader.read_spaces Reader.stays_firstKey blank, Reader.read_spaces Reader.stays_nextKey blank]
  rfl

theorem serializeMembers_head (gap indent : JsString) (member : JsString × JsonValue)
    (members : List (JsString × JsonValue)) :
    ∃ tail, serializeMembers gap indent (member :: members) =
      lineBreak gap indent ++ 0x22 :: tail := by
  obtain ⟨key, value⟩ := member
  cases members with
  | nil => exact ⟨_, by rw [serializeMembers, List.append_assoc]; rfl⟩
  | cons next members =>
    exact ⟨_, by rw [serializeMembers_cons_cons, List.append_assoc, List.append_assoc]; rfl⟩

theorem reads_object (blankGap : ∀ unit ∈ gap, isJsonSpace unit = true)
    {members : List (JsString × JsonValue)} (keys : PropertyKeys (members.map Prod.fst))
    (each : ∀ member ∈ members, Reads gap member.2) : Reads gap (.object members) := by
  intro indent frames rest blank ends
  have opened : Reader.step ⟨.value, frames⟩ 0x7B = some ⟨.firstKey, frames⟩ := rfl
  cases members with
  | nil =>
    rw [serialize]
    rfl
  | cons member members =>
    have blankInside := blank_append blankGap blank
    have blankClose : ∀ unit ∈ lineBreak gap indent, isJsonSpace unit = true :=
      blank_lineBreak blank
    obtain ⟨tail, split⟩ := serializeMembers_head gap (indent ++ gap) member members
    have inside :=
      read_serializeMembers frames rest blankInside blankClose member members [] each
    rw [← keys_rereadMembers] at keys
    rw [List.nil_append, objectOf_eq_self keys, split, List.append_assoc, List.cons_append,
      ← read_firstKey _ (blank_lineBreak blankInside), ← List.cons_append, ← List.append_assoc,
      ← split] at inside
    rw [serialize, List.cons_append, Reader.read_cons opened, List.append_assoc, List.append_assoc]
    exact inside

mutual

/-- What is written of a value is read as it. -/
theorem reads_of_wellFormed (blankGap : ∀ unit ∈ gap, isJsonSpace unit = true) :
    ∀ value : JsonValue, value.WellFormed → Reads gap value
  | .null, _ => fun indent _ _ _ ends => by
    rw [serialize]
    exact Reader.read_atomValue rfl (by decide) (by decide) ends
  | .bool true, _ => fun indent _ _ _ ends => by
    rw [serialize]
    exact Reader.read_atomValue rfl (by decide) (by decide) ends
  | .bool false, _ => fun indent _ _ _ ends => by
    rw [serialize]
    exact Reader.read_atomValue rfl (by decide) (by decide) ends
  | .number value, _ => fun indent _ _ _ ends => by
    rw [serialize]
    exact Reader.read_atomValue value.atomValue_text (by simpa using value.text_ne_nil)
      (fun _ => JsNumber.isAtomUnit_of_mem_text) ends
  | .string value, _ => fun indent frames _ _ _ => by
    have opened : Reader.step ⟨.value, frames⟩ 0x22 = some ⟨.string .value [], frames⟩ := rfl
    rw [serialize, quoteUnits, List.cons_append, Reader.read_cons opened, List.append_assoc]
    exact Reader.read_quoteUnits value
  | .array items, wellFormed =>
    reads_array blankGap (reads_of_wellFormedItems blankGap items wellFormed)
  | .object members, wellFormed =>
    reads_object blankGap wellFormed.1 (reads_of_wellFormedMembers blankGap members wellFormed.2)

theorem reads_of_wellFormedItems (blankGap : ∀ unit ∈ gap, isJsonSpace unit = true) :
    ∀ items : List JsonValue, wellFormedItems items → ∀ item ∈ items, Reads gap item
  | [], _ => nofun
  | item :: items, wellFormed => List.forall_mem_cons.mpr
    ⟨reads_of_wellFormed blankGap item wellFormed.1,
      reads_of_wellFormedItems blankGap items wellFormed.2⟩

theorem reads_of_wellFormedMembers (blankGap : ∀ unit ∈ gap, isJsonSpace unit = true) :
    ∀ members : List (JsString × JsonValue), wellFormedMembers members →
      ∀ member ∈ members, Reads gap member.2
  | [], _ => nofun
  | (_, value) :: members, wellFormed => List.forall_mem_cons.mpr
    ⟨reads_of_wellFormed blankGap value wellFormed.1,
      reads_of_wellFormedMembers blankGap members wellFormed.2⟩

end

/-- `JSON.parse(JSON.stringify(value, null, gap))` -/
theorem parseJson_stringifyJson (blankGap : ∀ unit ∈ gap, isJsonSpace unit = true)
    {value : JsonValue} (wellFormed : value.WellFormed) :
    parseJson (stringifyJson gap value) = some value.reread := by
  have read := reads_of_wellFormed blankGap value wellFormed [] [] [] nofun nofun
  rw [List.append_nil] at read
  exact read

/-! ### Writing what was read -/

mutual

theorem serialize_reread (indent : JsString) :
    ∀ value : JsonValue, serialize gap indent value.reread = serialize gap indent value
  | .null => rfl
  | .bool _ => rfl
  | .number (.infinite _) => by
    rw [JsonValue.reread, JsNumber.reread, serialize, serialize]
    rfl
  | .number (.finite negative magnitude) => by
    rw [JsonValue.reread, JsNumber.reread, serialize, serialize, JsNumber.text_finite_and]
  | .string _ => rfl
  | .array [] => rfl
  | .array (item :: items) => by
    have inside := serializeItems_reread (indent ++ gap) (item :: items)
    rw [rereadItems] at inside
    rw [JsonValue.reread, rereadItems, serialize, serialize, inside]
  | .object [] => rfl
  | .object ((key, value) :: members) => by
    have inside := serializeMembers_reread (indent ++ gap) ((key, value) :: members)
    rw [rereadMembers] at inside
    rw [JsonValue.reread, rereadMembers, serialize, serialize, inside]

theorem serializeItems_reread (indent : JsString) :
    ∀ items : List JsonValue, serializeItems gap indent (rereadItems items) =
      serializeItems gap indent items
  | [] => rfl
  | [item] => by
    rw [rereadItems, rereadItems, serializeItems, serializeItems, serialize_reread indent item]
  | item :: next :: items => by
    have others := serializeItems_reread indent (next :: items)
    rw [rereadItems] at others
    rw [rereadItems, rereadItems, serializeItems_cons_cons, serializeItems_cons_cons,
      serialize_reread indent item, others]

theorem serializeMembers_reread (indent : JsString) :
    ∀ members : List (JsString × JsonValue), serializeMembers gap indent (rereadMembers members) =
      serializeMembers gap indent members
  | [] => rfl
  | [(key, value)] => by
    rw [rereadMembers, rereadMembers, serializeMembers, serializeMembers,
      serialize_reread indent value]
  | (key, value) :: (next, value') :: members => by
    have others := serializeMembers_reread indent ((next, value') :: members)
    rw [rereadMembers] at others
    rw [rereadMembers, rereadMembers, serializeMembers_cons_cons, serializeMembers_cons_cons,
      serialize_reread indent value, others]

end

theorem stringifyJson_reread (value : JsonValue) :
    stringifyJson gap value.reread = stringifyJson gap value := serialize_reread [] value

end RoundTrip

/-! ### Everything that is read is well-formed -/

theorem wellFormedItems_iff {items : List JsonValue} :
    wellFormedItems items ↔ ∀ item ∈ items, item.WellFormed := by
  induction items with
  | nil => exact ⟨fun _ => nofun, fun _ => trivial⟩
  | cons item items ih => rw [wellFormedItems, ih, List.forall_mem_cons]

theorem wellFormedMembers_iff {members : List (JsString × JsonValue)} :
    wellFormedMembers members ↔ ∀ member ∈ members, member.2.WellFormed := by
  induction members with
  | nil => exact ⟨fun _ => nofun, fun _ => trivial⟩
  | cons member members ih => rw [wellFormedMembers, ih, List.forall_mem_cons]

/-- The values that a frame has so far. -/
def Frame.values : Frame → List JsonValue
  | array items => items
  | object entries _ => entries.map Prod.snd

def Purpose.values : Purpose → List JsonValue
  | value => []
  | key entries => entries.map Prod.snd

def Place.values : Place → List JsonValue
  | .nextKey entries => entries.map Prod.snd
  | .colon entries _ => entries.map Prod.snd
  | .after done => [done]
  | .string purpose _ => purpose.values
  | .escape purpose _ => purpose.values
  | .hexadecimal purpose _ _ => purpose.values
  | _ => []

/-- Whatever the reader has read so far is well-formed. -/
structure Reader.Sound (reader : Reader) : Prop where
  place : ∀ value ∈ reader.place.values, value.WellFormed
  frames : ∀ frame ∈ reader.frames, ∀ value ∈ frame.values, value.WellFormed

namespace Reader

theorem wellFormed_array {items : List JsonValue} (each : ∀ item ∈ items, item.WellFormed) :
    (JsonValue.array items).WellFormed := wellFormedItems_iff.mpr each

theorem wellFormed_object {entries : List (JsString × JsonValue)}
    (each : ∀ value ∈ entries.map Prod.snd, value.WellFormed) :
    (JsonValue.object (objectOf entries)).WellFormed :=
  ⟨propertyKeys_objectOf entries, wellFormedMembers_iff.mpr fun _ member =>
    each _ (List.mem_map_of_mem (mem_of_mem_objectOf member))⟩

theorem wellFormed_atomValue {letters : JsString} {value : JsonValue}
    (valued : atomValue letters = some value) : value.WellFormed := by
  unfold atomValue at valued
  split_ifs at valued
  · cases valued
    trivial
  · cases valued
    trivial
  · cases valued
    trivial
  · obtain ⟨number, -, rfl⟩ := Option.map_eq_some_iff.mp valued
    trivial

variable {reader next : Reader} {frames : List Frame} {unit : ℕ}
  (sound : ∀ frame ∈ frames, ∀ value ∈ frame.values, value.WellFormed)
include sound

theorem sound_beginValue (begun : beginValue frames unit = some next) : next.Sound := by
  unfold beginValue at begun
  split_ifs at begun <;> cases begun <;> exact ⟨nofun, sound⟩

theorem sound_beginKey {entries : List (JsString × JsonValue)}
    (each : ∀ value ∈ entries.map Prod.snd, value.WellFormed)
    (begun : beginKey entries frames unit = some next) : next.Sound := by
  unfold beginKey at begun
  split_ifs at begun <;> cases begun <;> exact ⟨each, sound⟩

theorem sound_behindValue {value : JsonValue} (wellFormed : value.WellFormed)
    (behind : behindValue value frames unit = some next) : next.Sound := by
  dsimp only [behindValue] at behind
  by_cases blank : isJsonSpace unit = true
  · rw [if_pos blank] at behind
    cases behind
    exact ⟨List.forall_mem_singleton.mpr wellFormed, sound⟩
  · rw [if_neg blank] at behind
    cases frames with
    | nil => cases behind
    | cons frame frames =>
      obtain ⟨top, others⟩ := List.forall_mem_cons.mp sound
      cases frame with
      | array items =>
        have items : ∀ item ∈ items ++ [value], item.WellFormed :=
          List.forall_mem_append.mpr ⟨top, List.forall_mem_singleton.mpr wellFormed⟩
        dsimp only at behind
        split_ifs at behind
        · cases behind
          exact ⟨nofun, List.forall_mem_cons.mpr ⟨items, others⟩⟩
        · cases behind
          exact ⟨List.forall_mem_singleton.mpr (wellFormed_array items), others⟩
      | object entries key =>
        have entries : ∀ item ∈ (entries ++ [(key, value)]).map Prod.snd, item.WellFormed := by
          rw [List.map_append]
          exact List.forall_mem_append.mpr ⟨top, List.forall_mem_singleton.mpr wellFormed⟩
        dsimp only at behind
        split_ifs at behind
        · cases behind
          exact ⟨entries, others⟩
        · cases behind
          exact ⟨List.forall_mem_singleton.mpr (wellFormed_object entries), others⟩

omit sound in
/-- What one unit adds to a sound reader is sound. -/
theorem Sound.step (sound : reader.Sound) (stepped : reader.step unit = some next) :
    next.Sound := by
  obtain ⟨place, frames⟩ := reader
  obtain ⟨here, stack⟩ := sound
  cases place with
  | value => exact sound_beginValue stack stepped
  | firstItem =>
    dsimp only [Reader.step] at stepped
    split_ifs at stepped
    · cases stepped
      exact ⟨here, stack⟩
    · cases stepped
      exact ⟨List.forall_mem_singleton.mpr trivial, stack⟩
    · exact sound_beginValue (List.forall_mem_cons.mpr ⟨List.forall_mem_nil _, stack⟩) stepped
  | firstKey =>
    dsimp only [Reader.step] at stepped
    split_ifs at stepped
    · cases stepped
      exact ⟨here, stack⟩
    · cases stepped
      have empty : (JsonValue.object []).WellFormed :=
        ⟨⟨List.nodup_nil, List.Pairwise.nil⟩, trivial⟩
      exact ⟨List.forall_mem_singleton.mpr empty, stack⟩
    · exact sound_beginKey stack (List.forall_mem_nil _) stepped
  | nextKey entries => exact sound_beginKey stack here stepped
  | colon entries key =>
    dsimp only [Reader.step] at stepped
    split_ifs at stepped
    · cases stepped
      exact ⟨here, stack⟩
    · cases stepped
      exact ⟨nofun, List.forall_mem_cons.mpr ⟨here, stack⟩⟩
  | after value => exact sound_behindValue stack (here value List.mem_cons_self) stepped
  | atom letters =>
    dsimp only [Reader.step] at stepped
    split_ifs at stepped
    · cases stepped
      exact ⟨nofun, stack⟩
    · obtain ⟨value, valued, behind⟩ := Option.bind_eq_some_iff.mp stepped
      exact sound_behindValue stack (wellFormed_atomValue valued) behind
  | string purpose letters =>
    dsimp only [Reader.step] at stepped
    split_ifs at stepped
    · cases stepped
      cases purpose with
      | value => exact ⟨List.forall_mem_singleton.mpr trivial, stack⟩
      | key entries => exact ⟨here, stack⟩
    · cases stepped
      exact ⟨here, stack⟩
    · cases stepped
      exact ⟨here, stack⟩
  | escape purpose letters =>
    dsimp only [Reader.step] at stepped
    split_ifs at stepped
    · cases stepped
      exact ⟨here, stack⟩
    · obtain ⟨letter, -, rfl⟩ := Option.map_eq_some_iff.mp stepped
      exact ⟨here, stack⟩
  | hexadecimal purpose letters digits =>
    obtain ⟨digit, -, same⟩ := Option.map_eq_some_iff.mp stepped
    split_ifs at same
    · cases same
      exact ⟨here, stack⟩
    · cases same
      exact ⟨here, stack⟩

omit sound in
theorem Sound.result (sound : reader.Sound) {value : JsonValue}
    (ended : reader.result = some value) : value.WellFormed := by
  obtain ⟨place, frames⟩ := reader
  unfold Reader.result at ended
  dsimp only at ended
  split at ended
  · cases ended
    exact sound.place value List.mem_cons_self
  · exact wellFormed_atomValue ended
  · cases ended

omit sound in
theorem Sound.read (sound : reader.Sound) {text : JsString} {value : JsonValue}
    (done : reader.read text = some value) : value.WellFormed := by
  induction text generalizing reader with
  | nil => exact sound.result done
  | cons unit text ih =>
    obtain ⟨next, stepped, later⟩ := Option.bind_eq_some_iff.mp done
    exact ih (sound.step stepped) later

end Reader

theorem wellFormed_of_parseJson {text : JsString} {value : JsonValue}
    (parsed : parseJson text = some value) : value.WellFormed :=
  Reader.Sound.read ⟨List.forall_mem_nil _, List.forall_mem_nil _⟩ parsed

/-- A text is one of `JSON.stringify` exactly when writing what is read of it gives it back. -/
theorem exists_stringifyJson_iff {gap text : JsString}
    (blankGap : ∀ unit ∈ gap, isJsonSpace unit = true) {value : JsonValue}
    (parsed : parseJson text = some value) :
    (∃ value' : JsonValue, value'.WellFormed ∧ text = stringifyJson gap value') ↔
      stringifyJson gap value = text := by
  constructor
  · rintro ⟨value', wellFormed, rfl⟩
    rw [parseJson_stringifyJson blankGap wellFormed] at parsed
    cases parsed
    exact stringifyJson_reread value'
  · intro same
    exact ⟨value, wellFormed_of_parseJson parsed, same.symm⟩

end Ancore.Library.EcmaScript
