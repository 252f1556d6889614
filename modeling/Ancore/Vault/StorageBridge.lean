import Ancore.Library.JsonText

/-! # The bridge to the legacy storage

The secure storage manager keeps strings under keys.  An adapter of the older interface holds
values of any kind: `normalizeStorageAdapter` gives it the objects and arrays that texts of JSON
denote, and makes texts of them again when they are read.
-/

namespace Ancore.Vault

open Library Library.EcmaScript

variable {σ : Type}

/-- The older interface: a value that was set is there, as a copy, until its key is set again or
removed. -/
structure StorageAdapter (σ : Type) where
  empty : σ
  get : σ → JsString → Option JsonValue
  set : σ → JsString → JsonValue → σ
  remove : σ → JsString → σ
  get_empty (key : JsString) : get empty key = none
  get_set (state : σ) (key : JsString) (value : JsonValue) (key' : JsString) :
    get (set state key value) key' = if key' = key then some value else get state key'
  get_remove (state : σ) (key key' : JsString) :
    get (remove state key) key' = if key' = key then none else get state key'

/-- The interface that the secure storage manager uses. -/
structure PlatformStorageAdapter (σ : Type) where
  get : σ → JsString → Option JsString
  set : σ → JsString → JsString → σ
  delete : σ → JsString → σ

/-- `parsed !== null && typeof parsed === 'object'` -/
def isStructured : JsonValue → Bool
  | .array _ => true
  | .object _ => true
  | _ => false

def tryParseStructuredJson (value : JsString) : Option JsonValue :=
  let first := value.trimStart.head?
  if first ≠ some 0x7B ∧ first ≠ some 0x5B then none
  else (parseJson value).filter isStructured

/-- For an adapter of the older interface; one of the other is left as it is. -/
def normalizeStorageAdapter (storage : StorageAdapter σ) : PlatformStorageAdapter σ where
  get state key :=
    match storage.get state key with
    | none => none
    | some .null => none
    | some (.string value) => some value
    | some value => some (stringifyJson [] value)
  set state key value :=
    let structured := tryParseStructuredJson value
    storage.set state key (structured.getD (.string value))
  delete state key := storage.remove state key

/-! ## Sequences of calls -/

inductive StorageCall where
  | get (key : JsString)
  | set (key value : JsString)
  | delete (key : JsString)

def StorageCall.next (adapter : PlatformStorageAdapter σ) (state : σ) : StorageCall → σ
  | get _ => state
  | set key value => adapter.set state key value
  | delete key => adapter.delete state key

/-- The state of the adapter after calls, from the empty one on. -/
def afterCalls (legacy : StorageAdapter σ) (calls : List StorageCall) : σ :=
  calls.foldl (StorageCall.next (normalizeStorageAdapter legacy)) legacy.empty

/-- The string that a call leaves under a key. -/
def StorageCall.kept (key : JsString) (before : Option JsString) : StorageCall → Option JsString
  | get _ => before
  | set key' value => if key = key' then some value else before
  | delete key' => if key = key' then none else before

/-- The string that was last set under a key, where it is not deleted. -/
def lastSet (calls : List StorageCall) (key : JsString) : Option JsString :=
  calls.foldl (StorageCall.kept key) none

/-- The calls of which every `get` answers with the string that was last set. -/
def PreservesBytes (legacy : StorageAdapter σ) (calls : List StorageCall) : Prop :=
  ∀ earlier key later, calls = earlier ++ .get key :: later →
    (normalizeStorageAdapter legacy).get (afterCalls legacy earlier) key = lastSet earlier key

/-- A text of JSON for an array or an object is the one that `JSON.stringify` writes for it. -/
def Canonical (text : JsString) : Prop :=
  ∀ value, parseJson text = some value → isStructured value = true →
    ∃ value' : JsonValue, value'.WellFormed ∧ text = stringifyJson [] value'

/-- An adapter that holds its values in a function. -/
def functionAdapter : StorageAdapter (JsString → Option JsonValue) where
  empty := fun _ => none
  get state key := state key
  set state key value := Function.update state key (some value)
  remove state key := Function.update state key none
  get_empty _ := rfl
  get_set _ _ _ _ := Function.update_apply ..
  get_remove _ _ _ := Function.update_apply ..

theorem space_is_lost : ¬ PreservesBytes functionAdapter
    [.set (ascii "settings") (ascii "\x7b\"dark\": true\x7d"), .get (ascii "settings")] := by
  intro preserved
  have answer := preserved [.set (ascii "settings") (ascii "\x7b\"dark\": true\x7d")]
    (ascii "settings") [] rfl
  revert answer
  decide

/-! ## Texts of arrays and objects -/

/-- The reader is in a value that is neither an array nor an object, and in nothing else. -/
inductive Scalar : Reader → Prop where
  | after {value : JsonValue} (plain : isStructured value = false) : Scalar ⟨.after value, []⟩
  | atom {letters : JsString} : Scalar ⟨.atom letters, []⟩
  | string {letters : JsString} : Scalar ⟨.string .value letters, []⟩
  | escape {letters : JsString} : Scalar ⟨.escape .value letters, []⟩
  | hexadecimal {letters : JsString} {digits : List ℕ} :
    Scalar ⟨.hexadecimal .value letters digits, []⟩

theorem isStructured_atomValue {letters : JsString} {value : JsonValue}
    (valued : atomValue letters = some value) : isStructured value = false := by
  unfold atomValue at valued
  split_ifs at valued
  · cases valued
    rfl
  · cases valued
    rfl
  · cases valued
    rfl
  · obtain ⟨number, -, rfl⟩ := Option.map_eq_some_iff.mp valued
    rfl

theorem scalar_behindValue {value : JsonValue} {unit : ℕ} {next : Reader}
    (plain : isStructured value = false) (behind : Reader.behindValue value [] unit = some next) :
    Scalar next := by
  dsimp only [Reader.behindValue] at behind
  split_ifs at behind
  cases behind
  exact .after plain

theorem Scalar.step {reader next : Reader} {unit : ℕ} (scalar : Scalar reader)
    (stepped : reader.step unit = some next) : Scalar next := by
  cases scalar with
  | after plain => exact scalar_behindValue plain stepped
  | atom =>
    dsimp only [Reader.step] at stepped
    split_ifs at stepped
    · cases stepped
      exact .atom
    · obtain ⟨value, valued, behind⟩ := Option.bind_eq_some_iff.mp stepped
      exact scalar_behindValue (isStructured_atomValue valued) behind
  | string =>
    dsimp only [Reader.step] at stepped
    split_ifs at stepped
    · cases stepped
      exact .after rfl
    · cases stepped
      exact .escape
    · cases stepped
      exact .string
  | escape =>
    dsimp only [Reader.step] at stepped
    split_ifs at stepped
    · cases stepped
      exact .hexadecimal
    · obtain ⟨letter, -, rfl⟩ := Option.map_eq_some_iff.mp stepped
      exact .string
  | hexadecimal =>
    obtain ⟨digit, -, same⟩ := Option.map_eq_some_iff.mp stepped
    split_ifs at same
    · cases same
      exact .hexadecimal
    · cases same
      exact .string

theorem Scalar.read {reader : Reader} {text : JsString} {value : JsonValue} (scalar : Scalar reader)
    (done : reader.read text = some value) : isStructured value = false := by
  induction text generalizing reader with
  | nil =>
    cases scalar with
    | after plain =>
      cases done
      exact plain
    | atom => exact isStructured_atomValue done
    | string => cases done
    | escape => cases done
    | hexadecimal => cases done
  | cons unit text ih =>
    obtain ⟨next, stepped, later⟩ := Option.bind_eq_some_iff.mp done
    exact ih (scalar.step stepped) later

theorem isWhiteSpace_of_isJsonSpace {unit : ℕ} (space : isJsonSpace unit = true) :
    JsString.isWhiteSpace unit = true := by
  simp only [isJsonSpace, List.mem_cons, List.not_mem_nil, or_false, decide_eq_true_eq] at space
  rcases space with rfl | rfl | rfl | rfl <;> rfl

/-- A text for an array or an object begins with its bracket or brace, behind white space. -/
theorem head_of_isStructured {text : JsString} {value : JsonValue}
    (parsed : parseJson text = some value) (structured : isStructured value = true) :
    text.trimStart.head? = some 0x7B ∨ text.trimStart.head? = some 0x5B := by
  induction text with
  | nil => cases parsed
  | cons unit text ih =>
    obtain ⟨next, stepped, later⟩ := Option.bind_eq_some_iff.mp parsed
    have notScalar : ¬ Scalar next := fun scalar => by
      rw [scalar.read later] at structured
      cases structured
    dsimp only [Reader.step, Reader.beginValue] at stepped
    split_ifs at stepped with space _ bracket brace
    · cases stepped
      have dropped : JsString.trimStart (unit :: text) = JsString.trimStart text :=
        List.dropWhile_cons_of_pos (isWhiteSpace_of_isJsonSpace space)
      rw [dropped]
      exact ih later
    · cases stepped
      exact absurd .string notScalar
    · rw [bracket]
      exact .inr rfl
    · rw [brace]
      exact .inl rfl
    · cases stepped
      exact absurd .atom notScalar

/-- The test of the first letter leaves out nothing that is parsed. -/
theorem tryParseStructuredJson_eq (text : JsString) :
    tryParseStructuredJson text = (parseJson text).filter isStructured := by
  unfold tryParseStructuredJson
  dsimp only
  split_ifs with other
  · cases parsed : parseJson text with
    | none => rfl
    | some value =>
      rw [Option.filter_some, if_neg]
      intro structured
      rcases head_of_isStructured parsed structured with brace | bracket
      · exact other.1 brace
      · exact other.2 bracket
  · rfl

/-! ## What is read back -/

/-- What the bridge gives the adapter for a string. -/
def stored (text : JsString) : JsonValue := (tryParseStructuredJson text).getD (.string text)

/-- What the bridge makes of a value of the adapter. -/
def returned : JsonValue → Option JsString
  | .null => none
  | .string value => some value
  | value => some (stringifyJson [] value)

theorem get_normalizeStorageAdapter (legacy : StorageAdapter σ) (state : σ) (key : JsString) :
    (normalizeStorageAdapter legacy).get state key = (legacy.get state key).bind returned := by
  unfold normalizeStorageAdapter
  dsimp only
  cases legacy.get state key with
  | none => rfl
  | some value => cases value <;> rfl

/-- A string comes back as it is exactly when it is canonical. -/
theorem returned_stored_iff (text : JsString) :
    returned (stored text) = some text ↔ Canonical text := by
  rw [stored, tryParseStructuredJson_eq]
  cases found : (parseJson text).filter isStructured with
  | none =>
    refine ⟨fun _ value parsed structured => ?_, fun _ => rfl⟩
    rw [parsed, Option.filter_some, if_pos structured] at found
    cases found
  | some value =>
    obtain ⟨parsed, structured⟩ := Option.filter_eq_some_iff.mp found
    have written : returned value = some (stringifyJson [] value) := by
      cases value <;> first | rfl | cases structured
    rw [Option.getD_some, written, Option.some.injEq,
      ← exists_stringifyJson_iff (List.forall_mem_nil _) parsed]
    constructor
    · intro canonical value' parsed' _
      exact canonical
    · exact fun canonical => canonical value parsed structured

/-- Under every key the adapter has what the bridge made of the string that was last set. -/
theorem get_afterCalls (legacy : StorageAdapter σ) (calls : List StorageCall) (key : JsString) :
    legacy.get (afterCalls legacy calls) key = (lastSet calls key).map stored := by
  have each (state : σ) (before : Option JsString)
      (same : legacy.get state key = before.map stored) :
      legacy.get (calls.foldl (StorageCall.next (normalizeStorageAdapter legacy)) state) key =
        (calls.foldl (StorageCall.kept key) before).map stored := by
    induction calls generalizing state before with
    | nil => exact same
    | cons call calls ih =>
      refine ih _ _ ?_
      cases call with
      | get key' => exact same
      | set key' value =>
        refine (legacy.get_set state key' (stored value) key).trans ?_
        rw [StorageCall.kept, same]
        split_ifs <;> rfl
      | delete key' =>
        refine (legacy.get_remove state key' key).trans ?_
        rw [StorageCall.kept, same]
        split_ifs <;> rfl
  exact each legacy.empty none (legacy.get_empty key)

/-- Every `get` of a sequence of calls answers with the string that was last set exactly when the
strings that it reads are canonical. -/
theorem preservesBytes_iff (legacy : StorageAdapter σ) (calls : List StorageCall) :
    PreservesBytes legacy calls ↔ ∀ earlier key later text,
      calls = earlier ++ .get key :: later → lastSet earlier key = some text → Canonical text := by
  have answer (earlier : List StorageCall) (key : JsString) :
      (normalizeStorageAdapter legacy).get (afterCalls legacy earlier) key =
        ((lastSet earlier key).map stored).bind returned := by
    rw [get_normalizeStorageAdapter, get_afterCalls]
  constructor
  · intro preserved earlier key later text located last
    have same := preserved earlier key later located
    rw [answer, last] at same
    exact (returned_stored_iff text).mp same
  · intro canonical earlier key later located
    rw [answer]
    cases last : lastSet earlier key with
    | none => rfl
    | some text =>
      exact (returned_stored_iff text).mpr (canonical earlier key later text located last)

end Ancore.Vault
