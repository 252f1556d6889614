import Ancore.Contacts.Store
import Ancore.Library.JsonText

/-! # Backups of the contacts

Contacts are written as a text of JSON and read from one, either instead of those of the store or
into them.
-/

namespace Ancore.Contacts

open Library Library.EcmaScript

variable (environment : Environment)

/-! ## Export -/

/-- What a backup keeps of a contact. -/
def Contact.content (contact : Contact) : JsString × JsString × Bool :=
  (contact.alias, contact.address, contact.isFavorite)

def exportItem (contact : Contact) : JsonValue :=
  .object [(ascii "alias", .string contact.alias), (ascii "address", .string contact.address),
    (ascii "isFavorite", .bool contact.isFavorite)]

/-- A natural number as the nearest number. -/
def numberOfNat (number : ℕ) : JsNumber := .nearest false number

/-- `ContactBackupFile`, made at a time that is given as its text. -/
def contactBackupFile (exportedAt : JsString) (contacts : List Contact) : JsonValue :=
  let exportItems := contacts.map exportItem
  .object [(ascii "version", .number (numberOfNat 1)),
    (ascii "exportedAt", .string exportedAt),
    (ascii "count", .number (numberOfNat exportItems.length)),
    (ascii "contacts", .array exportItems)]

def exportContactsAsJSON (exportedAt : JsString) (contacts : List Contact) : JsString :=
  let backup := contactBackupFile exportedAt contacts
  stringifyJson [0x20, 0x20] backup

/-! ## Import -/

/-- The properties of what is an object to `typeof`; an array has none of those that are looked
for. -/
def objectProperties : JsonValue → Option (List (JsString × JsonValue))
  | .array _ => some []
  | .object members => some members
  | _ => none

def property (members : List (JsString × JsonValue)) (name : String) : Option JsonValue :=
  (members.find? fun member => member.1 = ascii name).map Prod.snd

def asString : Option JsonValue → Option JsString
  | some (.string value) => some value
  | _ => none

def decimal (number : ℕ) : JsString := (Nat.toDigits 10 number).map Char.toNat

/-- One turn of the loop over the entries. -/
def parseContact (index : ℕ) (item : JsonValue) : Except ContactsError ContactPayload :=
  match objectProperties item with
  | none => .error (.contactsIOError (ascii "Contact entry at index " ++ decimal index ++
      ascii " must be an object"))
  | some members =>
    match (asString (property members "alias")).filter fun name => name.trim ≠ [] with
    | none => .error (.contactsIOError (ascii "Contact at index " ++ decimal index ++
        ascii " is missing a valid alias"))
    | some name =>
      match (asString (property members "address")).filter fun address => address.trim ≠ [] with
      | none => .error (.contactsIOError (ascii "Contact \"" ++ name ++
          ascii "\" is missing a Stellar address"))
      | some address =>
        if environment.isValidEd25519PublicKey address.trim = false then
          .error (.contactsIOError (ascii "Contact \"" ++ name ++
            ascii "\" has an invalid Stellar address: \"" ++ address ++ ascii "\""))
        else
          let isFavorite := match property members "isFavorite" with
            | some (.bool value) => value
            | _ => false
          .ok { «alias» := name.trim, address := address.trim, isFavorite := some isFavorite }

def parseContactsFrom : ℕ → List JsonValue → Except ContactsError (List ContactPayload)
  | _, [] => .ok []
  | index, item :: items => do
    let payload ← parseContact environment index item
    let payloads ← parseContactsFrom (index + 1) items
    return payload :: payloads

/-- The entries of a backup: of the array itself, or of the array among its properties. -/
def rawListOf (parsed : JsonValue) : Option (List JsonValue) :=
  match parsed with
  | .array items => some items
  | .object members =>
    match property members "contacts" with
    | some (.array items) => some items
    | _ => none
  | _ => none

def parseContactsJSON (raw : JsString) : Except ContactsError (List ContactPayload) :=
  if raw.trim = [] then .error (.contactsIOError (ascii "Backup JSON cannot be empty"))
  else
    match parseJson raw with
    | none => .error (.contactsIOError (ascii "Invalid JSON format"))
    | some parsed =>
      match rawListOf parsed with
      | none => .error (.contactsIOError (ascii "Invalid contacts backup format: " ++
          ascii "must be an array or contain a \"contacts\" array"))
      | some rawList => parseContactsFrom environment 0 rawList

inductive ImportMode where
  | merge
  | replace

structure ImportContactsResult where
  imported : ℕ
  updated : ℕ
  skipped : ℕ
  total : ℕ
deriving DecidableEq

/-- `try { store.addContact(item); imported++ } catch { skipped++ }` -/
def tryAddContact (item : ContactPayload) (counts : ImportContactsResult) :
    Attempt ContactsError ContactsState ImportContactsResult :=
  Attempt.tryCatch
    (do
      let _ ← addContact environment item
      return { counts with imported := counts.imported + 1 })
    fun _ => return { counts with skipped := counts.skipped + 1 }

def replaceContacts : List ContactPayload → ImportContactsResult →
    Attempt ContactsError ContactsState ImportContactsResult
  | [], counts => return counts
  | item :: items, counts => do
    let counts ← tryAddContact environment item counts
    replaceContacts items counts

/-- One turn of the loop: the contact is looked up in the store as it was before the loop. -/
def mergeContact (snapshot : List Contact) (item : ContactPayload) (counts : ImportContactsResult) :
    Attempt ContactsError ContactsState ImportContactsResult :=
  match snapshot.find? fun contact =>
      environment.toLowerCase contact.alias = environment.toLowerCase item.alias with
  | some existing =>
    if existing.address ≠ item.address ∨ some existing.isFavorite ≠ item.isFavorite then do
      let _ ← updateContact environment existing.id
        { «alias» := none, address := some item.address, isFavorite := item.isFavorite }
      return { counts with updated := counts.updated + 1 }
    else return { counts with skipped := counts.skipped + 1 }
  | none => tryAddContact environment item counts

def mergeContacts (snapshot : List Contact) : List ContactPayload → ImportContactsResult →
    Attempt ContactsError ContactsState ImportContactsResult
  | [], counts => return counts
  | item :: items, counts => do
    let counts ← mergeContact environment snapshot item counts
    mergeContacts snapshot items counts

def importContacts (rawJson : JsString) (mode : ImportMode) :
    Attempt ContactsError ContactsState ImportContactsResult := fun state =>
  match parseContactsJSON environment rawJson with
  | .error error => (.error error, state)
  | .ok incoming =>
    let counts := { imported := 0, updated := 0, skipped := 0, total := incoming.length }
    match mode with
    | .replace => (do
        clear
        replaceContacts environment incoming counts : Attempt _ _ _) state
    | .merge => mergeContacts environment state.contacts incoming counts state

/-! ## Every store -/

/-- A call of the store or of its import; which error it throws does not matter here. -/
inductive ContactsCall where
  | addContact (payload : ContactPayload)
  | updateContact (id : JsString) (patch : ContactPatch)
  | removeContact (id : JsString)
  | toggleFavorite (id : JsString)
  | clear
  | importContacts (rawJson : JsString) (mode : ImportMode)

def ContactsCall.next (state : ContactsState) : ContactsCall → ContactsState
  | addContact payload => (Contacts.addContact environment payload state).2
  | updateContact id patch => (Contacts.updateContact environment id patch state).2
  | removeContact id => (Contacts.removeContact id state).2
  | toggleFavorite id => (Contacts.toggleFavorite environment id state).2
  | clear => (Contacts.clear state).2
  | importContacts rawJson mode => (Contacts.importContacts environment rawJson mode state).2

/-- The store after calls, from the empty one on. -/
def storeAfter (calls : List ContactsCall) : ContactsState :=
  calls.foldl (ContactsCall.next environment) ⟨[], 0, 0⟩

/-! ## What is parsed -/

/-- An entry as the parser gives it. -/
structure Parsed (payload : ContactPayload) : Prop where
  trimmed : payload.alias.Trimmed
  named : payload.alias ≠ []
  valid : environment.isValidEd25519PublicKey payload.address = true
  flagged : payload.isFavorite ≠ none

variable {environment}

theorem parsed_of_parseContact {index : ℕ} {item : JsonValue} {payload : ContactPayload}
    (ok : parseContact environment index item = .ok payload) : Parsed environment payload := by
  unfold parseContact at ok
  split at ok
  · cases ok
  · split at ok
    · cases ok
    · rename_i name isName
      obtain ⟨-, named⟩ := Option.filter_eq_some_iff.mp isName
      split at ok
      · cases ok
      · split_ifs at ok with invalid
        cases ok
        exact ⟨JsString.trimmed_trim name, of_decide_eq_true named, by simpa using invalid, nofun⟩

theorem parsed_of_parseContactsFrom {index : ℕ} {items : List JsonValue}
    {payloads : List ContactPayload}
    (ok : parseContactsFrom environment index items = .ok payloads) :
    ∀ payload ∈ payloads, Parsed environment payload := by
  induction items generalizing index payloads with
  | nil =>
    cases ok
    exact List.forall_mem_nil _
  | cons item items ih =>
    cases first : parseContact environment index item with
    | error error =>
      rw [parseContactsFrom, first] at ok
      cases ok
    | ok payload =>
      cases rest : parseContactsFrom environment (index + 1) items with
      | error error =>
        rw [parseContactsFrom, first, rest] at ok
        cases ok
      | ok others =>
        rw [parseContactsFrom, first, rest] at ok
        cases ok
        exact List.forall_mem_cons.mpr ⟨parsed_of_parseContact first, ih rest⟩

theorem parsed_of_parseContactsJSON {raw : JsString} {payloads : List ContactPayload}
    (ok : parseContactsJSON environment raw = .ok payloads) :
    ∀ payload ∈ payloads, Parsed environment payload := by
  unfold parseContactsJSON at ok
  split_ifs at ok
  split at ok
  · cases ok
  · split at ok
    · cases ok
    · exact parsed_of_parseContactsFrom ok

/-! ## Adding an entry -/

section TryAddContact

variable {item : ContactPayload} {state : ContactsState} (counts : ImportContactsResult)
  (valid : environment.isValidEd25519PublicKey item.address = true)
include valid

theorem tryAddContact_of_fresh (fresh : environment.toLowerCase item.alias.trim ∉
      state.contacts.map (aliasKey environment)) :
    tryAddContact environment item counts state =
      (.ok { counts with imported := counts.imported + 1 },
        state.extended (newContact environment item state)) := by
  have added : (do
      let _ ← addContact environment item
      return { counts with imported := counts.imported + 1 } :
        Attempt ContactsError ContactsState ImportContactsResult) state = _ :=
    Attempt.bind_of_ok (addContact_of_fresh valid fresh)
  exact Attempt.tryCatch_of_ok added

theorem tryAddContact_of_taken (taken : environment.toLowerCase item.alias.trim ∈
      state.contacts.map (aliasKey environment)) :
    tryAddContact environment item counts state =
      (.ok { counts with skipped := counts.skipped + 1 }, state) := by
  have refused : (do
      let _ ← addContact environment item
      return { counts with imported := counts.imported + 1 } :
        Attempt ContactsError ContactsState ImportContactsResult) state = _ :=
    Attempt.bind_of_error (addContact_of_taken valid taken)
  exact Attempt.tryCatch_of_error refused

end TryAddContact

/-! ## What an import preserves -/

section Preserves

open Attempt (Preserves)

variable {holds : ContactsState → Prop}

theorem tryAddContact_preserves {item : ContactPayload}
    (added : Preserves holds (addContact environment item)) (counts : ImportContactsResult) :
    Preserves holds (tryAddContact environment item counts) :=
  Preserves.tryCatch (added.bind fun _ => Preserves.pure _) fun _ => Preserves.pure _

theorem replaceContacts_preserves {items : List ContactPayload}
    (added : ∀ item ∈ items, Preserves holds (addContact environment item))
    (counts : ImportContactsResult) :
    Preserves holds (replaceContacts environment items counts) := by
  induction items generalizing counts with
  | nil => exact Preserves.pure counts
  | cons item items ih =>
    obtain ⟨first, rest⟩ := List.forall_mem_cons.mp added
    exact (tryAddContact_preserves first counts).bind (ih rest)

theorem mergeContacts_preserves {items : List ContactPayload}
    (added : ∀ item ∈ items, Preserves holds (addContact environment item))
    (updated : ∀ id patch, patch.alias = none →
      Preserves holds (updateContact environment id patch))
    (snapshot : List Contact) (counts : ImportContactsResult) :
    Preserves holds (mergeContacts environment snapshot items counts) := by
  induction items generalizing counts with
  | nil => exact Preserves.pure counts
  | cons item items ih =>
    obtain ⟨first, rest⟩ := List.forall_mem_cons.mp added
    refine Preserves.bind ?_ (ih rest)
    unfold mergeContact
    split
    · split_ifs
      · exact (updated _ _ rfl).bind fun _ => Preserves.pure _
      · exact Preserves.pure _
    · exact tryAddContact_preserves first counts

theorem importContacts_preserves (cleared : Preserves holds clear)
    (added : ∀ item, Parsed environment item → Preserves holds (addContact environment item))
    (updated : ∀ id patch, patch.alias = none →
      Preserves holds (updateContact environment id patch))
    (rawJson : JsString) (mode : ImportMode) :
    Preserves holds (importContacts environment rawJson mode) := by
  intro state held
  unfold importContacts
  split
  · exact held
  · rename_i incoming ok
    have each : ∀ item ∈ incoming, Preserves holds (addContact environment item) :=
      fun item member => added item (parsed_of_parseContactsJSON ok item member)
    cases mode with
    | replace => exact cleared.bind (fun _ => replaceContacts_preserves each _) state held
    | merge => exact mergeContacts_preserves each updated state.contacts _ state held

theorem storeAfter_induction {calls : List ContactsCall} (empty : holds ⟨[], 0, 0⟩)
    (each : ∀ call ∈ calls, ∀ state, holds state → holds (call.next environment state)) :
    holds (storeAfter environment calls) := by
  induction calls using List.reverseRecOn with
  | nil => exact empty
  | append_singleton calls call ih =>
    obtain ⟨earlier, last⟩ := List.forall_mem_append.mp each
    rw [storeAfter, List.foldl_append]
    exact List.forall_mem_singleton.mp last _ (ih earlier)

end Preserves

theorem sound_storeAfter (calls : List ContactsCall) :
    (storeAfter environment calls).Sound environment := by
  have empty : ContactsState.Sound environment ⟨[], 0, 0⟩ :=
    ⟨List.nodup_nil, List.forall_mem_nil _, List.nodup_nil, List.forall_mem_nil _,
      List.forall_mem_nil _⟩
  refine storeAfter_induction empty fun call _ state sound => ?_
  cases call with
  | addContact payload => exact addContact_preserves environment payload state sound
  | updateContact id patch => exact updateContact_preserves environment id patch state sound
  | removeContact id => exact removeContact_preserves environment id state sound
  | toggleFavorite id => exact toggleFavorite_preserves environment id state sound
  | clear => exact clear_preserves environment state sound
  | importContacts rawJson mode =>
    exact importContacts_preserves (clear_preserves environment)
      (fun item _ => addContact_preserves environment item)
      (fun id patch _ => updateContact_preserves environment id patch) rawJson mode state sound

end Ancore.Contacts
