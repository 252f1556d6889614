import Ancore.Library.Attempt
import Ancore.Library.CodeUnits
import Ancore.Library.RecordTable

/-! # The contacts store

Saved recipients, each with an alias that no other one has, whatever its case.
-/

namespace Ancore.Contacts

open Library Library.EcmaScript

/-- What the store is given: the check of a public key by the SDK, whose keys are 56 letters without
white space, the lower case of Unicode, identifiers that are never given twice, and a clock that is
read again and again. -/
structure Environment where
  isValidEd25519PublicKey : JsString → Bool
  toLowerCase : JsString → JsString
  randomUUID : ℕ → JsString
  dateNow : ℕ → ℕ
  length_of_valid {key : JsString} (valid : isValidEd25519PublicKey key = true) : key.length = 56
  solid_of_valid {key : JsString} (valid : isValidEd25519PublicKey key = true) :
    ∀ unit ∈ key, JsString.isWhiteSpace unit = false
  randomUUID_injective : Function.Injective randomUUID

structure Contact where
  id : JsString
  «alias» : JsString
  address : JsString
  isFavorite : Bool
  createdAt : ℕ
  updatedAt : Option ℕ
deriving DecidableEq

structure ContactPayload where
  «alias» : JsString
  address : JsString
  isFavorite : Option Bool

/-- `Partial<ContactPayload>`: a property that is there has a value. -/
structure ContactPatch where
  «alias» : Option JsString
  address : Option JsString
  isFavorite : Option Bool

/-- The errors of the store and of its backups. -/
inductive ContactsError where
  | duplicateAlias (name : JsString)
  | invalidContactAddress (address : JsString)
  | contactsIOError (message : JsString)

def ContactsError.message : ContactsError → JsString
  | duplicateAlias name => ascii "A contact with alias \"" ++ name ++ ascii "\" already exists"
  | invalidContactAddress address => ascii "Invalid Stellar address: \"" ++ address ++ ascii "\""
  | contactsIOError message => message

def sampleKeys : List JsString :=
  [ascii "GDP27GNQUPVJQ2JRZC5N5YYNLMKNVYF5AJOOKWQ2R4PKAKMMV77O5EIY",
    ascii "GDX7IBH35QYGRVFKSXXYINHDQSKV7SRZ7EFVYYI4USSK66BRSZWDVE5C"]

/-- Two public keys, the lower case of ASCII, and identifiers of one unit. -/
def sampleEnvironment : Environment where
  isValidEd25519PublicKey key := key ∈ sampleKeys
  toLowerCase text := text.map fun unit => if 0x41 ≤ unit ∧ unit ≤ 0x5A then unit + 0x20 else unit
  randomUUID draw := [draw]
  dateNow reading := reading
  length_of_valid valid := by
    have lengths : ∀ key ∈ sampleKeys, key.length = 56 := by decide
    exact lengths _ (of_decide_eq_true valid)
  solid_of_valid valid := by
    have solid : ∀ key ∈ sampleKeys, ∀ unit ∈ key, JsString.isWhiteSpace unit = false := by decide
    exact solid _ (of_decide_eq_true valid)
  randomUUID_injective := List.singleton_injective

/-- The contacts, with the numbers of identifiers and of times that were given so far. -/
structure ContactsState where
  contacts : List Contact
  drawn : ℕ
  readings : ℕ

variable (environment : Environment)

def aliasKey (contact : Contact) : JsString := environment.toLowerCase contact.alias

def newContact (payload : ContactPayload) (state : ContactsState) : Contact where
  id := environment.randomUUID state.drawn
  «alias» := payload.alias.trim
  address := payload.address
  isFavorite := payload.isFavorite.getD false
  createdAt := environment.dateNow state.readings
  updatedAt := none

def addContact (payload : ContactPayload) : Attempt ContactsError ContactsState Contact :=
  fun state =>
    let normalizedAlias := payload.alias.trim
    if environment.isValidEd25519PublicKey payload.address = false then
      (.error (.invalidContactAddress payload.address), state)
    else if state.contacts.any fun contact =>
        environment.toLowerCase contact.alias = environment.toLowerCase normalizedAlias then
      (.error (.duplicateAlias normalizedAlias), state)
    else
      let contact := newContact environment payload state
      (.ok contact,
        { contacts := state.contacts ++ [contact]
          drawn := state.drawn + 1
          readings := state.readings + 1 })

/-- `{ ...existing, ...patch, updatedAt }` -/
def patchedContact (patch : ContactPatch) (existing : Contact) (state : ContactsState) : Contact :=
  { existing with
    «alias» := (patch.alias.map JsString.trim).getD existing.alias
    address := patch.address.getD existing.address
    isFavorite := patch.isFavorite.getD existing.isFavorite
    updatedAt := some (environment.dateNow state.readings) }

def updateContact (id : JsString) (patch : ContactPatch) :
    Attempt ContactsError ContactsState (Option Contact) := fun state =>
  match state.contacts.find? fun contact => contact.id = id with
  | none => (.ok none, state)
  | some existing =>
    let normalizedAlias := patch.alias.map JsString.trim
    let conflicting := normalizedAlias.filter fun name => state.contacts.any fun contact =>
      contact.id ≠ id ∧ environment.toLowerCase contact.alias = environment.toLowerCase name
    let invalid := patch.address.filter fun address =>
      environment.isValidEd25519PublicKey address = false
    match conflicting, invalid with
    | some name, _ => (.error (.duplicateAlias name), state)
    | none, some address => (.error (.invalidContactAddress address), state)
    | none, none =>
      let updated := patchedContact environment patch existing state
      (.ok (some updated),
        { state with
          contacts := state.contacts.map fun contact => if contact.id = id then updated else contact
          readings := state.readings + 1 })

def removeContact (id : JsString) : Attempt ContactsError ContactsState Unit := fun state =>
  (.ok (), { state with contacts := state.contacts.filter fun contact => contact.id ≠ id })

def toggleFavorite (id : JsString) : Attempt ContactsError ContactsState Unit := fun state =>
  let toggled := state.contacts.map fun contact =>
    if contact.id = id then
      { contact with
        isFavorite := !contact.isFavorite
        updatedAt := some (environment.dateNow state.readings) }
    else contact
  (.ok (), { state with contacts := toggled, readings := state.readings + 1 })

def clear : Attempt ContactsError ContactsState Unit := fun state =>
  (.ok (), { state with contacts := [] })

/-! ## What holds of every store -/

/-- No two contacts have one identifier or one alias, and each passed the checks of the store. -/
structure ContactsState.Sound (state : ContactsState) : Prop where
  ids : (state.contacts.map Contact.id).Nodup
  drawn : ∀ contact ∈ state.contacts, ∃ draw < state.drawn, contact.id = environment.randomUUID draw
  aliases : (state.contacts.map (aliasKey environment)).Nodup
  trimmed : ∀ contact ∈ state.contacts, contact.alias.Trimmed
  valid : ∀ contact ∈ state.contacts, environment.isValidEd25519PublicKey contact.address = true

/-- The store holds this contact besides those that it had. -/
def ContactsState.extended (state : ContactsState) (contact : Contact) : ContactsState where
  contacts := state.contacts ++ [contact]
  drawn := state.drawn + 1
  readings := state.readings + 1

/-- The store holds this contact instead of the one with an identifier. -/
def ContactsState.replaced (state : ContactsState) (id : JsString) (contact : Contact) :
    ContactsState :=
  { state with
    contacts := modifyRow Contact.id state.contacts id fun _ => contact
    readings := state.readings + 1 }

section Calls

variable {environment} {state : ContactsState} {payload : ContactPayload} {patch : ContactPatch}
  {id : JsString}

theorem taken_iff {name : JsString} :
    (state.contacts.any fun contact =>
      environment.toLowerCase contact.alias = environment.toLowerCase name) = true ↔
      environment.toLowerCase name ∈ state.contacts.map (aliasKey environment) := by
  simp [aliasKey]

theorem addContact_of_invalid
    (invalid : environment.isValidEd25519PublicKey payload.address = false) :
    addContact environment payload state =
      (.error (.invalidContactAddress payload.address), state) := if_pos invalid

theorem addContact_of_taken (valid : environment.isValidEd25519PublicKey payload.address = true)
    (taken : environment.toLowerCase payload.alias.trim ∈
      state.contacts.map (aliasKey environment)) :
    addContact environment payload state =
      (.error (.duplicateAlias payload.alias.trim), state) := by
  unfold addContact
  rw [if_neg (by rw [valid]; exact nofun), if_pos (taken_iff.mpr taken)]

theorem addContact_of_fresh (valid : environment.isValidEd25519PublicKey payload.address = true)
    (fresh : environment.toLowerCase payload.alias.trim ∉
      state.contacts.map (aliasKey environment)) :
    addContact environment payload state =
      (.ok (newContact environment payload state),
        state.extended (newContact environment payload state)) := by
  unfold addContact
  rw [if_neg (by rw [valid]; exact nofun), if_neg (mt taken_iff.mp fresh)]
  rfl

variable (environment payload state) in
/-- A contact is added or nothing happens. -/
theorem addContact_cases :
    (∃ error, addContact environment payload state = (.error error, state)) ∨
      environment.isValidEd25519PublicKey payload.address = true ∧
      environment.toLowerCase payload.alias.trim ∉ state.contacts.map (aliasKey environment) ∧
      addContact environment payload state =
        (.ok (newContact environment payload state),
          state.extended (newContact environment payload state)) := by
  cases valid : environment.isValidEd25519PublicKey payload.address with
  | false => exact .inl ⟨_, addContact_of_invalid valid⟩
  | true =>
    by_cases taken : environment.toLowerCase payload.alias.trim ∈
        state.contacts.map (aliasKey environment)
    · exact .inl ⟨_, addContact_of_taken valid taken⟩
    · exact .inr ⟨rfl, taken, addContact_of_fresh valid taken⟩

/-- A patch that the store takes for the contact with an identifier. -/
structure Acceptable (environment : Environment) (patch : ContactPatch) (id : JsString)
    (state : ContactsState) : Prop where
  unique : ∀ name ∈ patch.alias, ∀ contact ∈ state.contacts, contact.id ≠ id →
    aliasKey environment contact ≠ environment.toLowerCase name.trim
  valid : ∀ address ∈ patch.address, environment.isValidEd25519PublicKey address = true

theorem acceptable_iff : Acceptable environment patch id state ↔
    ((patch.alias.map JsString.trim).filter fun name => state.contacts.any fun contact =>
      contact.id ≠ id ∧ environment.toLowerCase contact.alias = environment.toLowerCase name) =
      none ∧
    (patch.address.filter fun address =>
      environment.isValidEd25519PublicKey address = false) = none := by
  rw [Option.filter_eq_none_iff, Option.filter_eq_none_iff]
  constructor
  · rintro ⟨unique, valid⟩
    constructor
    · intro trimmed isTrimmed conflicting
      obtain ⟨name, isName, rfl⟩ := Option.map_eq_some_iff.mp isTrimmed
      obtain ⟨contact, member, conflict⟩ := List.any_eq_true.mp conflicting
      obtain ⟨other, same⟩ := of_decide_eq_true conflict
      exact unique name isName contact member other same
    · intro address isAddress invalid
      rw [valid address isAddress] at invalid
      cases invalid
  · rintro ⟨unique, valid⟩
    constructor
    · intro name isName contact member other same
      refine unique name.trim (Option.map_eq_some_iff.mpr ⟨name, isName, rfl⟩) ?_
      exact List.any_eq_true.mpr ⟨contact, member, decide_eq_true ⟨other, same⟩⟩
    · intro address isAddress
      have notInvalid := valid address isAddress
      simpa using notInvalid

theorem updateContact_of_acceptable {existing : Contact}
    (acceptable : Acceptable environment patch id state)
    (found : rowOf Contact.id state.contacts id = some existing) :
    updateContact environment id patch state =
      (.ok (some (patchedContact environment patch existing state)),
        state.replaced id (patchedContact environment patch existing state)) := by
  obtain ⟨unique, valid⟩ := acceptable_iff.mp acceptable
  rw [rowOf] at found
  unfold updateContact
  rw [found]
  dsimp only
  rw [unique, valid]
  rfl

/-- A contact is changed or nothing happens. -/
theorem updateContact_cases :
    (∃ result, updateContact environment id patch state = (result, state)) ∨
      ∃ existing, rowOf Contact.id state.contacts id = some existing ∧
        Acceptable environment patch id state ∧
        updateContact environment id patch state =
          (.ok (some (patchedContact environment patch existing state)),
            state.replaced id (patchedContact environment patch existing state)) := by
  by_cases acceptable : Acceptable environment patch id state
  · cases found : rowOf Contact.id state.contacts id with
    | none =>
      rw [rowOf] at found
      refine .inl ⟨.ok none, ?_⟩
      unfold updateContact
      rw [found]
    | some existing =>
      exact .inr ⟨existing, rfl, acceptable, updateContact_of_acceptable acceptable found⟩
  · refine .inl ?_
    unfold updateContact
    rw [acceptable_iff] at acceptable
    dsimp only
    split
    · exact ⟨_, rfl⟩
    · split
      · exact ⟨_, rfl⟩
      · exact ⟨_, rfl⟩
      · rename_i unique valid
        exact absurd ⟨unique, valid⟩ acceptable

namespace ContactsState.Sound

variable (sound : state.Sound environment)
include sound

/-- The identifier that is drawn next is no contact's yet. -/
theorem id_fresh : environment.randomUUID state.drawn ∉ state.contacts.map Contact.id := by
  intro taken
  obtain ⟨contact, member, same⟩ := List.mem_map.mp taken
  obtain ⟨draw, earlier, drawn⟩ := sound.drawn contact member
  have : draw = state.drawn := environment.randomUUID_injective (drawn.symm.trans same)
  omega

theorem eq_of_id {contact other : Contact} (member : contact ∈ state.contacts)
    (isOther : other ∈ state.contacts) (same : contact.id = other.id) : contact = other :=
  List.inj_on_of_nodup_map sound.ids member isOther same

theorem eq_of_aliasKey {contact other : Contact} (member : contact ∈ state.contacts)
    (isOther : other ∈ state.contacts)
    (same : aliasKey environment contact = aliasKey environment other) : contact = other :=
  List.inj_on_of_nodup_map sound.aliases member isOther same

theorem extended (valid : environment.isValidEd25519PublicKey payload.address = true)
    (fresh : environment.toLowerCase payload.alias.trim ∉
      state.contacts.map (aliasKey environment)) :
    (state.extended (newContact environment payload state)).Sound environment where
  ids := nodup_concat sound.ids sound.id_fresh
  drawn := by
    refine List.forall_mem_append.mpr ⟨fun contact member => ?_, ?_⟩
    · obtain ⟨draw, earlier, drawn⟩ := sound.drawn contact member
      exact ⟨draw, Nat.lt_succ_of_lt earlier, drawn⟩
    · exact List.forall_mem_singleton.mpr ⟨state.drawn, Nat.lt_succ_self _, rfl⟩
  aliases := nodup_concat sound.aliases fresh
  trimmed := List.forall_mem_append.mpr
    ⟨sound.trimmed, List.forall_mem_singleton.mpr (JsString.trimmed_trim _)⟩
  valid := List.forall_mem_append.mpr ⟨sound.valid, List.forall_mem_singleton.mpr valid⟩

omit sound in
/-- What holds of the contacts and of the new one holds of all of them. -/
theorem forall_replaced {holds : Contact → Prop} {contact : Contact}
    (each : ∀ contact ∈ state.contacts, holds contact) (new : holds contact) :
    ∀ other ∈ (state.replaced id contact).contacts, holds other := by
  intro other member
  obtain ⟨old, isOld, rfl⟩ := List.mem_map.mp member
  split_ifs
  · exact new
  · exact each old isOld

theorem replaced {existing : Contact} (found : rowOf Contact.id state.contacts id = some existing)
    (acceptable : Acceptable environment patch id state) :
    (state.replaced id (patchedContact environment patch existing state)).Sound environment := by
  obtain ⟨member, isId⟩ := mem_of_rowOf found
  constructor
  · have same : (modifyRow Contact.id state.contacts id fun _ =>
        patchedContact environment patch existing state).map Contact.id =
        state.contacts.map Contact.id := map_key_modifyRow fun _ _ => isId
    exact same ▸ sound.ids
  · exact forall_replaced sound.drawn (sound.drawn existing member)
  · have different : state.contacts.Nodup := List.Nodup.of_map _ sound.ids
    have own (other : Contact) (isOther : other ∈ state.contacts) (notId : other.id ≠ id) :
        aliasKey environment other ≠
          aliasKey environment (patchedContact environment patch existing state) := by
      have unique := acceptable.unique
      unfold patchedContact
      cases name : patch.alias with
      | none =>
        intro same
        exact notId (sound.eq_of_aliasKey isOther member same ▸ isId)
      | some new => exact unique new name other isOther notId
    rw [ContactsState.replaced, modifyRow, List.map_map, List.nodup_map_iff_inj_on different]
    intro first isFirst second isSecond same
    simp only [Function.comp_apply] at same
    split_ifs at same with firstId secondId secondId
    · exact sound.eq_of_id isFirst isSecond (firstId.trans secondId.symm)
    · exact absurd same.symm (own second isSecond secondId)
    · exact absurd same (own first isFirst firstId)
    · exact sound.eq_of_aliasKey isFirst isSecond same
  · refine forall_replaced sound.trimmed ?_
    unfold patchedContact
    cases patch.alias with
    | none => exact sound.trimmed existing member
    | some name => exact JsString.trimmed_trim name
  · refine forall_replaced sound.valid ?_
    have valid := acceptable.valid
    unfold patchedContact
    cases address : patch.address with
    | none => exact sound.valid existing member
    | some new => exact valid new address

/-- Contacts that are left out leave the others as they were. -/
theorem sublist {contacts : List Contact} (sublist : contacts.Sublist state.contacts) :
    ContactsState.Sound environment { state with contacts := contacts } where
  ids := (sublist.map _).nodup sound.ids
  drawn contact member := sound.drawn contact (sublist.subset member)
  aliases := (sublist.map _).nodup sound.aliases
  trimmed contact member := sound.trimmed contact (sublist.subset member)
  valid contact member := sound.valid contact (sublist.subset member)

end ContactsState.Sound

open Attempt (Preserves)

variable (environment)

theorem addContact_preserves (payload : ContactPayload) :
    Preserves (ContactsState.Sound environment) (addContact environment payload) := by
  intro state sound
  rcases addContact_cases environment state payload with ⟨error, failed⟩ | ⟨valid, fresh, added⟩
  · rw [failed]
    exact sound
  · rw [added]
    exact sound.extended valid fresh

theorem updateContact_preserves (id : JsString) (patch : ContactPatch) :
    Preserves (ContactsState.Sound environment) (updateContact environment id patch) := by
  intro state sound
  rcases updateContact_cases with ⟨result, unchanged⟩ | ⟨existing, found, acceptable, updated⟩
  · rw [unchanged]
    exact sound
  · rw [updated]
    exact sound.replaced found acceptable

theorem removeContact_preserves (id : JsString) :
    Preserves (ContactsState.Sound environment) (removeContact id) :=
  fun _ sound => sound.sublist List.filter_sublist

theorem clear_preserves : Preserves (ContactsState.Sound environment) clear :=
  fun _ sound => sound.sublist (List.nil_sublist _)

theorem toggleFavorite_preserves (id : JsString) :
    Preserves (ContactsState.Sound environment) (toggleFavorite environment id) := by
  intro state sound
  have toggled (contact : Contact)
      (member : contact ∈ (toggleFavorite environment id state).2.contacts) :
      ∃ old ∈ state.contacts, old.id = contact.id ∧ old.alias = contact.alias ∧
        old.address = contact.address := by
    obtain ⟨old, isOld, rfl⟩ := List.mem_map.mp member
    refine ⟨old, isOld, ?_⟩
    split_ifs
    · exact ⟨rfl, rfl, rfl⟩
    · exact ⟨rfl, rfl, rfl⟩
  have kept (part : Contact → JsString) (keeps : ∀ contact isFavorite updatedAt,
      part { contact with isFavorite := isFavorite, updatedAt := updatedAt } = part contact) :
      (toggleFavorite environment id state).2.contacts.map part =
        state.contacts.map part := by
    refine (List.map_map ..).trans (List.map_congr_left fun contact _ => ?_)
    rw [Function.comp_apply]
    split_ifs
    · exact keeps contact _ _
    · rfl
  constructor
  · rw [kept Contact.id fun _ _ _ => rfl]
    exact sound.ids
  · intro contact member
    obtain ⟨old, isOld, same, -⟩ := toggled contact member
    exact same ▸ sound.drawn old isOld
  · rw [kept (aliasKey environment) fun _ _ _ => rfl]
    exact sound.aliases
  · intro contact member
    obtain ⟨old, isOld, -, same, -⟩ := toggled contact member
    exact same ▸ sound.trimmed old isOld
  · intro contact member
    obtain ⟨old, isOld, -, -, same⟩ := toggled contact member
    exact same ▸ sound.valid old isOld

end Calls

end Ancore.Contacts
