import Ancore.Contacts.Backup

/-! # Putting a backup back

A backup of the contacts is put back as it was made, unless one of them has an empty alias: the
store takes such an alias, and the import refuses the text because of it.
-/

namespace Ancore.Contacts

open Library Library.EcmaScript

variable {environment : Environment} {state : ContactsState}

/-- No two aliases differ in their case only. -/
def AliasesDistinct (environment : Environment) (state : ContactsState) : Prop :=
  state.contacts.Pairwise fun contact other =>
    environment.toLowerCase contact.alias ≠ environment.toLowerCase other.alias

/-- A backup that is made at any time and put back in place of the contacts leaves them there, in
their order. -/
def RoundTrips (environment : Environment) (state : ContactsState) : Prop :=
  ∀ exportedAt, ∃ result after,
    importContacts environment (exportContactsAsJSON exportedAt state.contacts) .replace state =
      (.ok result, after) ∧
      result.skipped = 0 ∧ after.contacts.map Contact.content = state.contacts.map Contact.content

/-! ## Reading a backup -/

theorem wellFormed_contactBackupFile (exportedAt : JsString) (contacts : List Contact) :
    (contactBackupFile exportedAt contacts).WellFormed := by
  have itemKeys : PropertyKeys [ascii "alias", ascii "address", ascii "isFavorite"] :=
    ⟨by decide, by decide⟩
  have keys : PropertyKeys
      [ascii "version", ascii "exportedAt", ascii "count", ascii "contacts"] :=
    ⟨by decide, by decide⟩
  have items : ∀ value ∈ contacts.map exportItem, value.WellFormed := by
    intro value member
    obtain ⟨contact, -, rfl⟩ := List.mem_map.mp member
    exact ⟨itemKeys, trivial, trivial, trivial, trivial⟩
  exact ⟨keys, trivial, trivial, trivial, wellFormedItems_iff.mpr items, trivial⟩

theorem rereadItems_exportItem (contacts : List Contact) :
    rereadItems (contacts.map exportItem) = contacts.map exportItem := by
  induction contacts with
  | nil => rfl
  | cons contact contacts ih =>
    rw [List.map_cons, rereadItems, ih]
    rfl

/-- The entries of a backup are what was written of the contacts. -/
theorem parseContactsJSON_exportContactsAsJSON (exportedAt : JsString) (contacts : List Contact) :
    parseContactsJSON environment (exportContactsAsJSON exportedAt contacts) =
      parseContactsFrom environment 0 (contacts.map exportItem) := by
  have opened : 0x7B ∈ exportContactsAsJSON exportedAt contacts := List.mem_cons_self
  have filled := JsString.trim_ne_nil opened rfl
  have parsed : parseJson (exportContactsAsJSON exportedAt contacts) =
      some (contactBackupFile exportedAt contacts).reread :=
    parseJson_stringifyJson (by decide) (wellFormed_contactBackupFile exportedAt contacts)
  have raw : rawListOf (contactBackupFile exportedAt contacts).reread =
      some (rereadItems (contacts.map exportItem)) := rfl
  rw [rereadItems_exportItem] at raw
  rw [parseContactsJSON, if_neg filled, parsed]
  dsimp only
  rw [raw]

/-- The entry that a contact comes back as. -/
def payloadOf (contact : Contact) : ContactPayload where
  «alias» := contact.alias
  address := contact.address
  isFavorite := some contact.isFavorite

def exportedProperties (contact : Contact) : List (JsString × JsonValue) :=
  [(ascii "alias", .string contact.alias), (ascii "address", .string contact.address),
    (ascii "isFavorite", .bool contact.isFavorite)]

/-- An entry with an alias is read back. -/
theorem parseContact_exportItem {contact : Contact} (index : ℕ)
    (trimmed : contact.alias.Trimmed) (named : contact.alias ≠ [])
    (valid : environment.isValidEd25519PublicKey contact.address = true) :
    parseContact environment index (exportItem contact) = .ok (payloadOf contact) := by
  have sameAlias : contact.alias.trim = contact.alias := JsString.trim_eq_self trimmed
  have sameAddress : contact.address.trim = contact.address :=
    JsString.trim_eq_self (JsString.trimmed_of_forall (environment.solid_of_valid valid))
  have filled : contact.address ≠ [] := by
    intro empty
    have length := environment.length_of_valid valid
    rw [empty] at length
    cases length
  have properties : objectProperties (exportItem contact) = some (exportedProperties contact) := rfl
  have name : asString (property (exportedProperties contact) "alias") = some contact.alias := rfl
  have address : asString (property (exportedProperties contact) "address") =
    some contact.address := rfl
  have isFavorite : property (exportedProperties contact) "isFavorite" =
    some (.bool contact.isFavorite) := rfl
  unfold parseContact
  rw [properties]
  dsimp only
  rw [name, Option.filter_some, sameAlias, if_pos (decide_eq_true named)]
  dsimp only
  rw [address, Option.filter_some, sameAddress, if_pos (decide_eq_true filled)]
  dsimp only
  rw [sameAddress, valid, if_neg nofun, isFavorite, sameAlias]
  rfl

/-- An entry without an alias is refused. -/
theorem parseContact_of_blank {contact : Contact} (index : ℕ) (blank : contact.alias = []) :
    ∃ error, parseContact environment index (exportItem contact) = .error error := by
  have properties : objectProperties (exportItem contact) = some (exportedProperties contact) := rfl
  have name : asString (property (exportedProperties contact) "alias") = some contact.alias := rfl
  unfold parseContact
  rw [properties]
  dsimp only
  rw [name, blank]
  exact ⟨_, rfl⟩

theorem parseContactsFrom_exportItem (index : ℕ) {contacts : List Contact}
    (trimmed : ∀ contact ∈ contacts, contact.alias.Trimmed)
    (named : ∀ contact ∈ contacts, contact.alias ≠ [])
    (valid : ∀ contact ∈ contacts, environment.isValidEd25519PublicKey contact.address = true) :
    parseContactsFrom environment index (contacts.map exportItem) =
      .ok (contacts.map payloadOf) := by
  induction contacts generalizing index with
  | nil => rfl
  | cons contact contacts ih =>
    rw [List.forall_mem_cons] at trimmed named valid
    rw [List.map_cons, parseContactsFrom, parseContact_exportItem index trimmed.1 named.1 valid.1,
      ih (index + 1) trimmed.2 named.2 valid.2]
    rfl

theorem parseContactsFrom_of_blank (index : ℕ) {contacts : List Contact} {contact : Contact}
    (member : contact ∈ contacts) (blank : contact.alias = []) :
    ∃ error, parseContactsFrom environment index (contacts.map exportItem) = .error error := by
  induction contacts generalizing index with
  | nil => exact absurd member List.not_mem_nil
  | cons first contacts ih =>
    rw [List.map_cons, parseContactsFrom]
    cases parsed : parseContact environment index (exportItem first) with
    | error error => exact ⟨error, rfl⟩
    | ok payload =>
      rcases List.mem_cons.mp member with rfl | later
      · obtain ⟨error, failed⟩ : ∃ error, parseContact environment index _ = .error error :=
          parseContact_of_blank index blank
        rw [failed] at parsed
        cases parsed
      · obtain ⟨error, failed⟩ := ih (index + 1) later
        rw [failed]
        exact ⟨error, rfl⟩

/-! ## Putting the contacts back -/

/-- Contacts whose aliases are not there yet are all added. -/
theorem replaceContacts_payloadOf {contacts : List Contact} (counts : ImportContactsResult)
    (trimmed : ∀ contact ∈ contacts, contact.alias.Trimmed)
    (valid : ∀ contact ∈ contacts, environment.isValidEd25519PublicKey contact.address = true)
    (distinct : ((state.contacts ++ contacts).map (aliasKey environment)).Nodup) :
    ∃ result after,
      replaceContacts environment (contacts.map payloadOf) counts state = (.ok result, after) ∧
      result.skipped = counts.skipped ∧
      after.contacts.map Contact.content = (state.contacts ++ contacts).map Contact.content := by
  induction contacts generalizing counts state with
  | nil => exact ⟨counts, state, rfl, rfl, by rw [List.append_nil]⟩
  | cons contact contacts ih =>
    rw [List.forall_mem_cons] at trimmed valid
    have sameAlias : contact.alias.trim = contact.alias := JsString.trim_eq_self trimmed.1
    have sameKey : environment.toLowerCase (payloadOf contact).alias.trim =
        aliasKey environment contact := congrArg environment.toLowerCase sameAlias
    have fresh : environment.toLowerCase (payloadOf contact).alias.trim ∉
        state.contacts.map (aliasKey environment) := by
      rw [List.map_append, List.map_cons] at distinct
      intro taken
      exact List.disjoint_of_nodup_append distinct taken (sameKey ▸ List.mem_cons_self)
    -- the new contact is the same one to what is looked at
    have put {β : Type} (part : Contact → β)
        (same : part (newContact environment (payloadOf contact) state) = part contact) :
        (state.contacts ++ [newContact environment (payloadOf contact) state] ++ contacts).map
            part = (state.contacts ++ contact :: contacts).map part := by
      simp [same]
    have sameContent : (newContact environment (payloadOf contact) state).content =
        contact.content :=
      congrArg (fun name => (name, contact.address, contact.isFavorite)) sameAlias
    let next := state.extended (newContact environment (payloadOf contact) state)
    have distinctNext : ((next.contacts ++ contacts).map (aliasKey environment)).Nodup :=
      (put (aliasKey environment) sameKey).symm ▸ distinct
    obtain ⟨result, after, rest, skipped, contents⟩ :=
      ih { counts with imported := counts.imported + 1 } trimmed.2 valid.2 distinctNext
    refine ⟨result, after, ?_, skipped, contents.trans (put Contact.content sameContent)⟩
    rw [List.map_cons, replaceContacts,
      Attempt.bind_of_ok (tryAddContact_of_fresh counts valid.1 fresh)]
    exact rest

theorem aliasesDistinct_iff : AliasesDistinct environment state ↔
    (state.contacts.map (aliasKey environment)).Nodup := List.pairwise_map.symm

/-- A backup is put back exactly when every contact has an alias. -/
theorem roundTrips_iff_named (sound : state.Sound environment) :
    RoundTrips environment state ↔ ∀ contact ∈ state.contacts, contact.alias ≠ [] := by
  constructor
  · intro roundTrips contact member blank
    obtain ⟨error, failed⟩ : ∃ error, parseContactsFrom environment 0 _ = .error error :=
      parseContactsFrom_of_blank 0 member blank
    obtain ⟨result, after, imported, -⟩ := roundTrips []
    rw [importContacts, parseContactsJSON_exportContactsAsJSON, failed] at imported
    cases imported
  · intro named exportedAt
    have parsed := parseContactsFrom_exportItem 0 sound.trimmed named sound.valid
    let cleared : ContactsState := { state with contacts := [] }
    have distinct : ((cleared.contacts ++ state.contacts).map (aliasKey environment)).Nodup :=
      sound.aliases
    obtain ⟨result, after, replaced, skipped, contents⟩ := replaceContacts_payloadOf
      { imported := 0, updated := 0, skipped := 0, total := (state.contacts.map payloadOf).length }
      sound.trimmed sound.valid distinct
    refine ⟨result, after, ?_, skipped, contents⟩
    rw [importContacts, parseContactsJSON_exportContactsAsJSON, parsed]
    exact replaced

/-- The store takes an alias of white space, and its backup is refused. -/
theorem blank_alias_is_refused : ¬ RoundTrips sampleEnvironment (storeAfter sampleEnvironment
    [.addContact ⟨ascii "  ", ascii "GDP27GNQUPVJQ2JRZC5N5YYNLMKNVYF5AJOOKWQ2R4PKAKMMV77O5EIY",
      none⟩]) := by
  intro roundTrips
  have named := (roundTrips_iff_named (sound_storeAfter _)).mp roundTrips
  exact absurd named (by decide)

/-! ## Runs -/

/-- Every contact has an alias. -/
def Named (state : ContactsState) : Prop := ∀ contact ∈ state.contacts, contact.alias ≠ []

/-- A call that gives no contact a blank alias. -/
def ContactsCall.Names : ContactsCall → Prop
  | addContact payload => payload.alias.trim ≠ []
  | updateContact _ patch => ∀ name ∈ patch.alias, name.trim ≠ []
  | _ => True

section Names

open Attempt (Preserves)

theorem addContact_named {payload : ContactPayload} (names : payload.alias.trim ≠ []) :
    Preserves Named (addContact environment payload) := by
  intro state named
  rcases addContact_cases environment state payload with ⟨error, failed⟩ | ⟨-, -, added⟩
  · rw [failed]
    exact named
  · rw [added]
    exact List.forall_mem_append.mpr ⟨named, List.forall_mem_singleton.mpr names⟩

theorem updateContact_named {id : JsString} {patch : ContactPatch}
    (names : ∀ name ∈ patch.alias, name.trim ≠ []) :
    Preserves Named (updateContact environment id patch) := by
  intro state named
  rcases updateContact_cases with ⟨result, unchanged⟩ | ⟨existing, found, -, updated⟩
  · rw [unchanged]
    exact named
  · rw [updated]
    refine ContactsState.Sound.forall_replaced named ?_
    unfold patchedContact
    cases name : patch.alias with
    | none => exact named existing (mem_of_rowOf found).1
    | some new => exact names new name

theorem named_next {call : ContactsCall} (names : call.Names) (named : Named state) :
    Named (call.next environment state) := by
  cases call with
  | addContact payload => exact addContact_named names state named
  | updateContact id patch => exact updateContact_named names state named
  | removeContact id => exact fun contact member => named contact (List.mem_of_mem_filter member)
  | toggleFavorite id =>
    intro contact member
    obtain ⟨old, isOld, rfl⟩ := List.mem_map.mp member
    split_ifs
    · exact named old isOld
    · exact named old isOld
  | clear => exact List.forall_mem_nil _
  | importContacts rawJson mode =>
    refine importContacts_preserves (fun _ _ => List.forall_mem_nil _) (fun item parsed => ?_)
      (fun id patch absent => ?_) rawJson mode state named
    · exact addContact_named (by rw [JsString.trim_eq_self parsed.trimmed]; exact parsed.named)
    · exact updateContact_named (by rw [absent]; exact nofun)

theorem named_storeAfter {calls : List ContactsCall} (names : ∀ call ∈ calls, call.Names) :
    Named (storeAfter environment calls) :=
  storeAfter_induction (List.forall_mem_nil _) fun call member _ named =>
    named_next (names call member) named

end Names

/-- In every store that calls lead to the aliases are distinct, and a backup is put back exactly
when every contact has an alias; it is in a run that gives no contact a blank alias. -/
theorem roundTrips_iff (environment : Environment) (calls : List ContactsCall) :
    AliasesDistinct environment (storeAfter environment calls) ∧
      (RoundTrips environment (storeAfter environment calls) ↔
        ∀ contact ∈ (storeAfter environment calls).contacts, contact.alias ≠ []) ∧
      ((∀ call ∈ calls, call.Names) → RoundTrips environment (storeAfter environment calls)) := by
  have sound : (storeAfter environment calls).Sound environment := sound_storeAfter calls
  have iffNamed := roundTrips_iff_named sound
  exact ⟨aliasesDistinct_iff.mpr sound.aliases, iffNamed,
    fun names => iffNamed.mpr (named_storeAfter names)⟩

end Ancore.Contacts
