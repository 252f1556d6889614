import Ancore.Contacts.Backup
import Ancore.Library.Merging

/-! # Merging a backup into the contacts

The loop of the import compares every entry with the contacts as they were before it.  What it does
to addresses and favourites is `merged` of the library, with aliases up to their case as keys.
-/

namespace Ancore.Contacts

open Library Library.EcmaScript

variable {environment : Environment} {state : ContactsState} {raw : JsString}
  {payloads : List ContactPayload} {item : ContactPayload} {snapshot : List Contact}

/-- The key of an entry, and what it gives the contact with that key. -/
def entryOf (environment : Environment) (payload : ContactPayload) :
    JsString × JsString × Bool :=
  (environment.toLowerCase payload.alias, payload.address, payload.isFavorite.getD false)

/-- What contacts tell about aliases, up to their case. -/
def addressBook (environment : Environment) (contents : List (JsString × JsString × Bool)) :
    JsString → Option (JsString × Bool) := fun key =>
  (rowOf (fun content => environment.toLowerCase content.1) contents key).map Prod.snd

def bookOf (environment : Environment) (contacts : List Contact) :
    JsString → Option (JsString × Bool) :=
  addressBook environment (contacts.map Contact.content)

theorem bookOf_apply (contacts : List Contact) (key : JsString) :
    bookOf environment contacts key =
      (rowOf (aliasKey environment) contacts key).map fun contact =>
        (contact.address, contact.isFavorite) := by
  rw [bookOf, addressBook, rowOf, List.find?_map, Option.map_map]
  rfl

/-! ## One entry -/

/-- Contacts with other keys than the given one are the same. -/
def OnlyAt (environment : Environment) (key : JsString) (before after : List Contact) : Prop :=
  ∀ contact, aliasKey environment contact ≠ key → (contact ∈ after ↔ contact ∈ before)

/-- What is known of a store in which only one contact changed. -/
theorem bookOf_eq_update {before after : ContactsState} {contact : Contact} {key : JsString}
    (sound : before.Sound environment) (soundAfter : after.Sound environment)
    (only : OnlyAt environment key before.contacts after.contacts)
    (member : contact ∈ after.contacts) (isKey : aliasKey environment contact = key) :
    bookOf environment after.contacts =
      Function.update (bookOf environment before.contacts) key
        (some (contact.address, contact.isFavorite)) := by
  funext other
  rw [Function.update_apply, bookOf_apply]
  split_ifs with same
  · rw [(rowOf_eq_some_iff soundAfter.aliases).mpr ⟨member, isKey.trans same.symm⟩]
    rfl
  · rw [bookOf_apply]
    refine congrArg _ (Option.ext fun row => ?_)
    rw [rowOf_eq_some_iff soundAfter.aliases, rowOf_eq_some_iff sound.aliases]
    constructor
    · rintro ⟨isRow, rfl⟩
      exact ⟨(only row same).mp isRow, rfl⟩
    · rintro ⟨isRow, rfl⟩
      exact ⟨(only row same).mpr isRow, rfl⟩

/-- The contacts of the snapshot are still there, whatever became of their addresses. -/
def Kept (snapshot contacts : List Contact) : Prop :=
  ∀ contact ∈ snapshot, ∃ live ∈ contacts, live.id = contact.id ∧ live.alias = contact.alias

/-- What one entry does to a store. -/
structure Turned (environment : Environment) (snapshot : List Contact) (item : ContactPayload)
    (counts result : ImportContactsResult) (before after : ContactsState) : Prop where
  counted : result.imported + result.updated + result.skipped =
    counts.imported + counts.updated + counts.skipped + 1
  total : result.total = counts.total
  sound : after.Sound environment
  kept : Kept snapshot after.contacts
  only : OnlyAt environment (environment.toLowerCase item.alias) before.contacts after.contacts
  book : bookOf environment after.contacts =
    mergeEntry (bookOf environment snapshot) (bookOf environment before.contacts)
      (entryOf environment item)

theorem onlyAt_replaced {key id : JsString} {live contact : Contact}
    (sound : state.Sound environment) (isLive : live ∈ state.contacts) (isId : live.id = id)
    (liveKey : aliasKey environment live = key) (isKey : aliasKey environment contact = key) :
    OnlyAt environment key state.contacts (state.replaced id contact).contacts := by
  intro other differs
  constructor
  · intro member
    obtain ⟨old, isOld, rfl⟩ := List.mem_map.mp member
    split_ifs at differs ⊢
    · exact absurd isKey differs
    · exact isOld
  · intro member
    have notId : other.id ≠ id := by
      intro same
      rw [sound.eq_of_id member isLive (same.trans isId.symm)] at differs
      exact differs liveKey
    exact List.mem_map.mpr ⟨other, member, if_neg notId⟩

theorem kept_replaced {id : JsString} {contact : Contact} (kept : Kept snapshot state.contacts)
    (sameId : contact.id = id) (sameAlias : ∀ live ∈ state.contacts, live.id = id →
      contact.alias = live.alias) :
    Kept snapshot (state.replaced id contact).contacts := by
  intro old isOld
  obtain ⟨live, isLive, liveId, liveAlias⟩ := kept old isOld
  by_cases isId : live.id = id
  · refine ⟨contact, List.mem_map.mpr ⟨live, isLive, if_pos isId⟩, ?_, ?_⟩
    · exact sameId.trans (isId.symm.trans liveId)
    · exact (sameAlias live isLive isId).trans liveAlias
  · exact ⟨live, List.mem_map.mpr ⟨live, isLive, if_neg isId⟩, liveId, liveAlias⟩

section Turn

variable {existing : Contact} (counts : ImportContactsResult)

theorem mergeContact_of_unknown
    (unknown : rowOf (aliasKey environment) snapshot (environment.toLowerCase item.alias) = none) :
    mergeContact environment snapshot item counts = tryAddContact environment item counts := by
  have absent : (snapshot.find? fun contact =>
    environment.toLowerCase contact.alias = environment.toLowerCase item.alias) = none := unknown
  unfold mergeContact
  rw [absent]

theorem mergeContact_of_same (known : rowOf (aliasKey environment) snapshot
      (environment.toLowerCase item.alias) = some existing)
    (same : existing.address = item.address ∧ some existing.isFavorite = item.isFavorite) :
    mergeContact environment snapshot item counts =
      Pure.pure { counts with skipped := counts.skipped + 1 } := by
  have found : (snapshot.find? fun contact =>
    environment.toLowerCase contact.alias = environment.toLowerCase item.alias) =
      some existing := known
  unfold mergeContact
  rw [found]
  dsimp only
  rw [if_neg (by rintro (other | other) <;> [exact other same.1; exact other same.2])]

/-- The contact of the snapshot gets the address and the flag of the entry. -/
theorem mergeContact_of_other (known : rowOf (aliasKey environment) snapshot
      (environment.toLowerCase item.alias) = some existing)
    (other : existing.address ≠ item.address ∨ some existing.isFavorite ≠ item.isFavorite)
    {updated : Option Contact} {after : ContactsState}
    (update : updateContact environment existing.id ⟨none, some item.address, item.isFavorite⟩
      state = (.ok updated, after)) :
    mergeContact environment snapshot item counts state =
      (.ok { counts with updated := counts.updated + 1 }, after) := by
  have found : (snapshot.find? fun contact =>
    environment.toLowerCase contact.alias = environment.toLowerCase item.alias) =
      some existing := known
  unfold mergeContact
  rw [found]
  dsimp only
  rw [if_pos other]
  exact Attempt.bind_of_ok update

variable (parsed : Parsed environment item) (sound : state.Sound environment)
  (kept : Kept snapshot state.contacts)
include parsed sound kept

/-- An entry without a contact in the snapshot is added unless an earlier one was. -/
theorem turned_of_unknown
    (unknown : rowOf (aliasKey environment) snapshot (environment.toLowerCase item.alias) = none) :
    ∃ result after, mergeContact environment snapshot item counts state = (.ok result, after) ∧
      Turned environment snapshot item counts result state after := by
  have sameAlias : item.alias.trim = item.alias := JsString.trim_eq_self parsed.trimmed
  have sameKey : environment.toLowerCase item.alias.trim = (entryOf environment item).1 :=
    congrArg environment.toLowerCase sameAlias
  have absent : bookOf environment snapshot (entryOf environment item).1 = none := by
    rw [bookOf_apply]
    exact congrArg _ unknown
  rw [mergeContact_of_unknown counts unknown]
  by_cases taken : environment.toLowerCase item.alias.trim ∈
      state.contacts.map (aliasKey environment)
  · refine ⟨_, _, tryAddContact_of_taken counts parsed.valid taken, by dsimp only; omega, rfl,
      sound, kept, fun _ _ => Iff.rfl, ?_⟩
    have unwritten : ¬ writes (bookOf environment snapshot) (bookOf environment state.contacts)
        (entryOf environment item) = true := by
      rw [writes_of_unknown absent, bookOf_apply, Option.map_eq_none_iff, rowOf_eq_none_iff]
      exact not_not_intro (sameKey ▸ taken)
    rw [mergeEntry, if_neg unwritten]
  · have soundAfter := sound.extended parsed.valid taken
    have written : writes (bookOf environment snapshot) (bookOf environment state.contacts)
        (entryOf environment item) = true := by
      rw [writes_of_unknown absent, bookOf_apply, Option.map_eq_none_iff, rowOf_eq_none_iff]
      exact sameKey ▸ taken
    have only : OnlyAt environment (environment.toLowerCase item.alias) state.contacts
        (state.extended (newContact environment item state)).contacts := by
      intro contact differs
      refine ⟨fun member => ?_, fun member => List.mem_append_left _ member⟩
      rcases List.mem_append.mp member with old | new
      · exact old
      · rw [List.mem_singleton.mp new] at differs
        exact absurd (congrArg environment.toLowerCase sameAlias) differs
    refine ⟨_, _, tryAddContact_of_fresh counts parsed.valid taken, by dsimp only; omega, rfl,
      soundAfter, ?_, only, ?_⟩
    · intro contact member
      obtain ⟨live, isLive, same⟩ := kept contact member
      exact ⟨live, List.mem_append_left _ isLive, same⟩
    · rw [mergeEntry, if_pos written]
      exact bookOf_eq_update sound soundAfter only
        (List.mem_append_right _ (List.mem_singleton_self _))
        (congrArg environment.toLowerCase sameAlias)

/-- An entry with a contact in the snapshot is skipped, or that contact is changed. -/
theorem turned_of_known (known : rowOf (aliasKey environment) snapshot
      (environment.toLowerCase item.alias) = some existing) :
    ∃ result after, mergeContact environment snapshot item counts state = (.ok result, after) ∧
      Turned environment snapshot item counts result state after := by
  obtain ⟨isExisting, isKey⟩ := mem_of_rowOf known
  obtain ⟨live, isLive, sameId, sameAlias⟩ := kept existing isExisting
  have liveKey : aliasKey environment live = environment.toLowerCase item.alias :=
    (congrArg environment.toLowerCase sameAlias).trans isKey
  obtain ⟨isFavorite, flag⟩ := Option.ne_none_iff_exists'.mp parsed.flagged
  have present : bookOf environment snapshot (entryOf environment item).1 =
      some (existing.address, existing.isFavorite) := by
    rw [bookOf_apply]
    exact congrArg (Option.map _) known
  by_cases same : existing.address = item.address ∧ some existing.isFavorite = item.isFavorite
  · rw [mergeContact_of_same counts known same]
    refine ⟨_, _, rfl, by dsimp only; omega, rfl, sound, kept, fun _ _ => Iff.rfl, ?_⟩
    have unwritten : ¬ writes (bookOf environment snapshot) (bookOf environment state.contacts)
        (entryOf environment item) = true := by
      rw [writes_of_known present, not_ne_iff, entryOf, same.1, ← same.2]
      rfl
    rw [mergeEntry, if_neg unwritten]
  · have other : existing.address ≠ item.address ∨ some existing.isFavorite ≠ item.isFavorite :=
      not_and_or.mp same
    have acceptable : Acceptable environment ⟨none, some item.address, item.isFavorite⟩ existing.id
        state := by
      constructor
      · intro name isAlias
        cases isAlias
      · intro address isAddress
        cases isAddress
        exact parsed.valid
    have found : rowOf Contact.id state.contacts existing.id = some live :=
      (rowOf_eq_some_iff sound.ids).mpr ⟨isLive, sameId⟩
    have written : writes (bookOf environment snapshot) (bookOf environment state.contacts)
        (entryOf environment item) = true := by
      rw [writes_of_known present, entryOf, flag]
      rw [flag] at other
      intro equal
      rcases other with address | favorite
      · exact address (congrArg Prod.fst equal)
      · exact favorite (congrArg (fun value => some (Prod.snd value)) equal)
    have soundAfter := sound.replaced found acceptable
    have update := updateContact_of_acceptable acceptable found
    obtain ⟨contact, isContact⟩ : ∃ contact, contact =
      patchedContact environment ⟨none, some item.address, item.isFavorite⟩ live state := ⟨_, rfl⟩
    rw [← isContact] at soundAfter update
    have contactKey : aliasKey environment contact = environment.toLowerCase item.alias := by
      rw [isContact]
      exact liveKey
    have changed : contact ∈ (state.replaced existing.id contact).contacts :=
      List.mem_map.mpr ⟨live, isLive, if_pos sameId⟩
    have only := onlyAt_replaced sound isLive sameId liveKey contactKey
    have keptAfter : Kept snapshot (state.replaced existing.id contact).contacts := by
      refine kept_replaced kept (isContact ▸ sameId) fun other isOther otherId => ?_
      rw [sound.eq_of_id isOther isLive (otherId.trans sameId.symm), isContact]
      rfl
    refine ⟨_, _, mergeContact_of_other counts known other update, by dsimp only; omega, rfl,
      soundAfter, keptAfter, only, ?_⟩
    rw [mergeEntry, if_pos written, bookOf_eq_update sound soundAfter only changed contactKey,
      isContact, entryOf, flag]
    rfl

end Turn

/-! ## All entries -/

theorem turned (counts : ImportContactsResult) (parsed : Parsed environment item)
    (sound : state.Sound environment) (kept : Kept snapshot state.contacts) :
    ∃ result after, mergeContact environment snapshot item counts state = (.ok result, after) ∧
      Turned environment snapshot item counts result state after := by
  cases known : rowOf (aliasKey environment) snapshot (environment.toLowerCase item.alias) with
  | none => exact turned_of_unknown counts parsed sound kept known
  | some existing => exact turned_of_known counts parsed sound kept known

/-- What the loop does to a store. -/
structure Merged (environment : Environment) (snapshot : List Contact)
    (items : List ContactPayload) (counts result : ImportContactsResult)
    (before after : ContactsState) : Prop where
  counted : result.imported + result.updated + result.skipped =
    counts.imported + counts.updated + counts.skipped + items.length
  total : result.total = counts.total
  sound : after.Sound environment
  only : ∀ contact, (∀ item ∈ items, aliasKey environment contact ≠
    environment.toLowerCase item.alias) → (contact ∈ after.contacts ↔ contact ∈ before.contacts)
  book : bookOf environment after.contacts =
    mergeEntries (bookOf environment snapshot) (bookOf environment before.contacts)
      (items.map (entryOf environment))

theorem merged_mergeContacts {items : List ContactPayload} (counts : ImportContactsResult)
    (parsed : ∀ item ∈ items, Parsed environment item) (sound : state.Sound environment)
    (kept : Kept snapshot state.contacts) :
    ∃ result after, mergeContacts environment snapshot items counts state = (.ok result, after) ∧
      Merged environment snapshot items counts result state after := by
  induction items generalizing counts state with
  | nil => exact ⟨counts, state, rfl, rfl, rfl, sound, fun _ _ => Iff.rfl, rfl⟩
  | cons item items ih =>
    obtain ⟨first, rest⟩ := List.forall_mem_cons.mp parsed
    obtain ⟨counted, middle, turn, effect⟩ := turned counts first sound kept
    obtain ⟨result, after, turns, effects⟩ := ih counted rest effect.sound effect.kept
    refine ⟨result, after, ?_, ?_, effects.total.trans effect.total, effects.sound, ?_, ?_⟩
    · rw [mergeContacts, Attempt.bind_of_ok turn]
      exact turns
    · rw [effects.counted, effect.counted, List.length_cons]
      omega
    · intro contact others
      obtain ⟨other, later⟩ := List.forall_mem_cons.mp others
      exact (effects.only contact later).trans (effect.only contact other)
    · rw [effects.book, effect.book]
      rfl

/-- Entries that the snapshot has already are skipped. -/
theorem mergeContacts_of_settled {items : List ContactPayload} (counts : ImportContactsResult)
    (parsed : ∀ item ∈ items, Parsed environment item)
    (settled : ∀ item ∈ items, bookOf environment snapshot (entryOf environment item).1 =
      some (entryOf environment item).2) :
    ∃ result, mergeContacts environment snapshot items counts state = (.ok result, state) := by
  induction items generalizing counts with
  | nil => exact ⟨counts, rfl⟩
  | cons item items ih =>
    obtain ⟨first, rest⟩ := List.forall_mem_cons.mp parsed
    obtain ⟨now, later⟩ := List.forall_mem_cons.mp settled
    rw [bookOf_apply] at now
    obtain ⟨existing, known, same⟩ := Option.map_eq_some_iff.mp now
    obtain ⟨isFavorite, flag⟩ := Option.ne_none_iff_exists'.mp first.flagged
    have equal : existing.address = item.address ∧ some existing.isFavorite = item.isFavorite := by
      rw [entryOf, flag] at same
      rw [flag]
      exact ⟨congrArg Prod.fst same, congrArg (fun value => some (Prod.snd value)) same⟩
    obtain ⟨result, skipped⟩ := ih { counts with skipped := counts.skipped + 1 } rest later
    refine ⟨result, ?_⟩
    rw [mergeContacts, mergeContact_of_same counts known equal]
    exact skipped

/-! ## Importing twice -/

/-- What an import is to do to a store: contacts that the file does not name stay, every alias of
the file is there with the address of the last entry for it, each entry is counted once, and a
second import changes no alias, no address and no flag. -/
def ImportsFaithfully (environment : Environment) (raw : JsString)
    (payloads : List ContactPayload) (state : ContactsState) : Prop :=
  ∃ result after, importContacts environment raw .merge state = (.ok result, after) ∧
    result.imported + result.updated + result.skipped = result.total ∧
    (∀ contact, (∀ payload ∈ payloads, aliasKey environment contact ≠
      environment.toLowerCase payload.alias) →
        (contact ∈ after.contacts ↔ contact ∈ state.contacts)) ∧
    (∀ earlier payload later, payloads = earlier ++ payload :: later →
      (∀ other ∈ later, environment.toLowerCase other.alias ≠
        environment.toLowerCase payload.alias) →
      ∃ contact ∈ after.contacts,
        aliasKey environment contact = environment.toLowerCase payload.alias ∧
        contact.address = payload.address) ∧
    ∃ again twice, importContacts environment raw .merge after = (.ok again, twice) ∧
      twice.contacts.map Contact.content = after.contacts.map Contact.content

/-- Entries for one alias, up to its case, give it one address and one flag. -/
def EntriesAgree (environment : Environment) (payloads : List ContactPayload) : Prop :=
  ∀ payload ∈ payloads, ∀ other ∈ payloads,
    environment.toLowerCase payload.alias = environment.toLowerCase other.alias →
      payload.address = other.address ∧ payload.isFavorite = other.isFavorite

theorem agree_iff (parsed : ∀ payload ∈ payloads, Parsed environment payload) :
    Agree (payloads.map (entryOf environment)) ↔ EntriesAgree environment payloads := by
  have values (payload other : ContactPayload) (isPayload : payload ∈ payloads)
      (isOther : other ∈ payloads) :
      (entryOf environment payload).2 = (entryOf environment other).2 ↔
        payload.address = other.address ∧ payload.isFavorite = other.isFavorite := by
    obtain ⟨flag, isFlag⟩ := Option.ne_none_iff_exists'.mp (parsed payload isPayload).flagged
    obtain ⟨flag', isFlag'⟩ := Option.ne_none_iff_exists'.mp (parsed other isOther).flagged
    rw [entryOf, entryOf, isFlag, isFlag']
    simp
  constructor
  · intro agree payload isPayload other isOther same
    exact (values payload other isPayload isOther).mp
      (agree _ (List.mem_map_of_mem isPayload) _ (List.mem_map_of_mem isOther) same)
  · intro agree entry isEntry entry' isEntry' same
    obtain ⟨payload, isPayload, rfl⟩ := List.mem_map.mp isEntry
    obtain ⟨other, isOther, rfl⟩ := List.mem_map.mp isEntry'
    exact (values payload other isPayload isOther).mpr
      (agree payload isPayload other isOther same)

theorem kept_self (contacts : List Contact) : Kept contacts contacts :=
  fun contact member => ⟨contact, member, rfl, rfl⟩

theorem importContacts_merge (parsed : parseContactsJSON environment raw = .ok payloads) :
    importContacts environment raw .merge state =
      mergeContacts environment state.contacts payloads
        { imported := 0, updated := 0, skipped := 0, total := payloads.length } state := by
  unfold importContacts
  rw [parsed]

/-- A file is imported faithfully exactly when its entries agree. -/
theorem importsFaithfully_iff (calls : List ContactsCall)
    (parsed : parseContactsJSON environment raw = .ok payloads) :
    ImportsFaithfully environment raw payloads (storeAfter environment calls) ↔
      EntriesAgree environment payloads := by
  have each := parsed_of_parseContactsJSON parsed
  have sound : (storeAfter environment calls).Sound environment := sound_storeAfter calls
  obtain ⟨result, after, once, effect⟩ :=
    merged_mergeContacts ⟨0, 0, 0, payloads.length⟩ each sound (kept_self _)
  have book : bookOf environment after.contacts = merged
      (bookOf environment (storeAfter environment calls).contacts)
      (payloads.map (entryOf environment)) := effect.book
  rw [← importContacts_merge parsed] at once
  rw [← agree_iff each]
  constructor
  · rintro ⟨result', after', once', -, -, -, again, twice, second, contents⟩
    rw [once] at once'
    cases once'
    obtain ⟨again', twice', second', effect'⟩ :=
      merged_mergeContacts ⟨0, 0, 0, payloads.length⟩ each effect.sound (kept_self _)
    rw [← importContacts_merge parsed, second] at second'
    cases second'
    have unchanged : bookOf environment twice.contacts = bookOf environment after.contacts :=
      congrArg (addressBook environment) contents
    have bookTwice : bookOf environment twice.contacts = merged
        (bookOf environment after.contacts) (payloads.map (entryOf environment)) := effect'.book
    rw [unchanged, book] at bookTwice
    exact merged_merged_iff.mp bookTwice.symm
  · intro agree
    have settled (payload : ContactPayload) (member : payload ∈ payloads) :
        bookOf environment after.contacts (entryOf environment payload).1 =
          some (entryOf environment payload).2 := by
      rw [book]
      exact merged_of_agree agree (List.mem_map_of_mem member)
    refine ⟨result, after, once, ?_, effect.only, ?_, ?_⟩
    · rw [effect.counted, effect.total]
      simp
    · rintro earlier payload later rfl -
      have found := settled payload (by simp)
      rw [bookOf_apply] at found
      obtain ⟨contact, isRow, same⟩ := Option.map_eq_some_iff.mp found
      obtain ⟨member, isKey⟩ := mem_of_rowOf isRow
      exact ⟨contact, member, isKey, congrArg Prod.fst same⟩
    · obtain ⟨again, skipped⟩ :=
        mergeContacts_of_settled ⟨0, 0, 0, payloads.length⟩ each settled
      exact ⟨again, after, (importContacts_merge parsed).trans skipped, rfl⟩

/-- Two entries for one contact, with different addresses. -/
def aliceTwice : JsString :=
  ascii "[\x7b\"alias\":\"Alice\"," ++
  ascii "\"address\":\"GDP27GNQUPVJQ2JRZC5N5YYNLMKNVYF5AJOOKWQ2R4PKAKMMV77O5EIY\"\x7d," ++
  ascii "\x7b\"alias\":\"alice \"," ++
  ascii "\"address\":\"GDX7IBH35QYGRVFKSXXYINHDQSKV7SRZ7EFVYYI4USSK66BRSZWDVE5C\"\x7d]"

def aliceTwicePayloads : List ContactPayload :=
  [⟨ascii "Alice", ascii "GDP27GNQUPVJQ2JRZC5N5YYNLMKNVYF5AJOOKWQ2R4PKAKMMV77O5EIY", some false⟩,
    ⟨ascii "alice", ascii "GDX7IBH35QYGRVFKSXXYINHDQSKV7SRZ7EFVYYI4USSK66BRSZWDVE5C", some false⟩]

theorem parse_aliceTwice :
    parseContactsJSON sampleEnvironment aliceTwice = .ok aliceTwicePayloads := by
  rfl

theorem importsFaithfully_iff_aliceTwice :
    parseContactsJSON sampleEnvironment aliceTwice = .ok aliceTwicePayloads ∧
      (ImportsFaithfully sampleEnvironment aliceTwice aliceTwicePayloads
        (storeAfter sampleEnvironment []) ↔ EntriesAgree sampleEnvironment aliceTwicePayloads) :=
  ⟨parse_aliceTwice, importsFaithfully_iff [] parse_aliceTwice⟩

/-- The address of the second entry is not in the store. -/
theorem second_address_is_skipped :
    parseContactsJSON sampleEnvironment aliceTwice = .ok aliceTwicePayloads ∧
      ¬ ImportsFaithfully sampleEnvironment aliceTwice aliceTwicePayloads
        (storeAfter sampleEnvironment []) := by
  refine ⟨parse_aliceTwice, ?_⟩
  rintro ⟨result, after, once, -, -, last, -⟩
  have imported : after.contacts.map Contact.address =
      [ascii "GDP27GNQUPVJQ2JRZC5N5YYNLMKNVYF5AJOOKWQ2R4PKAKMMV77O5EIY"] := by
    rw [importContacts_merge parse_aliceTwice] at once
    cases once
    decide
  obtain ⟨contact, member, -, address⟩ := last [_] _ [] rfl (List.forall_mem_nil _)
  have present := List.mem_map_of_mem (f := Contact.address) member
  rw [imported, address] at present
  exact absurd present (by decide)

end Ancore.Contacts
