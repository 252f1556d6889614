import Ancore.Vault.Retention
import Ancore.Vault.SavedAccounts

/-! # What the migration keeps

Legacy accounts are moved where nothing is kept under the new key yet.  Where both keys
hold accounts, the migration leaves both as they are, and an account that is only under
the legacy key is not found any more (`account_left_behind`).  What is found after an
unlock is decided by that alone, as long as no manager works with a key whose salt was
never stored (`migration_keeps_iff`).
-/

namespace Ancore.Vault

open Ancore.Library

variable {Json : Type} {cipher : Sealing String}
  {sealing : Sealing (Plaintext (VaultItem Json cipher))}

/-! ## What is stored -/

/-- What is on each shelf, if it was ever written. -/
abbrev Shelves (Json : Type) : Type := Shelf → Option (AccountRecords Json)

/-- No salt is stored, and no accounts. -/
structure Bare (storage : Storage sealing) : Prop where
  unsalted : storage masterSaltStorageKey = none
  unstocked : ∀ shelf : Shelf, storage shelf.storageKey = none

/-- The accounts are sealed under the key of the stored salt. -/
structure Stocked (password : String) (salt : sealing.Salt) (shelves : Shelves Json)
    (storage : Storage sealing) : Prop where
  salted : storage masterSaltStorageKey = some (.masterSalt salt)
  accepted : accepts (sealing.derive password salt) storage = true
  stored : ∀ shelf, decrypted (sealing.derive password salt) storage shelf.storageKey =
    (shelves shelf).map fun records => .item (.accounts records)

/-- What is stored before the first unlocking, and after it. -/
inductive Holds (password : String) : Shelves Json → Storage sealing → Prop
  | bare {storage : Storage sealing} (bare : Bare storage) :
    Holds password (fun _ => none) storage
  | stocked {shelves : Shelves Json} {storage : Storage sealing} (salt : sealing.Salt)
    (stocked : Stocked password salt shelves storage) : Holds password shelves storage

theorem storageKey_ne (shelf : Shelf) :
    shelf.storageKey ≠ masterSaltStorageKey ∧ shelf.storageKey ≠ verificationPayloadStorageKey := by
  cases shelf with
  | legacy => exact ⟨by decide, by decide⟩
  | unified => exact ⟨by decide, by decide⟩

theorem storageKey_injective : Function.Injective Shelf.storageKey := by
  intro shelf other same
  cases shelf with
  | legacy =>
    cases other with
    | legacy => rfl
    | unified => exact absurd same (by decide)
  | unified =>
    cases other with
    | legacy => exact absurd same (by decide)
    | unified => rfl

theorem decrypted_congr {key : sealing.Key} {storage after : Storage sealing} {name : String}
    (same : after name = storage name) : decrypted key after name = decrypted key storage name := by
  rw [decrypted, same, decrypted]

section Stored

variable {password : String} {salt : sealing.Salt} {shelves : Shelves Json}
  {storage : Storage sealing}

/-- Another value on a shelf. -/
theorem Stocked.update (stocked : Stocked password salt shelves storage) (shelf : Shelf)
    {value : Option (StoredValue sealing)} {records : Option (AccountRecords Json)}
    (read : (parseEncryptedPayload value).bind (sealing.decrypt (sealing.derive password salt)) =
      records.map fun records => .item (.accounts records)) :
    Stocked password salt (Function.update shelves shelf records)
      (Function.update storage shelf.storageKey value) where
  salted := by
    rw [Function.update_of_ne (storageKey_ne shelf).1.symm]
    exact stocked.salted
  accepted := by
    rw [accepts, decrypted_congr (Function.update_of_ne (storageKey_ne shelf).2.symm ..)]
    exact stocked.accepted
  stored other := by
    by_cases same : other = shelf
    · subst same
      rw [decrypted, Function.update_self, Function.update_self]
      exact read
    · have different : other.storageKey ≠ shelf.storageKey :=
        fun equal => same (storageKey_injective equal)
      rw [decrypted_congr (Function.update_of_ne different ..), Function.update_of_ne same]
      exact stocked.stored other

theorem Stocked.store (sound : sealing.Sound) (stocked : Stocked password salt shelves storage)
    (shelf : Shelf) (nonce : sealing.Nonce) (records : AccountRecords Json) :
    Stocked password salt (Function.update shelves shelf (some records))
      (Function.update storage shelf.storageKey (some (.payload
        (sealing.encrypt (sealing.derive password salt) nonce (.item (.accounts records)))))) :=
  stocked.update shelf (sound.decrypt_encrypt _ nonce _)

theorem Stocked.delete (stocked : Stocked password salt shelves storage) (shelf : Shelf) :
    Stocked password salt (Function.update shelves shelf none)
      (Function.update storage shelf.storageKey none) :=
  stocked.update shelf rfl

/-- The first unlocking stores the verification payload first. -/
theorem Bare.verified (bare : Bare storage) (value : Option (StoredValue sealing)) :
    Bare (Function.update storage verificationPayloadStorageKey value) where
  unsalted := by
    rw [Function.update_of_ne (by decide)]
    exact bare.unsalted
  unstocked shelf := by
    rw [Function.update_of_ne (storageKey_ne shelf).2]
    exact bare.unstocked shelf

theorem Bare.stocked (sound : sealing.Sound) (bare : Bare storage) (nonce : sealing.Nonce)
    (text : Plaintext (VaultItem Json cipher)) :
    Stocked password salt (fun _ => none)
      (Function.update (Function.update storage verificationPayloadStorageKey (some (.payload
        (sealing.encrypt (sealing.derive password salt) nonce text))))
        masterSaltStorageKey (some (.masterSalt salt))) where
  salted := Function.update_self ..
  accepted := by
    rw [accepts, decrypted, Function.update_of_ne (by decide), Function.update_self]
    simp [parseEncryptedPayload, sound.decrypt_encrypt]
  stored shelf := by
    rw [decrypted, Function.update_of_ne (storageKey_ne shelf).1,
      (bare.verified _).unstocked shelf]
    rfl

/-- The key of the stored salt, if there is one. -/
def storedKey (password : String) (storage : Storage sealing) : Option sealing.Key :=
  (parseMasterSalt (storage masterSaltStorageKey)).map (sealing.derive password)

theorem Bare.storedKey (bare : Bare storage) : storedKey password storage = none := by
  rw [Vault.storedKey, bare.unsalted]
  rfl

theorem Stocked.storedKey (stocked : Stocked password salt shelves storage) :
    storedKey password storage = some (sealing.derive password salt) := by
  rw [Vault.storedKey, stocked.salted]
  rfl

end Stored

/-! ## Methods that may be stopped -/

/-- The method through calls that are carried out, stopped anywhere. -/
abbrev Through {α : Type} (crash : List (String × StoredValue sealing) → Storage sealing → Prop)
    (method : Async sealing α) (made : CallLog (VaultAnswer sealing)) (manager : Manager sealing)
    (post : Except Thrown α → CallLog (VaultAnswer sealing) → Manager sealing → Prop) : Prop :=
  method.run.Throughout perform Circumstance.Calm (During crash) post made manager

section Methods

variable {crash : List (String × StoredValue sealing) → Storage sealing → Prop}
  {made : CallLog (VaultAnswer sealing)} {manager : Manager sealing} {key : sealing.Key}
  {password : String} {shelves : Shelves Json}

theorem reads_calmly (circumstance : Circumstance sealing) (calm : circumstance.Calm) :
    circumstance.corrupted = none := calm.1

theorem store_through {name : String} {text : Plaintext (VaultItem Json cipher)}
    {post : Except Thrown Unit → CallLog (VaultAnswer sealing) → Manager sealing → Prop}
    (held : manager.encryptionKey = some key) (current : crash (writes made) manager.storage)
    (stored : ∀ nonce, crash ((name, .payload (sealing.encrypt key nonce text)) :: writes made)
      (Function.update manager.storage name (some (.payload (sealing.encrypt key nonce text)))))
    (next : ∀ later nonce,
      crash (writes later) (Function.update manager.storage name
        (some (.payload (sealing.encrypt key nonce text)))) →
      post (.ok ()) later { manager with
        storage := Function.update manager.storage name
          (some (.payload (sealing.encrypt key nonce text))) }) :
    Through crash (storeEncrypted name text) made manager post := by
  refine storeEncrypted_throughout held current (fun later payload wrote isSealed => ?_)
    fun circumstance calm throws => absurd (calm.2.symm.trans throws) nofun
  obtain ⟨nonce, rfl⟩ := isSealed
  have kept := (congrArg (crash · _) wrote).mpr (stored nonce)
  exact ⟨kept, next later nonce kept⟩

theorem assertUnlocked_through
    {post : Except Thrown Unit → CallLog (VaultAnswer sealing) → Manager sealing → Prop}
    (current : crash (writes made) manager.storage)
    (unlocked : manager.encryptionKey.isSome → ∀ later, writes later = writes made →
      post (.ok ()) later manager)
    (locked : manager.encryptionKey = none → ∀ error later, post (.error error) later manager) :
    Through crash assertUnlocked made manager post := by
  refine ⟨current, fun _ _ => ?_⟩
  rw [perform_isUnlocked]
  cases held : manager.encryptionKey with
  | none => exact ⟨current, locked held _ _⟩
  | some key => exact ⟨current, unlocked (by rw [held]; rfl) _ rfl⟩

/-- A locked manager saves nothing. -/
theorem persistUnder_locked {storageKey : String}
    {labelOf : Option (PersistedAccountRecord Json) → Option String}
    {input : PersistAccountInput Json} (locked : manager.encryptionKey = none)
    (current : crash (writes made) manager.storage) :
    Through crash (persistUnder storageKey labelOf input) made manager fun _ _ _ => True := by
  refine Program.throughout_bindExcept (Program.throughout_bindExcept
    (Program.throughout_bindExcept (assertUnlocked_through current (fun unlocked => ?_)
      fun _ _ _ => trivial)))
  rw [locked] at unlocked
  cases unlocked

theorem persistUnder_through {storageKey : String}
    {labelOf : Option (PersistedAccountRecord Json) → Option String}
    {input : PersistAccountInput Json} (held : manager.encryptionKey = some key)
    (current : ∀ later, writes later = writes made → crash (writes later) manager.storage)
    (stored : ∀ (metadata : AccountMetadata) nonce payload, payload = StoredValue.payload
        (sealing.encrypt key nonce (.item (.accounts
          (upsert (recordsOf (decrypted key manager.storage storageKey)) input.id
            ⟨metadata, input.secret⟩)))) →
      crash ((storageKey, payload) :: writes made)
        (Function.update manager.storage storageKey (some payload))) :
    Through crash (persistUnder storageKey labelOf input) made manager fun _ _ _ => True := by
  refine Program.throughout_bindExcept (Program.throughout_bindExcept
    (getItem_throughout reads_calmly held (current _ rfl) fun later same => ?_))
  have quiet := current later same
  -- Nothing is written before the account is saved.
  have saves (metadata : AccountMetadata) (later : CallLog (VaultAnswer sealing))
      (same : writes later = writes made) :
      Through crash (do
        saveItem storageKey (.accounts (upsert
          (recordsOf (decrypted key manager.storage storageKey)) input.id
          ⟨metadata, ⟨input.keyMaterial, input.accountPayload⟩⟩))
        pure metadata) later manager fun _ _ _ => True := by
    refine Program.throughout_bindExcept (Program.throughout_bindExcept
      (assertUnlocked_through (current _ same) (fun _ further still => ?_) fun _ _ _ => trivial))
    have unwritten := still.trans same
    have kept nonce := stored metadata nonce _ rfl
    rw [← unwritten] at kept
    exact store_through held (current _ unwritten) kept fun _ _ kept => ⟨kept, trivial⟩
  refine ⟨quiet, Program.throughout_bindExcept ?_⟩
  cases (recordsOf (decrypted key manager.storage storageKey)).lookup input.id with
  | none =>
    exact ⟨quiet, fun _ _ => ⟨quiet, quiet, fun _ _ => saves _ _ same⟩⟩
  | some record => exact ⟨quiet, quiet, fun _ _ => saves _ _ same⟩

theorem unlock_bare (sound : sealing.Sound)
    {post : Except Thrown Bool → CallLog (VaultAnswer sealing) → Manager sealing → Prop}
    (locked : manager.encryptionKey = none) (bare : Bare manager.storage)
    (before : ∀ log storage, Bare storage → crash log storage)
    (after : ∀ log storage salt, Stocked password salt (fun _ => none) storage →
      crash log storage)
    (next : ∀ later salt storage, Stocked password salt (fun _ => none) storage →
      post (.ok true) later ⟨some (sealing.derive password salt), storage⟩) :
    Through crash (unlock password) made manager post := by
  refine ⟨before _ _ bare, fun _ _ => ?_⟩
  rw [perform_isUnlocked, locked]
  refine Program.throughout_bindExcept (loadMasterSalt_throughout reads_calmly (before _ _ bare)
    fun _ _ => ?_)
  rw [bare.unsalted]
  refine ⟨before _ _ bare, fun drawn _ => ?_⟩
  refine Program.throughout_bindExcept (useEncryptionKey_throughout (before _ _ bare)
    fun _ _ => ?_)
  refine Program.throughout_bindExcept (Program.throughout_bindExcept
    ⟨before _ _ bare, fun timed _ => ⟨before _ _ bare, ?_⟩⟩)
  refine store_through rfl (before _ _ bare) (fun nonce => before _ _ (bare.verified _))
    fun later nonce kept => ⟨kept, fun circumstance calm => ?_⟩
  rw [perform_set, calm.2]
  have stocked : Stocked password drawn.salt _ _ :=
    bare.stocked sound nonce (.verification timed.dateNow)
  exact ⟨after _ _ _ stocked, next _ _ _ stocked⟩

/-- Unlocking keeps what is stored; it ends with the key of the stored salt, unless another one was
held before. -/
theorem unlock_through (sound : sealing.Sound) (holds : Holds password shelves manager.storage) :
    Through (fun _ storage => Holds password shelves storage) (unlock password) made manager
      fun result _ after => manager.encryptionKey = none ∨
          manager.encryptionKey = storedKey password manager.storage →
        result = .ok true → ∃ salt, after.encryptionKey = some (sealing.derive password salt) ∧
          Stocked password salt shelves after.storage := by
  cases held : manager.encryptionKey with
  | some key =>
    refine ⟨holds, fun _ _ => ?_⟩
    rw [perform_isUnlocked, held]
    refine ⟨holds, fun anchored _ => ?_⟩
    have same := anchored.resolve_left nofun
    cases holds with
    | bare bare =>
      rw [bare.storedKey] at same
      cases same
    | stocked salt stocked => exact ⟨salt, held.trans (same.trans stocked.storedKey), stocked⟩
  | none =>
    cases holds with
    | bare bare =>
      exact unlock_bare sound held bare (fun _ _ => .bare) (fun _ _ => .stocked)
        fun _ salt _ stocked _ _ => ⟨salt, rfl, stocked⟩
    | stocked salt stocked =>
      refine unlock_throughout reads_calmly held stocked.salted (.stocked salt stocked)
        (fun _ _ _ _ _ => ⟨salt, rfl, stocked⟩) fun refused => ?_
      rw [stocked.accepted] at refused
      cases refused

end Methods

/-! ## The migration -/

/-- What was saved is stored, as far as it is accounted for. -/
def Kept (password : String) (past : List (MobileTransition sealing)) (storage : Storage sealing) :
    Prop :=
  ∃ shelves, Holds password shelves storage ∧ Accounted past (shelves .legacy) (shelves .unified)

/-- The shelves after the migration. -/
def migrated (shelves : Shelves Json) : Shelves Json
  | .legacy => if (shelves .unified).isSome then shelves .legacy else none
  | .unified => (shelves .unified).or (shelves .legacy)

section Migration

variable {past : List (MobileTransition sealing)} {made : CallLog (VaultAnswer sealing)}
  {manager : Manager sealing} {password : String} {salt : sealing.Salt} {shelves : Shelves Json}

theorem migrated_of_empty (empty : shelves .legacy = none) : migrated shelves = shelves := by
  funext shelf
  cases shelf with
  | legacy => rw [migrated, empty, ite_self]
  | unified => rw [migrated, empty, Option.or_none]

theorem migrated_of_taken {records : AccountRecords Json}
    (taken : shelves .unified = some records) : migrated shelves = shelves := by
  funext shelf
  cases shelf with
  | legacy => rw [migrated, taken, Option.isSome_some, if_pos rfl]
  | unified => rw [migrated, taken, Option.some_or]

theorem migrated_of_free {records : AccountRecords Json} (legacy : shelves .legacy = some records)
    (free : shelves .unified = none) :
    migrated shelves =
      Function.update (Function.update shelves .unified (some records)) .legacy none := by
  funext shelf
  cases shelf with
  | legacy => rw [migrated, free, Function.update_self]; rfl
  | unified => rw [migrated, free, legacy]; rfl

theorem getItem_through {crash : List (String × StoredValue sealing) → Storage sealing → Prop}
    {post : Except Thrown (Option (Plaintext (VaultItem Json cipher))) →
      CallLog (VaultAnswer sealing) → Manager sealing → Prop}
    (held : manager.encryptionKey = some (sealing.derive password salt))
    (stocked : Stocked password salt shelves manager.storage) (shelf : Shelf)
    (current : crash (writes made) manager.storage)
    (next : ∀ later, crash (writes later) manager.storage →
      post (.ok ((shelves shelf).map fun records => .item (.accounts records))) later manager) :
    Through crash (getItem shelf.storageKey) made manager post := by
  refine getItem_throughout reads_calmly held current fun later same => ?_
  rw [stocked.stored shelf]
  exact next later ((congrArg (crash · _) same).mpr current)

/-- The migration leaves the accounts where it found them, copies them or moves them. -/
theorem moveLegacyAccounts_through (sound : sealing.Sound)
    (held : manager.encryptionKey = some (sealing.derive password salt))
    (stocked : Stocked password salt shelves manager.storage)
    (accounted : Accounted past (shelves .legacy) (shelves .unified)) :
    Through (fun _ storage => Kept password past storage) moveLegacyAccounts made manager
      fun _ _ after => after.encryptionKey = some (sealing.derive password salt) ∧
        Stocked password salt (migrated shelves) after.storage := by
  have kept : Kept password past manager.storage := ⟨shelves, .stocked salt stocked, accounted⟩
  refine Program.throughout_bindExcept (getItem_through held stocked .legacy kept fun _ _ => ?_)
  cases legacy : shelves .legacy with
  | none =>
    rw [migrated_of_empty legacy]
    exact ⟨kept, held, stocked⟩
  | some records =>
    refine Program.throughout_bindExcept (getItem_through held stocked .unified kept fun _ _ => ?_)
    cases unified : shelves .unified with
    | some others =>
      rw [migrated_of_taken unified]
      exact ⟨kept, held, stocked⟩
    | none =>
      rw [migrated_of_free legacy unified]
      rw [legacy, unified] at accounted
      have copied (nonce : sealing.Nonce) := stocked.store sound .unified nonce records
      have keptCopied (nonce : sealing.Nonce) : Kept password past _ :=
        ⟨_, .stocked salt (copied nonce), accounted.moved (.inl legacy)⟩
      refine Program.throughout_bindExcept (Program.throughout_bindExcept
        (assertUnlocked_through kept (fun _ _ _ => ?_) fun locked => ?_))
      · refine store_through held kept keptCopied fun _ nonce _ => ?_
        have moved := (copied nonce).delete .legacy
        have keptMoved : Kept password past _ :=
          ⟨_, .stocked salt moved, accounted.moved (.inr rfl)⟩
        refine Program.throughout_bindExcept ⟨keptCopied nonce, fun circumstance calm => ?_⟩
        rw [perform, calm.2]
        exact ⟨keptMoved, keptMoved, held, moved⟩
      · rw [held] at locked
        cases locked

theorem migrate_through (sound : sealing.Sound)
    (held : manager.encryptionKey = some (sealing.derive password salt))
    (stocked : Stocked password salt shelves manager.storage)
    (accounted : Accounted past (shelves .legacy) (shelves .unified)) :
    Through (fun _ storage => Kept password past storage) migrateLegacyMobileVault made manager
      fun _ _ after => after.encryptionKey = some (sealing.derive password salt) ∧
        Stocked password salt (migrated shelves) after.storage := by
  have kept : Kept password past manager.storage := ⟨shelves, .stocked salt stocked, accounted⟩
  refine Program.throughout_bindExcept ⟨kept, fun _ _ => ?_⟩
  rw [perform_isUnlocked, held]
  refine ⟨kept, ?_⟩
  refine Program.throughout_bind (Program.throughout_mono
    (moveLegacyAccounts_through sound held stocked accounted) fun result _ _ kept ended => ?_)
  cases result with
  | ok moved => exact ⟨kept, ended⟩
  | error error => exact ⟨kept, ended⟩

theorem unlockShared_through (sound : sealing.Sound)
    (holds : Holds password shelves manager.storage)
    (accounted : Accounted past (shelves .legacy) (shelves .unified))
    (anchored : manager.encryptionKey = none ∨
      manager.encryptionKey = storedKey password manager.storage) :
    Through (fun _ storage => Kept password past storage) (unlockSharedStorageManager password)
      made manager fun result _ after => result = .ok true →
        ∃ salt, after.encryptionKey = some (sealing.derive password salt) ∧
          Stocked password salt (migrated shelves) after.storage := by
  refine Program.throughout_bindExcept (Program.throughout_mono (Program.throughout_wider
    (unlock_through sound holds) (fun _ _ holds => ⟨shelves, holds, accounted⟩))
    fun result made after kept ended => ?_)
  cases result with
  | error error => exact nofun
  | ok unlocked =>
    cases unlocked with
    | false => exact ⟨kept, nofun⟩
    | true =>
      obtain ⟨salt, held, stocked⟩ := ended anchored rfl
      refine Program.throughout_bindExcept (Program.throughout_lift (Program.throughout_mono
        (migrate_through sound held stocked accounted) fun _ _ _ kept ended => ⟨kept, fun _ => ?_⟩))
      exact ⟨salt, ended⟩

end Migration

/-! ## Steps -/

/-- Whether the call reads items. -/
def MobileCall.reads : MobileCall Json → Bool
  | persistLegacy _ _ | persist _ | unlockShared => true
  | unlockVault _ | lock _ => false

/-- A call that reads items is made with the key of the stored salt, if with any. -/
def Anchored (password : String) (step : MobileStep sealing) (device : Device sealing) : Prop :=
  step.call.reads = true → device.keys step.call.manager = none ∨
    device.keys step.call.manager = storedKey password device.storage

instance [DecidableEq sealing.Key] (password : String) (step : MobileStep sealing)
    (device : Device sealing) : Decidable (Anchored password step device) :=
  inferInstanceAs (Decidable (_ → _ ∨ _))

section Steps

variable {past : List (MobileTransition sealing)} {transition : MobileTransition sealing}
  {password : String}

theorem rest_of_resultOf {α : Type} {rest : Program (VaultAnswer sealing) α} {result : α}
    (returned : resultOf rest = some result) : rest = .done result := by
  cases rest with
  | done _ => rw [Option.some.inj returned]
  | call _ _ => cases returned

/-- What a step that was performed came to, by what its method does throughout. -/
theorem step_of_through {crash : List (String × StoredValue sealing) → Storage sealing → Prop}
    {post : Except Thrown Bool → Manager sealing → Prop}
    (performed : transition.Performed (mobileStep password))
    (through : Through crash (transition.input.call.method password) []
      (transition.before.manager transition.input.call.manager)
      fun result _ after => post result after) :
    (∃ log, transition.output.wrote = (writes log).map Prod.fst ∧
      crash (writes log) transition.after.storage) ∧
    ∀ result, transition.output.result = some result → transition.input.dies = false →
      post result (transition.after.manager transition.input.call.manager) := by
  obtain ⟨output, after⟩ := Prod.mk.inj (Option.some.inj performed)
  have calmly : ∀ circumstance ∈ transition.input.draws.map (·.circumstance),
      circumstance.Calm := by
    intro circumstance member
    obtain ⟨draws, -, rfl⟩ := List.mem_map.mp member
    exact ⟨rfl, rfl⟩
  obtain ⟨anywhere, ends⟩ := Program.stopped_of_throughout through calmly
  rw [← output, ← after]
  refine ⟨⟨_, rfl, anywhere⟩, fun result returned alive => ?_⟩
  have ended := ends result (rest_of_resultOf returned)
  rw [alive, if_neg Bool.false_ne_true]
  simp only [Device.manager, Function.update_self]
  exact ended

/-- A step that persists no account. -/
theorem silent_of_persists (silent : transition.input.call.persists = none) (shelf : Shelf)
    (id : String) : savedOn shelf id transition = none := by
  rw [savedOn, silent]

theorem Kept.silent {storage : Storage sealing} (kept : Kept password past storage)
    (silent : transition.input.call.persists = none) :
    Kept password (transition :: past) storage := by
  obtain ⟨shelves, holds, accounted⟩ := kept
  exact ⟨shelves, holds, accounted.silent (silent_of_persists silent)⟩

/-- What `persistUnder` leaves, and wrote, wherever it stops. -/
def Persisting (password : String) (past : List (MobileTransition sealing)) (shelf : Shelf)
    (input : PersistAccountInput Json) (log : List (String × StoredValue sealing))
    (storage : Storage sealing) : Prop :=
  log = [] ∧ Kept password past storage ∨
    shelf.storageKey ∈ log.map Prod.fst ∧ ∃ shelves salt metadata,
      Stocked password salt (Function.update shelves shelf
        (withAccount (shelves shelf) input metadata)) storage ∧
      Accounted past (shelves .legacy) (shelves .unified)

theorem Persisting.kept {shelf : Shelf} {input : PersistAccountInput Json}
    {log : List (String × StoredValue sealing)} {storage : Storage sealing}
    (persists : transition.input.call.persists = some (shelf, input))
    (wrote : transition.output.wrote = log.map Prod.fst)
    (persisting : Persisting password past shelf input log storage) :
    Kept password (transition :: past) storage := by
  have saved (other : Shelf) (id : String) : savedOn other id transition =
      if other = shelf ∧ id = input.id ∧ shelf.storageKey ∈ log.map Prod.fst then
        some input.secret else none := by
    rw [savedOn, persists, wrote]
    refine if_congr ⟨?_, ?_⟩ rfl rfl
    · rintro ⟨rfl, rfl, written⟩
      exact ⟨rfl, rfl, written⟩
    · rintro ⟨rfl, rfl, written⟩
      exact ⟨rfl, rfl, written⟩
  rcases persisting with ⟨rfl, shelves, holds, accounted⟩ | ⟨written, shelves, salt, metadata,
    stocked, accounted⟩
  · refine ⟨shelves, holds, accounted.silent fun other id => ?_⟩
    rw [saved, if_neg fun this => List.not_mem_nil this.2.2]
  · refine ⟨_, .stocked salt stocked, ?_⟩
    cases shelf with
    | legacy =>
      refine accounted.saveLegacy metadata fun other id => ?_
      rw [saved]
      simp only [written, and_true]
    | unified =>
      refine accounted.saveUnified metadata fun other id => ?_
      rw [saved]
      simp only [written, and_true]

theorem Stocked.recordsOf {salt : sealing.Salt} {shelves : Shelves Json}
    {storage : Storage sealing} (stocked : Stocked password salt shelves storage) (shelf : Shelf) :
    recordsOf (decrypted (sealing.derive password salt) storage shelf.storageKey) =
      (shelves shelf).getD [] := by
  rw [stocked.stored shelf]
  cases shelves shelf with
  | none => rfl
  | some records => rfl

theorem persist_through (sound : sealing.Sound) {manager : Manager sealing} {shelf : Shelf}
    {labelOf : Option (PersistedAccountRecord Json) → Option String}
    {input : PersistAccountInput Json} (kept : Kept password past manager.storage)
    (anchored : manager.encryptionKey = none ∨
      manager.encryptionKey = storedKey password manager.storage) :
    Through (Persisting password past shelf input) (do
      let _ ← persistUnder shelf.storageKey labelOf input
      pure true) [] manager fun _ _ _ => True := by
  refine Program.throughout_bindExcept (Program.throughout_mono
    (?_ : Through _ _ _ _ fun _ _ _ => True) fun result _ _ persisting _ => ?_)
  · cases held : manager.encryptionKey with
    | none => exact persistUnder_locked held (.inl ⟨rfl, kept⟩)
    | some key =>
      have same := held.symm.trans (anchored.resolve_left (by rw [held]; nofun))
      obtain ⟨shelves, holds, accounted⟩ := id kept
      cases holds with
      | bare bare =>
        rw [bare.storedKey] at same
        cases same
      | stocked salt stocked =>
        obtain rfl := Option.some.inj (same.trans stocked.storedKey)
        refine persistUnder_through held (fun _ unwritten => .inl ⟨unwritten, kept⟩) ?_
        rintro metadata nonce _ rfl
        have stored := stocked.store sound shelf nonce (upsert ((shelves shelf).getD []) input.id
          ⟨metadata, input.secret⟩)
        rw [← stocked.recordsOf shelf] at stored
        refine .inr ⟨List.mem_cons_self, shelves, salt, metadata, ?_, accounted⟩
        rw [withAccount, ← stocked.recordsOf shelf]
        exact stored
  · cases result with
    | ok _ => exact ⟨persisting, trivial⟩
    | error _ => trivial

/-- Both calls that persist an account are `persistUnder`. -/
theorem method_of_persists {call : MobileCall Json} {shelf : Shelf}
    {input : PersistAccountInput Json} (persists : call.persists = some (shelf, input)) :
    ∃ labelOf, (call.method password : Async sealing Bool) = (do
      let _ ← persistUnder shelf.storageKey labelOf input
      pure true) := by
  cases call with
  | persistLegacy vault input =>
    cases persists
    exact ⟨_, rfl⟩
  | persist input =>
    cases persists
    rw [MobileCall.method, persistAccount_eq]
    exact ⟨_, rfl⟩
  | unlockVault _ => cases persists
  | unlockShared => cases persists
  | lock _ => cases persists

theorem kept_of_persists (sound : sealing.Sound) {shelf : Shelf}
    {input : PersistAccountInput Json} (kept : Kept password past transition.before.storage)
    (persists : transition.input.call.persists = some (shelf, input))
    (anchored : Anchored password transition.input transition.before)
    (performed : transition.Performed (mobileStep password)) :
    Kept password (transition :: past) transition.after.storage := by
  have reads : transition.input.call.reads = true := by
    revert persists
    cases transition.input.call with
    | persistLegacy _ _ => exact fun _ => rfl
    | persist _ => exact fun _ => rfl
    | unlockVault _ => nofun
    | unlockShared => nofun
    | lock _ => nofun
  obtain ⟨labelOf, method⟩ := method_of_persists persists
  have through : Through (Persisting password past shelf input)
      (transition.input.call.method password) []
      (transition.before.manager transition.input.call.manager) fun _ _ _ => True := by
    rw [method]
    exact persist_through sound kept (anchored reads)
  obtain ⟨⟨log, wrote, persisting⟩, -⟩ := step_of_through performed through
  exact persisting.kept persists wrote

/-- A step keeps what was saved, if its manager has no key but that of the stored salt. -/
theorem kept_step (sound : sealing.Sound) (kept : Kept password past transition.before.storage)
    (anchored : Anchored password transition.input transition.before)
    (performed : transition.Performed (mobileStep password)) :
    Kept password (transition :: past) transition.after.storage := by
  -- The two calls that persist an account are one case.
  cases persists : transition.input.call.persists with
  | some saved => exact kept_of_persists sound kept persists anchored performed
  | none =>
    have through : Through (fun _ storage => Kept password past storage)
        (transition.input.call.method password) []
        (transition.before.manager transition.input.call.manager) fun _ _ _ => True := by
      unfold Anchored at anchored
      obtain ⟨shelves, holds, accounted⟩ := id kept
      cases call : transition.input.call with
      | unlockVault vault =>
        exact Program.throughout_wider (Program.throughout_mono (unlock_through sound holds)
          fun _ _ _ _ _ => trivial) fun _ _ still => ⟨shelves, still, accounted⟩
      | persistLegacy vault input =>
        rw [call] at persists
        cases persists
      | persist input =>
        rw [call] at persists
        cases persists
      | unlockShared =>
        rw [call] at anchored
        exact Program.throughout_mono (unlockShared_through sound holds accounted (anchored rfl))
          fun _ _ _ _ _ => trivial
      | lock manager => exact ⟨kept, fun _ _ => ⟨kept, trivial⟩⟩
    obtain ⟨⟨_, -, still⟩, -⟩ := step_of_through performed through
    exact still.silent persists

end Steps

/-! ## What is found after an unlock -/

/-- What `loadAccount` of the shared manager comes to. -/
def Device.found (calm : Circumstance sealing) (device : Device sealing) (accountId : String) :
    Except Thrown (Option (PersistedAccountRecord Json)) :=
  ((loadAccount accountId).run.alone perform calm (device.manager .shared, [])).1

/-- Every account is found with the secret that is wanted. -/
def FindsAll (calm : Circumstance sealing) (device : Device sealing)
    (past : List (MobileTransition sealing)) : Prop :=
  ∀ id secret, wanted past id = some secret →
    ∃ metadata, device.found calm id = .ok (some ⟨metadata, secret⟩)

/-- The shared manager was unlocked, and nothing failed. -/
structure Unlocked (transition : MobileTransition sealing) : Prop where
  call : transition.input.call = .unlockShared
  alive : transition.input.dies = false
  returned : transition.output.result = some (.ok true)

/-- The accounts that the key of the stored salt reads. -/
def Device.shelves (password : String) (device : Device sealing) : Shelves Json := fun shelf =>
  (storedKey password device.storage).bind fun key =>
    match decrypted key device.storage shelf.storageKey with
    | some (.item (.accounts records)) => some records
    | _ => none

/-- Where accounts are under the new key, none is under the legacy key alone, or with another secret
than the one that was moved from there. -/
def Reconciled (past : List (MobileTransition sealing)) (shelves : Shelves Json) : Prop :=
  (shelves .unified).isSome → ∀ id secret, secretIn (shelves .legacy) id = some secret →
    lastSaved past .unified id ≠ none ∨ secretIn (shelves .unified) id = some secret

section Found

variable {past : List (MobileTransition sealing)} {transition : MobileTransition sealing}
  {password : String} {shelves : Shelves Json} {calm : Circumstance sealing}

theorem Holds.device_shelves {device : Device sealing}
    (holds : Holds password shelves device.storage) :
    device.shelves password = shelves := by
  funext shelf
  rw [Device.shelves]
  cases holds with
  | bare bare => rw [bare.storedKey, Option.bind_none]
  | stocked salt stocked =>
    rw [stocked.storedKey, Option.bind_some, stocked.stored shelf]
    cases shelves shelf with
    | none => rfl
    | some records => rfl

theorem found_of_stocked (isCalm : calm.Calm) {device : Device sealing} {salt : sealing.Salt}
    (held : device.keys .shared = some (sealing.derive password salt))
    (stocked : Stocked password salt shelves device.storage) (id : String) :
    device.found calm id = .ok (((shelves .unified).getD []).lookup id) := by
  have loaded : Calmly (loadAccount id) [] (device.manager .shared)
      fun result _ _ => result = .ok (((shelves .unified).getD []).lookup id) := by
    refine Program.throughout_bindExcept (loadAccountRecords_calmly held fun _ => ⟨trivial, ?_⟩)
    rw [← stocked.recordsOf .unified]
    rfl
  exact alone_of_calmly isCalm (fun _ member => absurd member List.not_mem_nil) loaded

theorem secretIn_eq_some_iff {records : Option (AccountRecords Json)} {id : String}
    {secret : AccountSecretPayload Json} : secretIn records id = some secret ↔
      ∃ metadata, (records.getD []).lookup id = some ⟨metadata, secret⟩ := by
  cases records with
  | none => simp [secretIn]
  | some records =>
    rw [secretIn, Option.bind_some, Option.map_eq_some_iff, Option.getD_some]
    constructor
    · rintro ⟨⟨metadata, _⟩, found, rfl⟩
      exact ⟨metadata, found⟩
    · rintro ⟨metadata, found⟩
      exact ⟨_, found, rfl⟩

theorem findsAll_iff (isCalm : calm.Calm) {device : Device sealing} {salt : sealing.Salt}
    (held : device.keys .shared = some (sealing.derive password salt))
    (stocked : Stocked password salt shelves device.storage) :
    FindsAll calm device past ↔
      ∀ id secret, wanted past id = some secret → secretIn (shelves .unified) id = some secret := by
  refine forall₃_congr fun id secret _ => ?_
  rw [found_of_stocked isCalm held stocked, secretIn_eq_some_iff]
  simp only [Except.ok.injEq]

theorem Accounted.migrated (accounted : Accounted past (shelves .legacy) (shelves .unified)) :
    Accounted past (migrated shelves .legacy) (migrated shelves .unified) := by
  cases unified : shelves .unified with
  | some records => rwa [migrated_of_taken unified]
  | none =>
    rw [unified] at accounted
    have moved := accounted.moved (.inr rfl)
    rwa [Vault.migrated, Vault.migrated, unified, Option.isSome_none, if_neg Bool.false_ne_true]

/-- After an unlock that moved what it could, what is missing is what it left. -/
theorem complete_migrated_iff (accounted : Accounted past (shelves .legacy) (shelves .unified)) :
    (∀ id secret, wanted past id = some secret →
      secretIn (migrated shelves .unified) id = some secret) ↔ Reconciled past shelves := by
  rw [accounted.migrated.complete_iff, Reconciled]
  cases unified : shelves .unified with
  | none =>
    have emptied : migrated shelves .legacy = none := by
      rw [migrated, unified]
      rfl
    rw [emptied]
    exact iff_of_true (fun _ _ => nofun) nofun
  | some records =>
    rw [migrated_of_taken unified, unified]
    exact ⟨fun complete _ => complete, fun reconciled => reconciled rfl⟩

/-- An unlock that succeeds finds every account, just if it left none behind. -/
theorem findsAll_of_unlocked (sound : sealing.Sound) (isCalm : calm.Calm)
    (kept : Kept password past transition.before.storage)
    (anchored : Anchored password transition.input transition.before)
    (performed : transition.Performed (mobileStep password)) (unlocked : Unlocked transition) :
    FindsAll calm transition.after past ↔
      Reconciled past (transition.before.shelves password) := by
  unfold Anchored at anchored
  have through := @step_of_through _ _ _ transition password
  rw [unlocked.call] at anchored through
  obtain ⟨shelves, holds, accounted⟩ := kept
  obtain ⟨-, ended⟩ := through performed (unlockShared_through sound holds accounted (anchored rfl))
  obtain ⟨salt, held, stocked⟩ := ended _ unlocked.returned unlocked.alive rfl
  rw [findsAll_iff isCalm held stocked, complete_migrated_iff accounted, holds.device_shelves]

end Found

/-! ## Runs -/

theorem kept_new (password : String) :
    Kept password ([] : List (MobileTransition sealing)) Device.new.storage :=
  ⟨fun _ => none, .bare ⟨rfl, fun _ => rfl⟩, .nothing fun _ _ => rfl⟩

/-- As long as no manager works with a key whose salt is not the stored one, an unlock that succeeds
finds every account just if it left none behind. -/
theorem migration_keeps_iff (sound : sealing.Sound) {calm : Circumstance sealing}
    (isCalm : calm.Calm) (password : String) (steps : List (MobileStep sealing))
    (anchored : ∀ transition ∈ history (mobileStep password) .new steps,
      Anchored password transition.input transition.before) :
    Historically (fun transition earlier => Unlocked transition →
        (FindsAll calm transition.after earlier ↔
          Reconciled earlier (transition.before.shelves password)))
      (history (mobileStep password) .new steps).reverse := by
  have invariant : HistoryInvariant (mobileStep password) (Device.new : Device sealing)
      fun past device =>
        (∀ transition ∈ past, Anchored password transition.input transition.before) →
        Kept password past.reverse device.storage ∧
          Historically (fun transition earlier => Unlocked transition →
            (FindsAll calm transition.after earlier ↔
              Reconciled earlier (transition.before.shelves password))) past.reverse := by
    constructor
    · exact fun _ => ⟨kept_new password, trivial⟩
    · intro past transition before performed anchored
      rw [List.forall_mem_append] at anchored
      obtain ⟨kept, found⟩ := before anchored.1
      have current := anchored.2 transition List.mem_cons_self
      rw [List.reverse_concat]
      exact ⟨kept_step sound kept current performed,
        findsAll_of_unlocked sound isCalm kept current performed, found⟩
  exact (invariant.holds_final steps anchored).2

/-! ### Sample runs -/

/-- What holds of every transition holds of the last one. -/
theorem historically_last
    {holds : MobileTransition sealing → List (MobileTransition sealing) → Prop}
    {password : String} {steps : List (MobileStep sealing)} {step : MobileStep sealing}
    {device : Device sealing} {report : Report} {after : Device sealing}
    (history_holds : Historically holds
      (history (mobileStep password) device (steps ++ [step])).reverse)
    (performed : mobileStep password step (final (mobileStep password) device steps) =
      some (report, after)) :
    holds ⟨step, final (mobileStep password) device steps, report, after⟩
      (history (mobileStep password) device steps).reverse := by
  rw [history_append, history_of_performed _ performed, history_nil, List.reverse_concat]
    at history_holds
  exact history_holds.1

/-- Calls that nothing stops. -/
def undisturbed (calls : List (MobileCall String)) : List (MobileStep symbolicItems) :=
  calls.map fun call => ⟨call, List.replicate 20 ⟨0, (1 : Nat), ()⟩, false⟩

def sampleAccount (id : String) : PersistAccountInput String :=
  ⟨id, "G", none, "key of " ++ id, "\x7b\x7d"⟩

def unlockingShared : MobileStep symbolicItems :=
  ⟨.unlockShared, List.replicate 20 ⟨0, (1 : Nat), ()⟩, false⟩

/-- An account saved before there was anything but `MobileSecureVault`. -/
def upgradingSteps : List (MobileStep symbolicItems) :=
  undisturbed [.unlockVault 0, .persistLegacy 0 (sampleAccount "a")]

theorem upgradingSteps_find :
    FindsAll (.drawing 1)
      (final (mobileStep "password") .new (upgradingSteps ++ [unlockingShared]))
      (history (mobileStep "password") .new upgradingSteps).reverse := by
  have keeps := migration_keeps_iff (Sealing.symbolic_sound _)
    (⟨rfl, rfl⟩ : (Circumstance.drawing 1).Calm) "password" (upgradingSteps ++ [unlockingShared])
    (by decide +kernel)
  exact (historically_last keeps rfl ⟨rfl, rfl, rfl⟩).mpr nofun

/-- An account saved by `MobileSecureVault` when another one is under the new key already. -/
def leavingSteps : List (MobileStep symbolicItems) :=
  undisturbed [.unlockShared, .persist (sampleAccount "b"), .unlockVault 0,
    .persistLegacy 0 (sampleAccount "a")]

/-- The account stays under the legacy key, and is not found. -/
theorem account_left_behind :
    ¬ ∀ steps : List (MobileStep symbolicItems),
      Historically (fun transition earlier =>
          Unlocked transition → FindsAll (.drawing 1) transition.after earlier)
        (history (mobileStep "password") .new steps).reverse := by
  intro found
  have finds := found (leavingSteps ++ [unlockingShared])
  obtain ⟨metadata, loaded⟩ := historically_last finds rfl ⟨rfl, rfl, rfl⟩ "a"
    (sampleAccount "a").secret (by rfl)
  cases loaded

end Ancore.Vault
