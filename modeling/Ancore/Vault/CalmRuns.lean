import Ancore.Vault.Accounts
import Ancore.Vault.PasswordChange

/-! # Calm runs of the methods

Where the storage is read as it is and every write is carried out, no method fails
but for a locked vault, and each one says what it stores. -/

namespace Ancore.Vault

open Ancore.Library

variable {Json : Type} {cipher : Sealing String}
  {sealing : Sealing (Plaintext (VaultItem Json cipher))}

/-- In calm circumstances the method ends as stated. -/
abbrev Calmly {α : Type} (method : Async sealing α) (made : CallLog (VaultAnswer sealing))
    (manager : Manager sealing)
    (post : Except Thrown α → CallLog (VaultAnswer sealing) → Manager sealing → Prop) : Prop :=
  method.run.Throughout perform Circumstance.Calm (During fun _ _ => True) post made manager

theorem alone_of_calmly {α : Type} {calm : Circumstance sealing} (isCalm : calm.Calm)
    {circumstances : List (Circumstance sealing)}
    (calmly : ∀ circumstance ∈ circumstances, circumstance.Calm) {method : Async sealing α}
    {manager : Manager sealing} {post : Except Thrown α → Manager sealing → Prop}
    (ended : Calmly method [] manager fun result _ after => post result after) :
    post (method.run.alone perform calm (manager, circumstances)).1
      (method.run.alone perform calm (manager, circumstances)).2.1 := by
  obtain ⟨-, ends⟩ := Program.alone_of_always (Program.always_of_throughout ended) calmly isCalm
  exact ends

section Methods

variable {made : CallLog (VaultAnswer sealing)} {manager : Manager sealing} {key : sealing.Key}

theorem loadAccountRecords_calmly
    {post : Except Thrown (AccountRecords Json) → CallLog (VaultAnswer sealing) →
      Manager sealing → Prop}
    (held : manager.encryptionKey = some key)
    (next : ∀ later,
      post (.ok (recordsOf (decrypted key manager.storage defaultAccountsStorageKey))) later
        manager) :
    Calmly loadAccountRecords made manager post :=
  Program.throughout_bindExcept (getItem_throughout (fun _ calm => calm.1) held trivial
    fun later _ => ⟨trivial, next later⟩)

theorem saveItem_calmly {name : String} {value : VaultItem Json cipher}
    {post : Except Thrown Unit → CallLog (VaultAnswer sealing) → Manager sealing → Prop}
    (held : manager.encryptionKey = some key)
    (next : ∀ later nonce, post (.ok ()) later { manager with
      storage := Function.update manager.storage name
        (some (.payload (sealing.encrypt key nonce (.item value)))) }) :
    Calmly (saveItem name value) made manager post := by
  refine ⟨trivial, fun _ _ => ?_⟩
  rw [perform_isUnlocked, held]
  refine storeEncrypted_throughout held trivial
    (fun later payload _ isSealed => ⟨trivial, ?_⟩)
    fun circumstance calm throws => absurd (calm.2.symm.trans throws) nofun
  obtain ⟨nonce, rfl⟩ := isSealed
  exact next later nonce

/-- A locked vault is neither read nor written. -/
theorem assertUnlocked_locked {post : Except Thrown Unit → CallLog (VaultAnswer sealing) →
      Manager sealing → Prop}
    (locked : manager.encryptionKey = none)
    (refused : ∀ error later, post (.error error) later manager) :
    Calmly assertUnlocked made manager post := by
  refine ⟨trivial, fun _ _ => ?_⟩
  rw [perform_isUnlocked, locked]
  exact ⟨trivial, refused _ _⟩

theorem loadAccountRecords_locked
    {post : Except Thrown (AccountRecords Json) → CallLog (VaultAnswer sealing) →
      Manager sealing → Prop}
    (locked : manager.encryptionKey = none)
    (refused : ∀ error later, post (.error error) later manager) :
    Calmly loadAccountRecords made manager post :=
  Program.throughout_bindExcept (Program.throughout_bindExcept
    (assertUnlocked_locked locked fun error later => refused error later))

theorem persistAccount_calmly {input : PersistAccountInput Json}
    {post : Except Thrown AccountMetadata → CallLog (VaultAnswer sealing) → Manager sealing → Prop}
    (held : manager.encryptionKey = some key)
    (next : ∀ later nonce metadata, post (.ok metadata) later { manager with
      storage := Function.update manager.storage defaultAccountsStorageKey
        (some (.payload (sealing.encrypt key nonce (.item (.accounts
          (upsert (recordsOf (decrypted key manager.storage defaultAccountsStorageKey)) input.id
            ⟨metadata, ⟨input.keyMaterial, input.accountPayload⟩⟩)))))) }) :
    Calmly (persistAccount input) made manager post := by
  refine Program.throughout_bindExcept (loadAccountRecords_calmly held fun made => ?_)
  refine Program.throughout_bindExcept ?_
  cases (recordsOf (decrypted key manager.storage defaultAccountsStorageKey)).lookup input.id with
  | none =>
    exact ⟨trivial, fun _ _ => ⟨trivial, trivial, fun _ _ => Program.throughout_bindExcept
      (saveItem_calmly held fun later nonce => ⟨trivial, next later nonce _⟩)⟩⟩
  | some record =>
    exact ⟨trivial, trivial, fun _ _ => Program.throughout_bindExcept
      (saveItem_calmly held fun later nonce => ⟨trivial, next later nonce _⟩)⟩

theorem deleteAccount_calmly {accountId : String}
    {post : Except Thrown Unit → CallLog (VaultAnswer sealing) → Manager sealing → Prop}
    (held : manager.encryptionKey = some key)
    (next : ∀ later nonce, post (.ok ()) later { manager with
      storage := Function.update manager.storage defaultAccountsStorageKey
        (some (.payload (sealing.encrypt key nonce (.item (.accounts
          (remove (recordsOf (decrypted key manager.storage defaultAccountsStorageKey))
            accountId)))))) }) :
    Calmly (deleteAccount accountId) made manager post :=
  Program.throughout_bindExcept (loadAccountRecords_calmly held fun _ =>
    saveItem_calmly held next)

theorem createVerificationPayload_calmly
    {post : Except Thrown Unit → CallLog (VaultAnswer sealing) → Manager sealing → Prop}
    (held : manager.encryptionKey = some key)
    (next : ∀ later nonce timestamp, post (.ok ()) later { manager with
      storage := Function.update manager.storage verificationPayloadStorageKey
        (some (.payload (sealing.encrypt key nonce (.verification timestamp)))) }) :
    Calmly createVerificationPayload made manager post := by
  refine Program.throughout_bindExcept ⟨trivial, fun timed _ => ⟨trivial, ?_⟩⟩
  refine storeEncrypted_throughout held trivial
    (fun later payload _ isSealed => ⟨trivial, ?_⟩)
    fun circumstance calm throws => absurd (calm.2.symm.trans throws) nofun
  obtain ⟨nonce, rfl⟩ := isSealed
  exact next later nonce timed.dateNow

theorem set_calmly {name : String} {value : StoredValue sealing}
    {post : Except Thrown Unit → CallLog (VaultAnswer sealing) → Manager sealing → Prop}
    (next : ∀ later, post (.ok ()) later
      { manager with storage := Function.update manager.storage name (some value) }) :
    Calmly (ExceptT.mk (awaited (.set name value))) made manager post := by
  refine ⟨trivial, fun circumstance calm => ?_⟩
  rw [perform_set, calm.2]
  exact ⟨trivial, next _⟩

theorem rekey_calmly {newPassword : String} {names : List String}
    {post : Except Thrown Unit → CallLog (VaultAnswer sealing) → Manager sealing → Prop}
    (distinct : names.Nodup) (nothing : writes made = [])
    (next : ∀ later newSalt after nonce text,
      Writing (sealing.derive newPassword newSalt) manager.storage
        (contents key manager.storage names) after →
      post (.ok ()) later ⟨some (sealing.derive newPassword newSalt),
        Function.update (Function.update after verificationPayloadStorageKey (some (.payload
          (sealing.encrypt (sealing.derive newPassword newSalt) nonce text))))
          masterSaltStorageKey (some (.masterSalt newSalt))⟩) :
    Calmly (rekey newPassword (contents key manager.storage names)) made manager post := by
  have distinctNames : ((contents key manager.storage names).map Prod.fst).Nodup := by
    rw [map_fst_contents]
    exact distinct.filter _
  refine ⟨trivial, fun drawn _ => ?_⟩
  refine Program.throughout_bindExcept (useEncryptionKey_throughout trivial fun made same => ?_)
  have quiet : Vault.writes made = [] := same.trans nothing
  have untouched : Writing (sealing.derive newPassword drawn.salt) manager.storage []
      manager.storage := ⟨fun _ _ => rfl, nofun⟩
  refine Program.throughout_bindExcept (encryptAll_throughout rfl distinctNames untouched
    (fun _ _ _ _ _ _ _ => trivial) (by rw [quiet]; rfl)
    (fun later after _ held writing => ?_)
    fun circumstance calm throws => absurd (calm.2.symm.trans throws) nofun)
  obtain ⟨encryptionKey, storage⟩ := after
  obtain rfl : encryptionKey = some (sealing.derive newPassword drawn.salt) := held
  exact Program.throughout_bindExcept (createVerificationPayload_calmly rfl
    fun _ nonce timestamp => set_calmly fun later =>
      next later drawn.salt storage nonce (.verification timestamp) writing)

/-- A change that can read everything writes it anew under the new password and a new salt. -/
theorem changePassword_calmly {currentPassword newPassword : String} {salt : sealing.Salt}
    {additionalKeys : List String}
    {post : Except Thrown Bool → CallLog (VaultAnswer sealing) → Manager sealing → Prop}
    (salted : manager.storage masterSaltStorageKey = some (.masterSalt salt))
    (readable : accepts (sealing.derive currentPassword salt) manager.storage = true →
      ¬ Unreadable (sealing.derive currentPassword salt) manager.storage
        (dataKeys additionalKeys))
    (right : accepts (sealing.derive currentPassword salt) manager.storage = true →
      ∀ later newSalt after nonce text,
        Writing (sealing.derive newPassword newSalt) manager.storage
          (contents (sealing.derive currentPassword salt) manager.storage (dataKeys additionalKeys))
          after →
        post (.ok true) later ⟨some (sealing.derive newPassword newSalt),
          Function.update (Function.update after verificationPayloadStorageKey (some (.payload
            (sealing.encrypt (sealing.derive newPassword newSalt) nonce text))))
            masterSaltStorageKey (some (.masterSalt newSalt))⟩)
    (wrong : accepts (sealing.derive currentPassword salt) manager.storage = false → ∀ later,
      post (.ok false) later ⟨none, manager.storage⟩) :
    Calmly (changePassword currentPassword newPassword additionalKeys) [] manager post := by
  have reads : ∀ circumstance : Circumstance sealing,
      circumstance.Calm → circumstance.corrupted = none := fun _ calm => calm.1
  refine Program.throughout_bindExcept (loadMasterSalt_throughout reads trivial fun made none => ?_)
  rw [salted]
  refine Program.throughout_bindExcept (lock_throughout trivial fun made same => ?_)
  have none := same.trans none
  refine Program.throughout_bindExcept (useEncryptionKey_throughout trivial fun made same => ?_)
  have none := same.trans none
  refine Program.throughout_bindExcept (verifyPassword_throughout reads rfl trivial
    (fun accepted made same => ?_) fun refused made after _ same _ => ?_)
  · have none := same.trans none
    refine Program.throughout_bindExcept (decryptAll_throughout (dataKeys additionalKeys) reads rfl
      trivial (fun made same => ?_) fun unreadable => absurd unreadable (readable accepted))
    have none := same.trans none
    refine Program.throughout_bindExcept (rekey_calmly (nodup_setOf _) none
      fun later newSalt after nonce text writing => ?_)
    exact ⟨trivial, right accepted later newSalt after nonce text writing⟩
  · refine ⟨trivial, fun _ _ => ⟨trivial, ?_⟩⟩
    have refusal := wrong refused
    rw [← same] at refusal
    exact refusal _

theorem unlock_calmly {password : String} {salt : sealing.Salt}
    {post : Except Thrown Bool → CallLog (VaultAnswer sealing) → Manager sealing → Prop}
    (salted : manager.storage masterSaltStorageKey = some (.masterSalt salt))
    (unlocked : manager.encryptionKey.isSome → ∀ later, post (.ok true) later manager)
    (right : accepts (sealing.derive password salt) manager.storage = true → ∀ later,
      post (.ok true) later ⟨some (sealing.derive password salt), manager.storage⟩)
    (wrong : accepts (sealing.derive password salt) manager.storage = false → ∀ later after,
      after.storage = manager.storage → Cleared after → post (.ok false) later after) :
    Calmly (unlock password) made manager post := by
  cases held : manager.encryptionKey with
  | none =>
    exact unlock_throughout (fun _ calm => calm.1) held salted trivial
      (fun accepted later _ => right accepted later)
      fun refused later after _ => wrong refused later after
  | some key =>
    refine ⟨trivial, fun _ _ => ?_⟩
    rw [perform_isUnlocked, held]
    exact ⟨trivial, unlocked (by rw [held]; rfl) _⟩

end Methods

end Ancore.Vault
