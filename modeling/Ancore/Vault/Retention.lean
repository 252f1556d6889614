import Ancore.Library.Runs
import Ancore.Vault.CalmRuns

/-! # What a vault retains

Beside the vault runs a ledger of what its user has stored and not deleted.  As
long as the password is changed only where nothing would be left behind, all of it
can be read with the password last set. -/

namespace Ancore.Vault

open Ancore.Library

/-- The secrets of an onboarded account. -/
structure OnboardedSecrets where
  privateKey : String
  mnemonic : String
  privateKey_nonempty : privateKey ≠ ""

def OnboardedSecrets.ofKind (secrets : OnboardedSecrets) : VaultExportKind → String
  | .privateKey => secrets.privateKey
  | .mnemonic => secrets.mnemonic

/-- What was stored and not deleted, and the password last set. -/
structure Ledger (Json : Type) where
  password : Option String
  accounts : List (String × AccountSecretPayload Json)
  onboarded : Option OnboardedSecrets

inductive Operation (Json : Type) (cipher : Sealing String) where
  | persistAccount (input : PersistAccountInput Json)
  | deleteAccount (accountId : String)
  | saveOnboarded (secrets : OnboardedSecrets) (salt : cipher.Salt) (nonce : cipher.Nonce)
  | changeVaultPassword (currentPassword newPassword : String)
  | lock
  | unlock (password : String)

variable {Json : Type} {cipher : Sealing String}
  {sealing : Sealing (Plaintext (VaultItem Json cipher))}

/-- The code of an operation; the recovery phrase is encrypted under the password of the time. -/
def Operation.method (ledger : Ledger Json) : Operation Json cipher → Async sealing Bool
  | .persistAccount input => do
    let _ ← Vault.persistAccount input
    pure true
  | .deleteAccount accountId => do
    Vault.deleteAccount accountId
    pure true
  | .saveOnboarded secrets salt nonce => do
    Vault.saveOnboarded secrets.privateKey secrets.mnemonic (ledger.password.getD "") salt nonce
    pure true
  | .changeVaultPassword currentPassword newPassword =>
    Vault.changeVaultPassword currentPassword newPassword
  | .lock => do
    Vault.lock
    pure true
  | .unlock password => Vault.unlock password

/-- The ledger after an operation that succeeded. -/
def Ledger.record (ledger : Ledger Json) : Operation Json cipher → Ledger Json
  | .persistAccount input => { ledger with
      accounts := upsert ledger.accounts input.id ⟨input.keyMaterial, input.accountPayload⟩ }
  | .deleteAccount accountId => { ledger with accounts := remove ledger.accounts accountId }
  | .saveOnboarded secrets _ _ => { ledger with onboarded := some secrets }
  | .changeVaultPassword _ newPassword => { ledger with password := some newPassword }
  | .lock => ledger
  | .unlock password => { ledger with password := some (ledger.password.getD password) }

/-- The ledger after an operation, by what the operation came to. -/
def Ledger.after (ledger : Ledger Json) (operation : Operation Json cipher) :
    Except Thrown Bool → Ledger Json
  | .ok true => ledger.record operation
  | _ => ledger

/-- The vault and its ledger. -/
structure World (sealing : Sealing (Plaintext (VaultItem Json cipher))) where
  ledger : Ledger Json
  manager : Manager sealing

/-- Before anything is stored. -/
def World.new : World sealing where
  ledger := ⟨none, [], none⟩
  manager := .fresh fun _ => none

/-- An operation, with the circumstances of its calls. -/
abbrev Step (sealing : Sealing (Plaintext (VaultItem Json cipher))) : Type :=
  Operation Json cipher × List (Circumstance sealing)

/-- The operation run alone. -/
def World.step (calm : Circumstance sealing) (step : Step sealing) (world : World sealing) :
    Option (Except Thrown Bool × World sealing) :=
  let outcome := (step.1.method world.ledger).run.alone perform calm (world.manager, step.2)
  some (outcome.1, ⟨world.ledger.after step.1 outcome.1, outcome.2.1⟩)

/-- A password is changed only where no account is persisted, and where none is onboarded or the
password stays the same. -/
def LeavesNothing (ledger : Ledger Json) : Operation Json cipher → Prop
  | .changeVaultPassword currentPassword newPassword =>
    ledger.password = some currentPassword →
      ledger.accounts = [] ∧ (ledger.onboarded = none ∨ newPassword = currentPassword)
  | _ => True

instance [DecidableEq Json] (ledger : Ledger Json) (operation : Operation Json cipher) :
    Decidable (LeavesNothing ledger operation) :=
  match operation with
  | .changeVaultPassword currentPassword newPassword =>
    inferInstanceAs (Decidable (ledger.password = some currentPassword →
      ledger.accounts = [] ∧ (ledger.onboarded = none ∨ newPassword = currentPassword)))
  | .persistAccount _ | .deleteAccount _ | .saveOnboarded _ _ _ | .lock | .unlock _ =>
    inferInstanceAs (Decidable True)

/-- What the method comes to once the vault is unlocked with the password last set. -/
def World.recall {α : Type} (calm : Circumstance sealing) (world : World sealing)
    (method : String → Async sealing α) : Except Thrown α :=
  let recalled : Async sealing α := do
    let password := world.ledger.password.getD ""
    let _ ← Vault.unlock password
    method password
  (recalled.run.alone perform calm (world.manager, [])).1

/-- Every account that was persisted and not deleted is loaded with its last secret, and the secrets
of the onboarded account are revealed. -/
structure Retained (calm : Circumstance sealing) (world : World sealing) : Prop where
  loaded : ∀ accountId secret, world.ledger.accounts.lookup accountId = some secret →
    ∃ metadata, world.recall calm (fun _ => loadAccount accountId) = .ok (some ⟨metadata, secret⟩)
  revealed : ∀ secrets, world.ledger.onboarded = some secrets → ∀ kind requirePassword,
    world.recall calm (fun password => revealVaultSecret kind password requirePassword) =
      .ok (secrets.ofKind kind)

/-! ## What is stored of the ledger -/

def secretsOf (records : AccountRecords Json) : List (String × AccountSecretPayload Json) :=
  records.map (Prod.map id PersistedAccountRecord.secret)

/-- The accounts are stored under the key, or none are stored under another. -/
def AccountsStored (key : sealing.Key) (accounts : List (String × AccountSecretPayload Json))
    (stored : Option (StoredValue sealing)) : Prop :=
  stored = none ∧ accounts = [] ∨
    ∃ other nonce records,
      stored = some (.payload (sealing.encrypt other nonce (.item (.accounts records)))) ∧
      secretsOf records = accounts ∧ (other = key ∨ records = [])

/-- The onboarded account is stored under the key, and its recovery phrase under the password. -/
def OnboardedStored (key : sealing.Key) (password : String) (onboarded : Option OnboardedSecrets)
    (stored : Option (StoredValue sealing)) : Prop :=
  match onboarded with
  | none => stored = none
  | some secrets => ∃ nonce encryptedMnemonic,
      stored = some (.payload (sealing.encrypt key nonce
        (.item (.account ⟨secrets.privateKey, some encryptedMnemonic, none⟩)))) ∧
      password ≠ "" ∧ decryptSecretKey encryptedMnemonic password = .ok secrets.mnemonic

structure Stores (password : String) (salt : sealing.Salt) (ledger : Ledger Json)
    (storage : Storage sealing) : Prop where
  named : ledger.password = some password
  salted : storage masterSaltStorageKey = some (.masterSalt salt)
  verification : ∃ nonce text, storage verificationPayloadStorageKey =
    some (.payload (sealing.encrypt (sealing.derive password salt) nonce text))
  accounts : AccountsStored (sealing.derive password salt) ledger.accounts
    (storage defaultAccountsStorageKey)
  onboarded : OnboardedStored (sealing.derive password salt) password ledger.onboarded
    (storage "account")
  others : ∀ name ∈ ["sessionKeys", "recentRecipients"], storage name = none

/-- The vault keeps the ledger: there is none yet, or everything is stored under one key, and no
other key is held. -/
inductive Keeps : Ledger Json → Manager sealing → Prop
  | new : Keeps ⟨none, [], none⟩ (.fresh fun _ => none)
  | stored {ledger : Ledger Json} {manager : Manager sealing} (password : String)
    (salt : sealing.Salt) (stores : Stores password salt ledger manager.storage)
    (held : manager.encryptionKey = none ∨
      manager.encryptionKey = some (sealing.derive password salt)) : Keeps ledger manager

/-! ## What the stored ledger is read as -/

section Stored

variable {key : sealing.Key} {password : String} {salt : sealing.Salt} {ledger : Ledger Json}
  {storage : Storage sealing} {accounts : List (String × AccountSecretPayload Json)}

theorem secretsOf_recordsOf (sound : sealing.Sound)
    (stored : AccountsStored key accounts (storage defaultAccountsStorageKey)) :
    secretsOf (recordsOf (decrypted key storage defaultAccountsStorageKey)) = accounts := by
  obtain ⟨missing, rfl⟩ | ⟨other, nonce, records, found, rfl, readable⟩ := stored
  · rw [decrypted, missing]
    rfl
  · rw [decrypted, found]
    by_cases same : other = key
    · subst same
      exact congrArg (fun text => secretsOf (recordsOf text)) (sound.decrypt_encrypt other nonce _)
    · have unread := sound.decrypt_other nonce
        (.item (.accounts records) : Plaintext (VaultItem Json cipher)) (Ne.symm same)
      obtain rfl := readable.resolve_left same
      exact congrArg (fun text => secretsOf (recordsOf text)) unread

theorem Stores.accepts_iff (sound : sealing.Sound) (stores : Stores password salt ledger storage)
    (other : String) : accepts (sealing.derive other salt) storage = true ↔ other = password := by
  obtain ⟨nonce, text, verification⟩ := stores.verification
  rw [accepts, decrypted, verification]
  constructor
  · intro accepted
    by_contra different
    have unread := sound.decrypt_other nonce text
      fun same : sealing.derive other salt = sealing.derive password salt =>
        different (sound.derive_inj same).1
    simp [parseEncryptedPayload, unread] at accepted
  · rintro rfl
    simp [parseEncryptedPayload, sound.decrypt_encrypt]

theorem Stores.storeAccounts (stores : Stores password salt ledger storage)
    {value : StoredValue sealing}
    (stored : AccountsStored (sealing.derive password salt) accounts (some value)) :
    Stores password salt { ledger with accounts := accounts }
      (Function.update storage defaultAccountsStorageKey (some value)) where
  named := stores.named
  salted := by rw [Function.update_of_ne (by decide), stores.salted]
  verification := by
    rw [Function.update_of_ne (by decide)]
    exact stores.verification
  accounts := by rwa [Function.update_self]
  onboarded := by
    rw [Function.update_of_ne (by decide)]
    exact stores.onboarded
  others name member := by
    have different : name ≠ defaultAccountsStorageKey := by
      rintro rfl
      exact absurd member (by decide)
    rw [Function.update_of_ne different, stores.others name member]

theorem Stores.storeOnboarded (stores : Stores password salt ledger storage)
    {onboarded : Option OnboardedSecrets} {value : StoredValue sealing}
    (stored : OnboardedStored (sealing.derive password salt) password onboarded (some value)) :
    Stores password salt { ledger with onboarded := onboarded }
      (Function.update storage "account" (some value)) where
  named := stores.named
  salted := by rw [Function.update_of_ne (by decide), stores.salted]
  verification := by
    rw [Function.update_of_ne (by decide)]
    exact stores.verification
  accounts := by
    rw [Function.update_of_ne (by decide)]
    exact stores.accounts
  onboarded := by rwa [Function.update_self]
  others name member := by
    have different : name ≠ "account" := by
      rintro rfl
      exact absurd member (by decide)
    rw [Function.update_of_ne different, stores.others name member]

theorem ne_keys_of_others {name : String} (member : name ∈ ["sessionKeys", "recentRecipients"]) :
    name ≠ masterSaltStorageKey ∧ name ≠ verificationPayloadStorageKey := by
  constructor
  · rintro rfl
    exact absurd member (by decide)
  · rintro rfl
    exact absurd member (by decide)

theorem dataKeys_nil : dataKeys [] = ["account", "sessionKeys", "recentRecipients"] := by decide

theorem Stores.onboarded_decrypted (sound : sealing.Sound)
    (stores : Stores password salt ledger storage) (name : String) (member : name ∈ dataKeys []) :
    storage name = none ∨
      name = "account" ∧ ∃ nonce text, storage name = some (.payload
        (sealing.encrypt (sealing.derive password salt) nonce text)) ∧
        decrypted (sealing.derive password salt) storage name = some text := by
  rw [dataKeys_nil, List.mem_cons] at member
  obtain rfl | other := member
  · have stored := stores.onboarded
    cases onboarded : ledger.onboarded with
    | none =>
      rw [onboarded] at stored
      exact .inl stored
    | some secrets =>
      rw [onboarded] at stored
      obtain ⟨nonce, encryptedMnemonic, stored, -⟩ := stored
      refine .inr ⟨rfl, nonce, _, stored, ?_⟩
      rw [decrypted, stored]
      exact sound.decrypt_encrypt _ nonce _
  · exact .inl (stores.others name other)

/-- Everything that is encrypted again can be read. -/
theorem Stores.readable (sound : sealing.Sound) (stores : Stores password salt ledger storage) :
    ¬ Unreadable (sealing.derive password salt) storage (dataKeys []) := by
  rintro ⟨name, member, payload, parsed, unread⟩
  obtain missing | ⟨-, nonce, text, -, read⟩ := stores.onboarded_decrypted sound name member
  · rw [missing] at parsed
    cases parsed
  · rw [decrypted, parsed, Option.bind_some, unread] at read
    cases read

theorem AccountsStored.none_left {other : sealing.Key} {stored : Option (StoredValue sealing)}
    (before : AccountsStored key ([] : List (String × AccountSecretPayload Json)) stored) :
    AccountsStored other ([] : List (String × AccountSecretPayload Json)) stored := by
  obtain ⟨missing, -⟩ | ⟨sealedUnder, nonce, records, found, empty, -⟩ := before
  · exact .inl ⟨missing, rfl⟩
  · exact .inr ⟨sealedUnder, nonce, records, found, empty, .inr (List.map_eq_nil_iff.mp empty)⟩

/-- Nothing is left behind by a change where nothing is left to leave. -/
theorem Stores.rekey (sound : sealing.Sound) (stores : Stores password salt ledger storage)
    {newPassword : String} (noAccounts : ledger.accounts = [])
    (same : ledger.onboarded = none ∨ newPassword = password) {newSalt : sealing.Salt}
    {after : Storage sealing} {nonce : sealing.Nonce}
    {text : Plaintext (VaultItem Json cipher)}
    (writing : Writing (sealing.derive newPassword newSalt) storage
      (contents (sealing.derive password salt) storage (dataKeys [])) after) :
    Stores newPassword newSalt { ledger with password := some newPassword }
      (Function.update (Function.update after verificationPayloadStorageKey (some (.payload
        (sealing.encrypt (sealing.derive newPassword newSalt) nonce text))))
        masterSaltStorageKey (some (.masterSalt newSalt))) where
  named := rfl
  salted := Function.update_self ..
  verification := by
    rw [Function.update_of_ne (by decide), Function.update_self]
    exact ⟨nonce, text, rfl⟩
  accounts := by
    have untouched : defaultAccountsStorageKey ∉
        (contents (sealing.derive password salt) storage (dataKeys [])).map Prod.fst := by
      rw [map_fst_contents, List.mem_filter]
      exact fun member => absurd member.1 (by decide)
    rw [Function.update_of_ne (by decide), Function.update_of_ne (by decide),
      writing.untouched _ untouched]
    have stored := stores.accounts
    rw [noAccounts] at stored ⊢
    exact stored.none_left
  onboarded := by
    rw [Function.update_of_ne (by decide), Function.update_of_ne (by decide)]
    have stored := stores.onboarded
    cases onboarded : ledger.onboarded with
    | none =>
      rw [onboarded] at stored
      have untouched : "account" ∉
          (contents (sealing.derive password salt) storage (dataKeys [])).map Prod.fst := by
        rw [map_fst_contents, List.mem_filter, decrypted, stored]
        exact fun member => absurd member.2 Bool.false_ne_true
      exact (writing.untouched _ untouched).trans stored
    | some secrets =>
      rw [onboarded] at stored same
      obtain rfl := same.resolve_left (Option.some_ne_none secrets)
      obtain ⟨oldNonce, encryptedMnemonic, stored, given, decrypts⟩ := stored
      have read : ("account", .item (.account ⟨secrets.privateKey, some encryptedMnemonic, none⟩)) ∈
          contents (sealing.derive newPassword salt) storage (dataKeys []) := by
        rw [mem_contents, decrypted, stored]
        exact ⟨(by decide : "account" ∈ dataKeys []), sound.decrypt_encrypt _ oldNonce _⟩
      obtain ⟨newNonce, rewritten⟩ := writing.rewritten _ read
      exact ⟨newNonce, encryptedMnemonic, rewritten, given, decrypts⟩
  others name member := by
    have missing := stores.others name member
    have untouched : name ∉
        (contents (sealing.derive password salt) storage (dataKeys [])).map Prod.fst := by
      rw [map_fst_contents, List.mem_filter, decrypted, missing]
      exact fun member => absurd member.2 Bool.false_ne_true
    obtain ⟨notSalt, notVerification⟩ := ne_keys_of_others member
    rw [Function.update_of_ne notSalt, Function.update_of_ne notVerification,
      writing.untouched _ untouched, missing]

/-- What the first unlocking of a vault stores. -/
theorem stores_new (password : String) (salt : sealing.Salt) (nonce : sealing.Nonce)
    (text : Plaintext (VaultItem Json cipher)) :
    Stores password salt ⟨some password, [], none⟩
      (Function.update (Function.update (fun _ => none) verificationPayloadStorageKey
        (some (.payload (sealing.encrypt (sealing.derive password salt) nonce text))))
        masterSaltStorageKey (some (.masterSalt salt))) where
  named := rfl
  salted := Function.update_self ..
  verification := by
    rw [Function.update_of_ne (by decide), Function.update_self]
    exact ⟨nonce, text, rfl⟩
  accounts := by
    rw [Function.update_of_ne (by decide), Function.update_of_ne (by decide)]
    exact .inl ⟨rfl, rfl⟩
  onboarded := (Function.update_of_ne (by decide) ..).trans (Function.update_of_ne (by decide) ..)
  others name member := by
    obtain ⟨notSalt, notVerification⟩ := ne_keys_of_others member
    rw [Function.update_of_ne notSalt, Function.update_of_ne notVerification]

end Stored

/-! ## One operation -/

section Steps

variable {ledger : Ledger Json} {manager : Manager sealing} {password : String}
  {salt : sealing.Salt}

/-- The vault keeps the ledger through the operation. -/
abbrev KeepsThrough (ledger : Ledger Json) (manager : Manager sealing)
    (operation : Operation Json cipher) : Prop :=
  Calmly (operation.method ledger) [] manager
    fun result _ after => Keeps (ledger.after operation result) after

theorem keeps_persistAccount (sound : sealing.Sound) (stores : Stores password salt ledger
      manager.storage)
    (held : manager.encryptionKey = some (sealing.derive password salt))
    (input : PersistAccountInput Json) :
    KeepsThrough ledger manager (.persistAccount input) := by
  refine Program.throughout_bindExcept (persistAccount_calmly held fun _ nonce metadata => ?_)
  refine ⟨trivial, .stored password salt (stores.storeAccounts (.inr ?_)) (.inr held)⟩
  refine ⟨_, nonce, _, rfl, ?_, .inl rfl⟩
  rw [secretsOf, map_upsert, ← secretsOf, secretsOf_recordsOf sound stores.accounts]

theorem keeps_deleteAccount (sound : sealing.Sound) (stores : Stores password salt ledger
      manager.storage)
    (held : manager.encryptionKey = some (sealing.derive password salt)) (accountId : String) :
    KeepsThrough ledger manager (.deleteAccount accountId) := by
  refine Program.throughout_bindExcept (deleteAccount_calmly held fun _ nonce => ?_)
  refine ⟨trivial, .stored password salt (stores.storeAccounts (.inr ?_)) (.inr held)⟩
  refine ⟨_, nonce, _, rfl, ?_, .inl rfl⟩
  rw [secretsOf, map_remove, ← secretsOf, secretsOf_recordsOf sound stores.accounts]

theorem keeps_saveOnboarded (mnemonicSound : cipher.Sound)
    (stores : Stores password salt ledger manager.storage)
    (held : manager.encryptionKey = none ∨
      manager.encryptionKey = some (sealing.derive password salt))
    (secrets : OnboardedSecrets) (saltOfMnemonic : cipher.Salt) (nonce : cipher.Nonce) :
    KeepsThrough ledger manager (.saveOnboarded secrets saltOfMnemonic nonce) := by
  have keeps : Keeps ledger manager := .stored password salt stores held
  have named : ledger.password.getD "" = password := by rw [stores.named, Option.getD_some]
  refine Program.throughout_bindExcept (Program.throughout_bindExcept ?_)
  rw [named]
  cases encrypted : encryptSecretKey secrets.mnemonic password saltOfMnemonic nonce with
  | error error => exact ⟨trivial, keeps⟩
  | ok encryptedMnemonic =>
    refine ⟨trivial, ?_⟩
    obtain locked | held := held
    · exact Program.throughout_bindExcept (assertUnlocked_locked locked fun _ _ => keeps)
    · refine saveItem_calmly held fun _ nonce => ⟨trivial, ?_⟩
      refine .stored password salt (stores.storeOnboarded ?_) (.inr held)
      exact ⟨nonce, encryptedMnemonic, rfl, (encryptSecretKey_ok encrypted).2.1,
        decryptSecretKey_encryptSecretKey mnemonicSound encrypted⟩

theorem keeps_changeVaultPassword (sound : sealing.Sound) (stores : Stores password salt ledger
      manager.storage) {currentPassword newPassword : String}
    (leaves : LeavesNothing ledger
      (.changeVaultPassword currentPassword newPassword : Operation Json cipher)) :
    KeepsThrough ledger manager (.changeVaultPassword currentPassword newPassword) := by
  have accepted_iff := stores.accepts_iff sound currentPassword
  refine changePassword_calmly stores.salted (fun accepted => ?_)
    (fun accepted _ newSalt after nonce text writing => ?_)
    fun _ _ => .stored password salt stores (.inl rfl)
  · obtain rfl := accepted_iff.mp accepted
    exact stores.readable sound
  · obtain rfl := accepted_iff.mp accepted
    obtain ⟨noAccounts, same⟩ := leaves stores.named
    exact .stored newPassword newSalt (stores.rekey sound noAccounts same writing) (.inr rfl)

theorem keeps_unlock (sound : sealing.Sound) (stores : Stores password salt ledger manager.storage)
    (held : manager.encryptionKey = none ∨
      manager.encryptionKey = some (sealing.derive password salt)) (tried : String) :
    KeepsThrough ledger manager (.unlock tried) := by
  have unchanged : ledger.record (.unlock tried : Operation Json cipher) = ledger := by
    have named := stores.named
    cases ledger
    cases named
    rfl
  refine unlock_calmly stores.salted (fun _ _ => ?_) (fun accepted _ => ?_)
    fun _ _ after same cleared => ?_
  · rw [Ledger.after, unchanged]
    exact .stored password salt stores held
  · obtain rfl := (stores.accepts_iff sound tried).mp accepted
    rw [Ledger.after, unchanged]
    exact .stored tried salt stores (.inr rfl)
  · obtain ⟨nonce, text, verification⟩ := stores.verification
    have locked := cleared.resolve_right (by rw [same, verification]; nofun)
    exact .stored password salt (by rwa [same]) (.inl locked)

/-- Before there is a vault, nothing but its first unlocking succeeds. -/
theorem keeps_new (operation : Operation Json cipher) :
    KeepsThrough ⟨none, [], none⟩ (.fresh fun _ => none : Manager sealing) operation := by
  have locked : (Manager.fresh fun _ => none : Manager sealing).encryptionKey = none := rfl
  cases operation with
  | persistAccount input =>
    exact Program.throughout_bindExcept (Program.throughout_bindExcept
      (loadAccountRecords_locked locked fun _ _ => .new))
  | deleteAccount accountId =>
    exact Program.throughout_bindExcept (Program.throughout_bindExcept
      (loadAccountRecords_locked locked fun _ _ => .new))
  | saveOnboarded secrets saltOfMnemonic nonce =>
    refine Program.throughout_bindExcept (Program.throughout_bindExcept ?_)
    cases encrypted : encryptSecretKey secrets.mnemonic "" saltOfMnemonic nonce with
    | error error =>
      rw [Option.getD_none, encrypted]
      exact ⟨trivial, .new⟩
    | ok payload => exact absurd rfl (encryptSecretKey_ok encrypted).2.1
  | changeVaultPassword currentPassword newPassword =>
    refine Program.throughout_bindExcept
      (loadMasterSalt_throughout (fun _ calm => calm.1) trivial fun _ _ => ⟨trivial, .new⟩)
  | lock => exact ⟨trivial, fun _ _ => ⟨trivial, .new⟩⟩
  | unlock password =>
    refine ⟨trivial, fun _ _ => Program.throughout_bindExcept
      (loadMasterSalt_throughout (fun _ calm => calm.1) trivial fun made _ => ?_)⟩
    refine ⟨trivial, fun drawn _ => ?_⟩
    refine Program.throughout_bindExcept (useEncryptionKey_throughout trivial fun made _ => ?_)
    refine Program.throughout_bindExcept (createVerificationPayload_calmly rfl
      fun _ nonce timestamp => Program.throughout_bindExcept (set_calmly fun _ => ⟨trivial, ?_⟩))
    exact .stored password drawn.salt (stores_new password drawn.salt nonce _) (.inr rfl)

/-- One operation keeps the vault and its ledger together. -/
theorem keeps_step (sound : sealing.Sound) (mnemonicSound : cipher.Sound)
    (keeps : Keeps ledger manager) {operation : Operation Json cipher}
    (leaves : LeavesNothing ledger operation) : KeepsThrough ledger manager operation := by
  obtain _ | ⟨password, salt, stores, held⟩ := keeps
  · exact keeps_new operation
  have kept : Keeps ledger manager := .stored password salt stores held
  cases operation with
  | persistAccount input =>
    obtain locked | held := held
    · exact Program.throughout_bindExcept (Program.throughout_bindExcept
        (loadAccountRecords_locked locked fun _ _ => kept))
    · exact keeps_persistAccount sound stores held input
  | deleteAccount accountId =>
    obtain locked | held := held
    · exact Program.throughout_bindExcept (Program.throughout_bindExcept
        (loadAccountRecords_locked locked fun _ _ => kept))
    · exact keeps_deleteAccount sound stores held accountId
  | saveOnboarded secrets saltOfMnemonic nonce =>
    exact keeps_saveOnboarded mnemonicSound stores held secrets saltOfMnemonic nonce
  | changeVaultPassword currentPassword newPassword =>
    exact keeps_changeVaultPassword sound stores leaves
  | lock => exact ⟨trivial, fun _ _ => ⟨trivial, .stored password salt stores (.inl rfl)⟩⟩
  | unlock tried => exact keeps_unlock sound stores held tried

end Steps

/-! ## What is read back -/

section Reading

variable {ledger : Ledger Json} {manager : Manager sealing} {password : String}
  {salt : sealing.Salt} {made : CallLog (VaultAnswer sealing)}

/-- The password last set unlocks, whether or not the vault is unlocked. -/
theorem unlock_right {post : Except Thrown Bool → CallLog (VaultAnswer sealing) →
      Manager sealing → Prop}
    (sound : sealing.Sound) (stores : Stores password salt ledger manager.storage)
    (held : manager.encryptionKey = none ∨
      manager.encryptionKey = some (sealing.derive password salt))
    (next : ∀ later,
      post (.ok true) later ⟨some (sealing.derive password salt), manager.storage⟩) :
    Calmly (unlock password) made manager post := by
  refine unlock_calmly stores.salted (fun unlocked later => ?_) (fun _ later => next later)
    fun refused => ?_
  · obtain locked | held := held
    · rw [locked] at unlocked
      cases unlocked
    · have same : manager = ⟨some (sealing.derive password salt), manager.storage⟩ := by
        rw [← held]
      rw [same]
      exact next later
  · rw [(stores.accepts_iff sound password).mpr rfl] at refused
    cases refused

theorem ensureStorageAccess_right {storage : Storage sealing}
    {post : Except Thrown Unit → CallLog (VaultAnswer sealing) → Manager sealing → Prop}
    (sound : sealing.Sound) (stores : Stores password salt ledger storage) (given : password ≠ "")
    (requirePassword : Bool)
    (next : ∀ later, post (.ok ()) later ⟨some (sealing.derive password salt), storage⟩) :
    Calmly (ensureStorageAccess password requirePassword) made
      ⟨some (sealing.derive password salt), storage⟩ post := by
  unfold ensureStorageAccess
  cases requirePassword with
  | false => exact ⟨trivial, fun _ _ => ⟨trivial, next _⟩⟩
  | true =>
    rw [if_pos rfl, if_neg given]
    exact ⟨trivial, fun _ _ => ⟨trivial, fun _ _ => Program.throughout_bindExcept
      (@unlock_right _ _ _ _ ⟨none, storage⟩ _ _ _ _ sound stores (.inl rfl)
        fun later => ⟨trivial, next later⟩)⟩⟩

theorem loadAccount_calmly {accountId : String} {key : sealing.Key}
    {post : Except Thrown (Option (PersistedAccountRecord Json)) → CallLog (VaultAnswer sealing) →
      Manager sealing → Prop}
    (held : manager.encryptionKey = some key)
    (next : ∀ later, post (.ok ((recordsOf
      (decrypted key manager.storage defaultAccountsStorageKey)).lookup accountId)) later manager) :
    Calmly (loadAccount accountId) made manager post :=
  Program.throughout_bindExcept (loadAccountRecords_calmly held fun later => ⟨trivial, next later⟩)

theorem revealVaultSecret_right {storage : Storage sealing} {kind : VaultExportKind}
    {requirePassword : Bool}
    {post : Except Thrown String → CallLog (VaultAnswer sealing) → Manager sealing → Prop}
    (sound : sealing.Sound) (stores : Stores password salt ledger storage) (given : password ≠ "")
    (next : ∀ later, post (exportSecret kind password
      (accountDataOf (decrypted (sealing.derive password salt) storage "account"))) later
        ⟨some (sealing.derive password salt), storage⟩) :
    Calmly (revealVaultSecret kind password requirePassword) made
      ⟨some (sealing.derive password salt), storage⟩ post :=
  Program.throughout_bindExcept (ensureStorageAccess_right sound stores given requirePassword
    fun _ => Program.throughout_bindExcept (Program.throughout_bindExcept
      (@getItem_throughout _ _ _ _ _ ⟨some (sealing.derive password salt), storage⟩ _ "account" _
        (fun _ calm => calm.1) rfl trivial fun later _ => ⟨trivial, trivial, next later⟩)))

/-- The secrets are exported with the password they were stored under. -/
theorem exportSecret_stored {secrets : OnboardedSecrets}
    {encryptedMnemonic : EncryptedSecretKeyPayload cipher} (given : password ≠ "")
    (decrypts : decryptSecretKey encryptedMnemonic password = .ok secrets.mnemonic)
    (kind : VaultExportKind) :
    exportSecret kind password (some ⟨secrets.privateKey, some encryptedMnemonic, none⟩) =
      .ok (secrets.ofKind kind) := by
  cases kind with
  | privateKey => exact if_neg secrets.privateKey_nonempty
  | mnemonic =>
    simp only [exportSecret, Option.filter_none, if_neg given, decrypts]
    rfl

theorem retained_of_keeps (sound : sealing.Sound) {calm : Circumstance sealing}
    (isCalm : calm.Calm) {world : World sealing} (keeps : Keeps world.ledger world.manager) :
    Retained calm world := by
  obtain ⟨ledger, manager⟩ := world
  obtain _ | ⟨password, salt, stores, held⟩ := keeps
  · exact {
      loaded := fun _ _ stored => (nomatch stored)
      revealed := fun _ stored => (nomatch stored) }
  have named : ledger.password.getD "" = password := by rw [stores.named, Option.getD_some]
  constructor
  · intro accountId secret stored
    have read := secretsOf_recordsOf sound stores.accounts
    rw [← read, secretsOf, lookup_map_snd] at stored
    obtain ⟨⟨metadata, _⟩, found, rfl⟩ := Option.map_eq_some_iff.mp stored
    refine ⟨metadata, ?_⟩
    unfold World.recall
    simp only [named]
    exact @alone_of_calmly _ _ _ _ _ isCalm [] (by simp) _ manager (fun result _ => result = _)
      (Program.throughout_bindExcept (unlock_right sound stores held fun _ =>
        loadAccount_calmly rfl fun _ => congrArg Except.ok found))
  · intro secrets stored kind requirePassword
    have onboarded := stores.onboarded
    rw [show ledger.onboarded = some secrets from stored] at onboarded
    obtain ⟨nonce, encryptedMnemonic, kept, given, decrypts⟩ := onboarded
    have read : accountDataOf (decrypted (sealing.derive password salt) manager.storage "account") =
        some ⟨secrets.privateKey, some encryptedMnemonic, none⟩ := by
      rw [decrypted, kept]
      exact congrArg accountDataOf (sound.decrypt_encrypt _ nonce _)
    have exported := exportSecret_stored given decrypts kind
    rw [← read] at exported
    unfold World.recall
    simp only [named]
    exact @alone_of_calmly _ _ _ _ _ isCalm [] (by simp) _ manager (fun result _ => result = _)
      (Program.throughout_bindExcept (unlock_right sound stores held fun _ =>
        revealVaultSecret_right sound stores given fun _ => exported))

end Reading

/-! ## Runs -/

theorem keeps_final (sound : sealing.Sound) (mnemonicSound : cipher.Sound)
    {calm : Circumstance sealing} (isCalm : calm.Calm) {steps : List (Step sealing)}
    (calmly : ∀ step ∈ steps, ∀ circumstance ∈ step.2, circumstance.Calm)
    (leaves : ∀ transition ∈ history (World.step calm) .new steps,
      LeavesNothing transition.before.ledger transition.input.1) :
    Keeps (final (World.step calm) .new steps).ledger
      (final (World.step calm) .new steps).manager := by
  refine @final_of_history _ _ _ (World.step calm)
    (fun world => Keeps world.ledger world.manager) .new steps .new ?_
  intro transition member keeps
  have made : transition.input ∈ steps := (history_inputs_sublist _ _ _).subset
    (List.mem_map_of_mem member)
  have kept := alone_of_calmly isCalm (calmly _ made)
    (keeps_step sound mnemonicSound keeps (leaves transition member))
  have performed := performed_of_mem_history _ member
  unfold Transition.Performed World.step at performed
  obtain ⟨-, reached⟩ := Prod.mk.inj (Option.some.inj performed)
  rw [← reached]
  exact kept

/-- No account and no secret is lost in a run whose changes of the password leave nothing behind. -/
theorem retained_of_leaves_nothing (sound : sealing.Sound) (mnemonicSound : cipher.Sound)
    {calm : Circumstance sealing} (isCalm : calm.Calm) (steps : List (Step sealing))
    (calmly : ∀ step ∈ steps, ∀ circumstance ∈ step.2, circumstance.Calm)
    (leaves : ∀ transition ∈ history (World.step calm) .new steps,
      LeavesNothing transition.before.ledger transition.input.1) :
    Retained calm (final (World.step calm) .new steps) :=
  retained_of_keeps sound isCalm (keeps_final sound mnemonicSound isCalm calmly leaves)

/-! ### Sample runs -/

abbrev symbolicItems : Sealing (Plaintext (VaultItem String (Sealing.symbolic String))) :=
  Sealing.symbolic _

/-- Calls in which the random salt is the one given. -/
def Circumstance.drawing (salt : Nat) : Circumstance symbolicItems where
  dateNow := 0
  salt := salt
  nonce := ()
  corrupted := none
  throws := false

def sampleSecrets : OnboardedSecrets where
  privateKey := "S"
  mnemonic := "word"
  privateKey_nonempty := by decide

/-- An account persisted, deleted, an account onboarded, and its password set once more. -/
def retainingSteps : List (Step symbolicItems) :=
  [(.unlock "old", []), (.persistAccount ⟨"a", "G", none, "key", "\x7b\x7d"⟩, []),
    (.deleteAccount "a", []), (.saveOnboarded sampleSecrets (7 : Nat) (), []),
    (.changeVaultPassword "old" "old", []),
    (.persistAccount ⟨"b", "G", none, "key", "\x7b\x7d"⟩, [])]

/-- An account persisted, and the password changed. -/
def losingSteps : List (Step symbolicItems) :=
  [(.unlock "old", []), (.persistAccount ⟨"a", "G", none, "key", "\x7b\x7d"⟩, []),
    (.changeVaultPassword "old" "new", List.replicate 30 (.drawing 2))]

theorem retained_retainingSteps :
    Retained (.drawing 1) (final (World.step (.drawing 1)) .new retainingSteps) :=
  retained_of_leaves_nothing (Sealing.symbolic_sound _) (Sealing.symbolic_sound _) ⟨rfl, rfl⟩
    retainingSteps (by simp [retainingSteps]) (by decide)

/-- The account is not encrypted again, and cannot be loaded after the change. -/
theorem losingSteps_lose :
    ¬ Retained (.drawing 1) (final (World.step (.drawing 1)) .new losingSteps) := by
  intro retained
  obtain ⟨metadata, loaded⟩ := retained.loaded "a" ⟨"key", "\x7b\x7d"⟩ (by rfl)
  have missing : (final (World.step (.drawing 1)) .new losingSteps).recall (.drawing 1)
      (fun _ => loadAccount "a") = .ok none := by rfl
  rw [missing] at loaded
  cases loaded

end Ancore.Vault
