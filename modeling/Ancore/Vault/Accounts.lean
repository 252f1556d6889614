import Ancore.Library.KeyedTable
import Ancore.Vault.Manager

/-! # Accounts in the vault

`AccountPersistence` keeps all accounts in one item of the vault.  The onboarded
account is an item of its own, with the recovery phrase encrypted a second time
under the password.  `revealVaultSecret` reads them for export, and
`changeVaultPassword` is what the extension calls to change the password. -/

namespace Ancore.Vault

open Ancore.Library

/-! ## What is stored -/

structure AccountMetadata where
  id : String
  address : String
  label : Option String
  createdAt : Millis
  updatedAt : Millis
  deriving DecidableEq, Repr

structure AccountSecretPayload (Json : Type) where
  keyMaterial : String
  accountPayload : Json
  deriving DecidableEq, Repr

structure PersistedAccountRecord (Json : Type) where
  metadata : AccountMetadata
  secret : AccountSecretPayload Json
  deriving DecidableEq, Repr

structure PersistAccountInput (Json : Type) where
  id : String
  address : String
  label : Option String
  keyMaterial : String
  accountPayload : Json
  deriving DecidableEq, Repr

/-- A text encrypted by `encryptSecretKey`, with the salt its key was derived with. -/
structure EncryptedSecretKeyPayload (cipher : Sealing String) where
  version : Nat
  iterations : Nat
  salt : cipher.Salt
  ciphertext : cipher.Box

structure VaultAccountData (cipher : Sealing String) where
  privateKey : String
  encryptedMnemonic : Option (EncryptedSecretKeyPayload cipher)
  mnemonic : Option String

/-- The accounts by their id. -/
abbrev AccountRecords (Json : Type) : Type := List (String × PersistedAccountRecord Json)

/-- The items that are read here. -/
inductive VaultItem (Json : Type) (cipher : Sealing String) where
  | accounts (records : AccountRecords Json)
  | account (account : VaultAccountData cipher)

/-! ## Secret keys under a password -/

section SecretKeys

variable {cipher : Sealing String}

def pbkdf2Iterations : Nat := 100000

def maxPbkdf2Iterations : Nat := 600000

def payloadVersion : Nat := 1

def supportedVersions : List Nat := [1]

def decryptFailureMessage : String := "Invalid password or corrupted encrypted payload."

def validateInputs (secretKey password : String) : Except Thrown Unit :=
  if secretKey = "" then throw "secretKey must be a non-empty string."
  else if password = "" then throw "password must be a non-empty string."
  else pure ()

def encryptSecretKey (secretKey password : String) (salt : cipher.Salt) (nonce : cipher.Nonce) :
    Except Thrown (EncryptedSecretKeyPayload cipher) := do
  validateInputs secretKey password
  pure {
    version := payloadVersion
    iterations := pbkdf2Iterations
    salt := salt
    ciphertext := cipher.encrypt (cipher.derive password salt) nonce secretKey
  }

def validateEncryptedPayload (payload : EncryptedSecretKeyPayload cipher) :
    Except Thrown (EncryptedSecretKeyPayload cipher) :=
  if payload.version ∉ supportedVersions then
    throw ("Unsupported encryption payload version: " ++ toString payload.version ++
      ". Supported versions: [1]")
  else if payload.iterations < pbkdf2Iterations ∨ maxPbkdf2Iterations < payload.iterations then
    throw ("Payload iterations must be a safe integer between " ++ toString pbkdf2Iterations ++
      " and " ++ toString maxPbkdf2Iterations)
  else pure payload

def decryptSecretKey (payload : EncryptedSecretKeyPayload cipher) (password : String) :
    Except Thrown String :=
  if password = "" then throw "password must be a non-empty string."
  else do
    let validatedPayload ← validateEncryptedPayload payload
    match cipher.decrypt (cipher.derive password validatedPayload.salt)
        validatedPayload.ciphertext with
    | some secretKey => pure secretKey
    | none => throw decryptFailureMessage

/-- What is encrypted is neither empty nor under an empty password. -/
theorem encryptSecretKey_ok {secretKey password : String} {salt : cipher.Salt}
    {nonce : cipher.Nonce} {payload : EncryptedSecretKeyPayload cipher}
    (encrypted : encryptSecretKey secretKey password salt nonce = .ok payload) :
    secretKey ≠ "" ∧ password ≠ "" ∧ payload = {
      version := payloadVersion
      iterations := pbkdf2Iterations
      salt := salt
      ciphertext := cipher.encrypt (cipher.derive password salt) nonce secretKey } := by
  unfold encryptSecretKey validateInputs at encrypted
  split at encrypted
  · cases encrypted
  · rename_i nonempty
    split at encrypted
    · cases encrypted
    · rename_i given
      exact ⟨nonempty, given, (Except.ok.inj encrypted).symm⟩

theorem decryptSecretKey_encryptSecretKey (sound : cipher.Sound) {secretKey password : String}
    {salt : cipher.Salt} {nonce : cipher.Nonce} {payload : EncryptedSecretKeyPayload cipher}
    (encrypted : encryptSecretKey secretKey password salt nonce = .ok payload) :
    decryptSecretKey payload password = .ok secretKey := by
  obtain ⟨-, given, rfl⟩ := encryptSecretKey_ok encrypted
  have valid : ∀ ciphertext : cipher.Box, validateEncryptedPayload
      ⟨payloadVersion, pbkdf2Iterations, salt, ciphertext⟩ =
        .ok ⟨payloadVersion, pbkdf2Iterations, salt, ciphertext⟩ := by
    intro ciphertext
    unfold validateEncryptedPayload
    rw [if_neg (by simp [supportedVersions, payloadVersion]),
      if_neg (by simp [pbkdf2Iterations, maxPbkdf2Iterations])]
    rfl
  unfold decryptSecretKey
  rw [if_neg given, valid]
  simp only [bind, Except.bind, sound.decrypt_encrypt]
  rfl

end SecretKeys

/-! ## The accounts -/

section Accounts

variable {Json : Type} {cipher : Sealing String}
  {sealing : Sealing (Plaintext (VaultItem Json cipher))}

def defaultAccountsStorageKey : String := "vault_accounts"

/-- What is found under the key of the accounts; nothing is taken for no accounts. -/
def recordsOf : Option (Plaintext (VaultItem Json cipher)) → AccountRecords Json
  | some (.item (.accounts records)) => records
  | _ => []

def loadAccountRecords : Async sealing (AccountRecords Json) := do
  let records ← getItem defaultAccountsStorageKey
  pure (recordsOf records)

/-- The metadata of an account that is persisted; an account that exists keeps its date of creation,
and its label if none is given. -/
def metadataOf (input : PersistAccountInput Json)
    (existingRecord : Option (PersistedAccountRecord Json)) (createdAt updatedAt : Millis) :
    AccountMetadata where
  id := input.id
  address := input.address
  label := input.label.or (existingRecord.bind fun record => record.metadata.label)
  createdAt := createdAt
  updatedAt := updatedAt

/-- `existingRecord?.metadata.createdAt ?? new Date(this.now())` -/
def createdAtOf (existingRecord : Option (PersistedAccountRecord Json)) : Async sealing Millis :=
  match existingRecord with
  | some record => pure record.metadata.createdAt
  | none => ExceptT.lift (awaited .dateNow)

def persistAccount (input : PersistAccountInput Json) : Async sealing AccountMetadata := do
  let records ← loadAccountRecords
  let existingRecord := records.lookup input.id
  let createdAt ← createdAtOf existingRecord
  let updatedAt ← ExceptT.lift (awaited .dateNow)
  let metadata := metadataOf input existingRecord createdAt updatedAt
  saveItem defaultAccountsStorageKey (.accounts (upsert records input.id
    ⟨metadata, ⟨input.keyMaterial, input.accountPayload⟩⟩))
  pure metadata

def loadAccount (accountId : String) : Async sealing (Option (PersistedAccountRecord Json)) := do
  let records ← loadAccountRecords
  pure (records.lookup accountId)

def deleteAccount (accountId : String) : Async sealing Unit := do
  let records ← loadAccountRecords
  saveItem defaultAccountsStorageKey (.accounts (remove records accountId))

def saveAccount (account : VaultAccountData cipher) : Async sealing Unit :=
  saveItem "account" (.account account)

/-- What is found under the key of the onboarded account. -/
def accountDataOf : Option (Plaintext (VaultItem Json cipher)) → Option (VaultAccountData cipher)
  | some (.item (.account account)) => some account
  | _ => none

def getAccount : Async sealing (Option (VaultAccountData cipher)) := do
  let account ← getItem "account"
  pure (accountDataOf account)

/-- The onboarded account is saved with its recovery phrase encrypted under the password. -/
def saveOnboarded (privateKey mnemonic password : String) (salt : cipher.Salt)
    (nonce : cipher.Nonce) : Async sealing Unit := do
  let encryptedMnemonic ← ExceptT.mk (pure (encryptSecretKey mnemonic password salt nonce))
  saveAccount ⟨privateKey, some encryptedMnemonic, none⟩

/-! ## The extension's vault -/

def changeVaultPassword (currentPassword newPassword : String) : Async sealing Bool :=
  changePassword currentPassword newPassword []

inductive VaultExportKind where
  | privateKey
  | mnemonic
  deriving DecidableEq, Repr

def ensureStorageAccess (password : String) (requirePassword : Bool) : Async sealing Unit := do
  if requirePassword then
    if password = "" then throw "Enter your password."
    else do
      if ← ExceptT.lift (awaited .isUnlocked) then lock
      let unlocked ← unlock password
      if unlocked then pure () else throw "Incorrect password."
  else if ← ExceptT.lift (awaited .isUnlocked) then pure ()
  else throw "Wallet is locked. Unlock your wallet first."

/-- The secret of an account that is found. -/
def exportSecret (kind : VaultExportKind) (password : String) :
    Option (VaultAccountData cipher) → Except Thrown String
  | none => throw "No wallet found."
  | some account =>
    match kind with
    | .privateKey =>
      if account.privateKey = "" then throw "Private key is unavailable."
      else pure account.privateKey
    | .mnemonic =>
      match account.mnemonic.filter (· ≠ "") with
      | some mnemonic => pure mnemonic
      | none =>
        match account.encryptedMnemonic with
        | none => throw "Recovery phrase is unavailable."
        | some encryptedMnemonic =>
          if password = "" then throw "Enter your password to decrypt the recovery phrase."
          else
            match decryptSecretKey encryptedMnemonic password with
            | .ok mnemonic => pure mnemonic
            | .error _ => throw "Incorrect password."

def revealVaultSecret (kind : VaultExportKind) (password : String) (requirePassword : Bool) :
    Async sealing String := do
  ensureStorageAccess password requirePassword
  let account ← getAccount
  ExceptT.mk (pure (exportSecret kind password account))

end Accounts

end Ancore.Vault
