import Ancore.Library.Sealing
import Ancore.Library.Solo

/-! # The vault

`SecureStorageManager`: items are sealed under a key derived from the password and
the master salt, which is stored beside them together with a payload that tells
right passwords from wrong ones.  The methods are programs over their calls to the
storage, to Web Crypto and to the key in memory. -/

namespace Ancore.Vault

open Ancore.Library

abbrev Millis : Type := Int

/-- The message of an error. -/
abbrev Thrown : Type := String

/-- What is encrypted: items, and the content of the verification payload. -/
inductive Plaintext (Value : Type) where
  | verification (timestamp : Millis)
  | item (value : Value)
  deriving DecidableEq, Repr

variable {Value : Type}

/-- What is stored under a key, as the code reads it: 16 bytes in base64, an encrypted payload, or
something else. -/
inductive StoredValue (sealing : Sealing (Plaintext Value)) where
  | masterSalt (salt : sealing.Salt)
  | payload (payload : sealing.Box)
  | unreadable

def masterSaltStorageKey : String := "master_salt"

def verificationPayloadStorageKey : String := "verification_payload"

def defaultDataKeys : List String := ["account", "sessionKeys", "recentRecipients"]

/-- The calls of the methods.  `encryptionKey` is the key in memory. -/
inductive VaultCall (sealing : Sealing (Plaintext Value)) where
  | isUnlocked
  | setEncryptionKey (encryptionKey : Option sealing.Key)
  | deriveEncryptionKey (password : String) (masterSalt : sealing.Salt)
  | initializeMasterSalt
  | dateNow
  | encryptData (plaintext : Plaintext Value)
  | decryptData (payload : sealing.Box)
  | get (key : String)
  | set (key : String) (value : StoredValue sealing)
  | delete (key : String)

/-- Encryption and decryption throw without a key, and the storage when it fails to write. -/
@[reducible] def VaultAnswer (sealing : Sealing (Plaintext Value)) : VaultCall sealing → Type
  | .isUnlocked => Bool
  | .setEncryptionKey _ => Unit
  | .deriveEncryptionKey _ _ => sealing.Key
  | .initializeMasterSalt => sealing.Salt
  | .dateNow => Millis
  | .encryptData _ => Except Thrown sealing.Box
  | .decryptData _ => Except Thrown (Plaintext Value)
  | .get _ => Option (StoredValue sealing)
  | .set _ _ => Except Thrown Unit
  | .delete _ => Except Thrown Unit

/-- `async` code: what it awaits may throw. -/
abbrev Async (sealing : Sealing (Plaintext Value)) (α : Type) : Type :=
  ExceptT Thrown (Program (VaultAnswer sealing)) α

section Methods

variable {sealing : Sealing (Plaintext Value)}

def awaited (call : VaultCall sealing) : Program (VaultAnswer sealing) (VaultAnswer sealing call) :=
  .call call .done

/-- `lock` -/
def lock : Async sealing Unit := ExceptT.lift (awaited (.setEncryptionKey none))

/-- A salt that is not one is taken for a missing one. -/
def parseMasterSalt : Option (StoredValue sealing) → Option sealing.Salt
  | some (.masterSalt salt) => some salt
  | _ => none

def parseEncryptedPayload : Option (StoredValue sealing) → Option sealing.Box
  | some (.payload payload) => some payload
  | _ => none

def loadMasterSalt : Async sealing (Option sealing.Salt) := do
  let stored ← ExceptT.lift (awaited (.get masterSaltStorageKey))
  pure (parseMasterSalt stored)

def readEncryptedPayload (key : String) : Async sealing (Option sealing.Box) := do
  let serialized ← ExceptT.lift (awaited (.get key))
  pure (parseEncryptedPayload serialized)

/-- `this.encryptionKey = await this.deriveEncryptionKey(password, masterSalt)` -/
def useEncryptionKey (password : String) (masterSalt : sealing.Salt) : Async sealing Unit := do
  let encryptionKey ← ExceptT.lift (awaited (.deriveEncryptionKey password masterSalt))
  ExceptT.lift (awaited (.setEncryptionKey (some encryptionKey)))

/-- Encrypts the plaintext and stores it. -/
def storeEncrypted (key : String) (plaintext : Plaintext Value) : Async sealing Unit := do
  let payload ← ExceptT.mk (awaited (.encryptData plaintext))
  ExceptT.mk (awaited (.set key (.payload payload)))

def createVerificationPayload : Async sealing Unit := do
  let timestamp ← ExceptT.lift (awaited .dateNow)
  storeEncrypted verificationPayloadStorageKey (.verification timestamp)

/-- Decrypts the verification payload.  Where there is none to read, the key stays. -/
def verifyPassword : Async sealing Bool := do
  match ← readEncryptedPayload verificationPayloadStorageKey with
  | none => pure false
  | some payload => do
    match ← ExceptT.lift (awaited (.decryptData payload)) with
    | .ok _ => pure true
    | .error _ => do
      ExceptT.lift (awaited (.setEncryptionKey none))
      pure false

def unlock (password : String) : Async sealing Bool := do
  if ← ExceptT.lift (awaited .isUnlocked) then pure true
  else
    match ← loadMasterSalt with
    | none => do
      let masterSalt ← ExceptT.lift (awaited .initializeMasterSalt)
      useEncryptionKey password masterSalt
      createVerificationPayload
      ExceptT.mk (awaited (.set masterSaltStorageKey (.masterSalt masterSalt)))
      pure true
    | some masterSalt => do
      useEncryptionKey password masterSalt
      verifyPassword

def assertUnlocked : Async sealing Unit := do
  if ← ExceptT.lift (awaited .isUnlocked) then pure ()
  else throw "Storage manager is locked"

def saveItem (key : String) (value : Value) : Async sealing Unit := do
  assertUnlocked
  storeEncrypted key (.item value)

def getItem (key : String) : Async sealing (Option (Plaintext Value)) := do
  assertUnlocked
  match ← readEncryptedPayload key with
  | none => pure none
  | some payload => do
    match ← ExceptT.lift (awaited (.decryptData payload)) with
    | .ok plaintext => pure (some plaintext)
    | .error _ => pure none

/-- `Promise.all` over the deletions: all of them are made, and the first one that throws is thrown
on. -/
def deleteAll : List String → Async sealing Unit
  | [] => pure ()
  | key :: keys => do
    let deleted ← ExceptT.lift (awaited (.delete key))
    let others ← ExceptT.lift (deleteAll keys).run
    ExceptT.mk (pure (deleted.bind fun _ => others))

/-- `[...new Set(keys)]`, in the order in which they come first. -/
def setOf (keys : List String) : List String := keys.reverse.dedup.reverse

theorem nodup_setOf (keys : List String) : (setOf keys).Nodup :=
  List.nodup_reverse.mpr (List.nodup_dedup _)

def reset (additionalKeys : List String) : Async sealing Unit := do
  deleteAll (setOf (masterSaltStorageKey :: verificationPayloadStorageKey ::
    (defaultDataKeys ++ additionalKeys)))
  lock

/-- The keys that are encrypted again. -/
def dataKeys (additionalKeys : List String) : List String :=
  setOf (defaultDataKeys ++ additionalKeys)

/-- What is stored under the keys, decrypted; what cannot be decrypted ends the change. -/
def decryptAll : List String → Async sealing (List (String × Plaintext Value))
  | [] => pure []
  | key :: keys => do
    match ← readEncryptedPayload key with
    | none => decryptAll keys
    | some payload => do
      match ← ExceptT.lift (awaited (.decryptData payload)) with
      | .ok plaintext => do
        let decrypted ← decryptAll keys
        pure ((key, plaintext) :: decrypted)
      | .error _ => do
        lock
        throw ("Cannot change password: stored data under '" ++ key ++ "' is unreadable")

def encryptAll : List (String × Plaintext Value) → Async sealing Unit
  | [] => pure ()
  | (key, plaintext) :: decrypted => do
    storeEncrypted key plaintext
    encryptAll decrypted

/-- The writes of a change, once everything is decrypted. -/
def rekey (newPassword : String) (decrypted : List (String × Plaintext Value)) :
    Async sealing Unit := do
  let newMasterSalt ← ExceptT.lift (awaited .initializeMasterSalt)
  useEncryptionKey newPassword newMasterSalt
  encryptAll decrypted
  createVerificationPayload
  ExceptT.mk (awaited (.set masterSaltStorageKey (.masterSalt newMasterSalt)))

def changePassword (currentPassword newPassword : String) (additionalKeys : List String) :
    Async sealing Bool := do
  match ← loadMasterSalt with
  | none => pure false
  | some masterSalt => do
    lock
    useEncryptionKey currentPassword masterSalt
    if ← verifyPassword then do
      let decrypted ← decryptAll (dataKeys additionalKeys)
      rekey newPassword decrypted
      pure true
    else do
      lock
      pure false

end Methods

/-! ## Carrying out the calls -/

/-- What is stored, by its key. -/
abbrev Storage (sealing : Sealing (Plaintext Value)) : Type :=
  String → Option (StoredValue sealing)

/-- A `SecureStorageManager` over its storage. -/
structure Manager (sealing : Sealing (Plaintext Value)) where
  encryptionKey : Option sealing.Key
  storage : Storage sealing

/-- A new manager over a storage. -/
def Manager.fresh {sealing : Sealing (Plaintext Value)} (storage : Storage sealing) :
    Manager sealing where
  encryptionKey := none
  storage := storage

/-- What the storage does not decide of a call: the time, what is drawn at random, what a read
returns in the place of what is stored, and whether a write throws. -/
structure Circumstance (sealing : Sealing (Plaintext Value)) where
  dateNow : Millis
  salt : sealing.Salt
  nonce : sealing.Nonce
  corrupted : Option (StoredValue sealing)
  throws : Bool

variable {sealing : Sealing (Plaintext Value)}

/-- The storage is read as it is, and written. -/
def Circumstance.Calm (circumstance : Circumstance sealing) : Prop :=
  circumstance.corrupted = none ∧ circumstance.throws = false

def perform (call : VaultCall sealing) (circumstance : Circumstance sealing)
    (manager : Manager sealing) : VaultAnswer sealing call × Manager sealing :=
  match call with
  | .isUnlocked => (manager.encryptionKey.isSome, manager)
  | .setEncryptionKey encryptionKey => ((), { manager with encryptionKey := encryptionKey })
  | .deriveEncryptionKey password masterSalt => (sealing.derive password masterSalt, manager)
  | .initializeMasterSalt => (circumstance.salt, manager)
  | .dateNow => (circumstance.dateNow, manager)
  | .encryptData plaintext =>
    match manager.encryptionKey with
    | none => (.error "Storage manager is locked", manager)
    | some key => (.ok (sealing.encrypt key circumstance.nonce plaintext), manager)
  | .decryptData payload =>
    match manager.encryptionKey with
    | none => (.error "Storage manager is locked", manager)
    | some key =>
      match sealing.decrypt key payload with
      | none => (.error "Invalid password or corrupted data", manager)
      | some plaintext => (.ok plaintext, manager)
  | .get key =>
    ((manager.storage key).map fun stored => circumstance.corrupted.getD stored, manager)
  | .set key value =>
    if circumstance.throws then (.error "storage.set failed", manager)
    else (.ok (), { manager with storage := Function.update manager.storage key (some value) })
  | .delete key =>
    if circumstance.throws then (.error "storage.delete failed", manager)
    else (.ok (), { manager with storage := Function.update manager.storage key none })

theorem perform_get {circumstance : Circumstance sealing} (key : String)
    (uncorrupted : circumstance.corrupted = none) (manager : Manager sealing) :
    perform (.get key) circumstance manager = (manager.storage key, manager) := by
  simp [perform, uncorrupted]

theorem perform_isUnlocked (circumstance : Circumstance sealing) (manager : Manager sealing) :
    perform .isUnlocked circumstance manager = (manager.encryptionKey.isSome, manager) := rfl

theorem perform_decryptData {circumstance : Circumstance sealing} {manager : Manager sealing}
    {key : sealing.Key} (payload : sealing.Box) (held : manager.encryptionKey = some key) :
    perform (.decryptData payload) circumstance manager =
      match sealing.decrypt key payload with
      | none => (.error "Invalid password or corrupted data", manager)
      | some plaintext => (.ok plaintext, manager) := by
  simp [perform, held]

theorem perform_set (name : String) (value : StoredValue sealing)
    (circumstance : Circumstance sealing) (manager : Manager sealing) :
    perform (.set name value) circumstance manager =
      if circumstance.throws then (.error "storage.set failed", manager)
      else (.ok (), { manager with
        storage := Function.update manager.storage name (some value) }) := rfl

theorem perform_encryptData {circumstance : Circumstance sealing} {manager : Manager sealing}
    {key : sealing.Key} (plaintext : Plaintext Value) (held : manager.encryptionKey = some key) :
    perform (.encryptData plaintext) circumstance manager =
      (.ok (sealing.encrypt key circumstance.nonce plaintext), manager) := by
  simp [perform, held]

end Ancore.Vault
