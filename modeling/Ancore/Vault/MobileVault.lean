import Ancore.Library.Outline
import Ancore.Vault.Accounts
import Ancore.Vault.Methods

/-! # The vault of the mobile wallet

`MobileSecureVault` keeps the accounts under a key of its own, from before
`AccountPersistence`.  Both are managers of one storage, and unlocking the shared
manager moves the legacy accounts to where `AccountPersistence` keeps its own.
A method may be stopped after any of its calls, by a call that fails or because the
process dies; none goes on after a call that fails.
-/

namespace Ancore.Vault

open Ancore.Library

section Methods

variable {Json : Type} {cipher : Sealing String}
  {sealing : Sealing (Plaintext (VaultItem Json cipher))}

/-- `LEGACY_MOBILE_VAULT_KEY` -/
def legacyMobileVaultKey : String := "mobile_vault_accounts"

/-- `loadAccountRecords` of both. -/
def loadRecordsUnder (storageKey : String) : Async sealing (AccountRecords Json) := do
  let records ← getItem storageKey
  pure (recordsOf records)

/-- `persistAccount` of both, with the label that the account gets. -/
def persistUnder (storageKey : String)
    (labelOf : Option (PersistedAccountRecord Json) → Option String)
    (input : PersistAccountInput Json) : Async sealing AccountMetadata := do
  let records ← loadRecordsUnder storageKey
  let existingRecord := records.lookup input.id
  let createdAt ← createdAtOf existingRecord
  let updatedAt ← ExceptT.lift (awaited .dateNow)
  let metadata : AccountMetadata :=
    ⟨input.id, input.address, labelOf existingRecord, createdAt, updatedAt⟩
  saveItem storageKey (.accounts (upsert records input.id
    ⟨metadata, ⟨input.keyMaterial, input.accountPayload⟩⟩))
  pure metadata

/-- `MobileSecureVault.persistAccount`, which keeps no label of before. -/
def persistLegacyAccount (input : PersistAccountInput Json) : Async sealing AccountMetadata :=
  persistUnder legacyMobileVaultKey (fun _ => input.label) input

theorem persistAccount_eq (input : PersistAccountInput Json) :
    (persistAccount input : Async sealing AccountMetadata) =
      persistUnder defaultAccountsStorageKey (fun existingRecord =>
        input.label.or (existingRecord.bind fun record => record.metadata.label)) input :=
  rfl

def deleteItem (storageKey : String) : Async sealing Unit :=
  ExceptT.mk (awaited (.delete storageKey))

/-- `saveItem` of what an item was read as. -/
def saveRead (storageKey : String) (plaintext : Plaintext (VaultItem Json cipher)) :
    Async sealing Unit := do
  assertUnlocked
  storeEncrypted storageKey plaintext

/-- What `migrateLegacyMobileVault` tries. -/
def moveLegacyAccounts : Async sealing Bool := do
  match ← getItem legacyMobileVaultKey with
  | none => pure false
  | some legacyData => do
    match ← getItem defaultAccountsStorageKey with
    | some _ => pure false
    | none => do
      saveRead defaultAccountsStorageKey legacyData
      deleteItem legacyMobileVaultKey
      pure true

def migrateLegacyMobileVault : Async sealing Bool := do
  if ← ExceptT.lift (awaited .isUnlocked) then
    ExceptT.adapt (fun message => "Failed to migrate legacy mobile vault: " ++ message)
      moveLegacyAccounts
  else throw "StorageManager must be unlocked to migrate legacy vault data"

/-- A migration that fails does not fail the unlock. -/
def unlockSharedStorageManager (password : String) : Async sealing Bool := do
  if ← unlock password then
    let _ ← ExceptT.lift migrateLegacyMobileVault.run
    pure true
  else pure false

end Methods

/-! ## The device -/

/-- The shared manager, and those of the instances of `MobileSecureVault`. -/
inductive ManagerId where
  | shared
  | vault (instance_ : Nat)
  deriving DecidableEq

inductive MobileCall (Json : Type) where
  | unlockVault (vault : Nat)
  | persistLegacy (vault : Nat) (input : PersistAccountInput Json)
  | persist (input : PersistAccountInput Json)
  | unlockShared
  | lock (manager : ManagerId)

section Device

variable {Json : Type} {cipher : Sealing String}
  (sealing : Sealing (Plaintext (VaultItem Json cipher)))

/-- What is drawn at random, and the time. -/
structure Draws where
  dateNow : Millis
  salt : sealing.Salt
  nonce : sealing.Nonce

/-- A call that is carried out. -/
def Draws.circumstance (draws : Draws sealing) : Circumstance sealing where
  dateNow := draws.dateNow
  salt := draws.salt
  nonce := draws.nonce
  corrupted := none
  throws := false

structure Device where
  keys : ManagerId → Option sealing.Key
  storage : Storage sealing

/-- The calls that a method makes until it ends or is stopped, and whether the process dies then. -/
structure MobileStep where
  call : MobileCall Json
  draws : List (Draws sealing)
  dies : Bool

end Device

section Steps

variable {Json : Type} {cipher : Sealing String}
  {sealing : Sealing (Plaintext (VaultItem Json cipher))}

def MobileCall.manager : MobileCall Json → ManagerId
  | unlockVault vault => .vault vault
  | persistLegacy vault _ => .vault vault
  | persist _ => .shared
  | unlockShared => .shared
  | lock manager => manager

def MobileCall.method (password : String) : MobileCall Json → Async sealing Bool
  | unlockVault _ => unlock password
  | persistLegacy _ input => do
    let _ ← persistLegacyAccount input
    pure true
  | persist input => do
    let _ ← persistAccount input
    pure true
  | unlockShared => unlockSharedStorageManager password
  | lock _ => do
    Vault.lock
    pure true

def Device.manager (device : Device sealing) (id : ManagerId) : Manager sealing where
  encryptionKey := device.keys id
  storage := device.storage

/-- A device with nothing stored. -/
def Device.new : Device sealing := ⟨fun _ => none, fun _ => none⟩

/-- What a method returned or threw, if it was not stopped before, and the names it wrote to. -/
structure Report where
  result : Option (Except Thrown Bool)
  wrote : List String

def resultOf {α : Type} : Program (VaultAnswer sealing) α → Option α
  | .done result => some result
  | .call _ _ => none

def Device.run (password : String) (step : MobileStep sealing) (device : Device sealing) :
    Program.Stopped (Manager sealing) (VaultAnswer sealing) (Except Thrown Bool) :=
  Program.stopped perform (step.draws.map (·.circumstance))
    ⟨(step.call.method password).run, device.manager step.call.manager, []⟩

def mobileStep (password : String) (step : MobileStep sealing) (device : Device sealing) :
    Option (Report × Device sealing) :=
  let run := device.run password step
  some (⟨resultOf run.rest, (writes run.made).map Prod.fst⟩,
    { keys := if step.dies then fun _ => none
        else Function.update device.keys step.call.manager run.state.encryptionKey
      storage := run.state.storage })

end Steps

end Ancore.Vault
