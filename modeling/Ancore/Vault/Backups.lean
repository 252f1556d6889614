import Ancore.Library.Json

/-! # Backups of a wallet

`exportBackup` and `importBackup` of the core SDK.  A backup is any value that a caller
passes; its two sections are sealed under the password, and a checksum is made of what
`JSON.stringify` writes of version and sections.
-/

namespace Ancore.Vault.Backups

open Ancore.Library.EcmaScript

/-! ## Cryptography -/

structure EncryptedPayload where
  salt : String
  iv : String
  ciphertext : String
  deriving DecidableEq

/-- A text, by what `JSON.parse` makes of it; `none` is no JSON. -/
abbrev Text : Type := Option Json

/-- Encryption with what it draws at random, and the digest of a text in hexadecimal. -/
structure Crypto where
  Draw : Type
  encrypt : Draw → Text → String → EncryptedPayload
  decrypt : EncryptedPayload → String → Option Text
  sha256 : List Char → String

/-- Only what was encrypted under the password is decrypted. -/
def Crypto.Authentic (crypto : Crypto) : Prop :=
  ∀ payload password text,
    crypto.decrypt payload password = some text ↔
      ∃ draw, crypto.encrypt draw text password = payload

/-- `timingSafeEqual` -/
def timingSafeEqual (a b : List UInt8) : Bool :=
  let diff := (List.range (max a.length b.length)).foldl
    (fun diff i => diff ||| ((a.getD i 0) ^^^ (b.getD i 0)).toNat) (a.length ^^^ b.length)
  diff = 0

theorem foldl_or_eq_zero {terms : Nat → Nat} {indices : List Nat} {start : Nat} :
    indices.foldl (fun diff i => diff ||| terms i) start = 0 ↔
      start = 0 ∧ ∀ i ∈ indices, terms i = 0 := by
  induction indices generalizing start with
  | nil => simp
  | cons index indices ih =>
    rw [List.foldl_cons, ih, Nat.or_eq_zero_iff, List.forall_mem_cons, and_assoc]

theorem timingSafeEqual_iff {a b : List UInt8} : timingSafeEqual a b = true ↔ a = b := by
  rw [timingSafeEqual, decide_eq_true_iff, foldl_or_eq_zero]
  constructor
  · rintro ⟨lengths, bytes⟩
    have length : a.length = b.length := Nat.xor_eq_zero_iff.mp lengths
    refine List.ext_getElem length fun i inside inside' => ?_
    have same := bytes i (List.mem_range.mpr (by omega))
    rw [List.getD_eq_getElem _ _ inside, List.getD_eq_getElem _ _ inside'] at same
    exact UInt8.xor_eq_zero_iff.mp (UInt8.toNat_inj.mp same)
  · rintro rfl
    exact ⟨Nat.xor_self _, fun i _ => by rw [UInt8.xor_self]; rfl⟩

/-! ## Backups -/

inductive Section where
  | account
  | sessionKeys
  deriving DecidableEq

/-- The key of the section in the storage, and its field in a backup. -/
def Section.key : Section → String
  | account => "account"
  | sessionKeys => "sessionKeys"

inductive Failure where
  | undecrypted
  | syntaxError
  | invalid (message : String)
  deriving DecidableEq

/-- The errors, by their code and what their message tells. -/
inductive BackupError where
  | malformed (message : String)
  | invalidVersion (version : Value)
  | unsupportedVersion (version : Value)
  | checksumMismatch
  | encryptionError (restored : Section) (failure : Failure)

/-- What is stored under a key; `null` where there is nothing. -/
abbrev Storage : Type := String → Json

structure MigrationResult where
  success : Bool
  migratedFrom : Value
  migratedTo : Nat
  warnings : List String

def versionOne : Numeric := .nonzero false ⟨1, 0, by decide⟩

/-- `value === CURRENT_BACKUP_VERSION` -/
def isCurrentVersion : Value → Bool
  | .number number => number = versionOne
  | _ => false

def supportedBackupVersions : List Numeric := [versionOne]

/-- `Number.isInteger(version) && version >= 1` -/
def isPositiveInteger : Numeric → Bool
  | .nonzero false decimal => 0 ≤ decimal.exponent
  | _ => false

/-- An object with these fields. -/
def objectOf (fields : List (String × Value)) : Value :=
  .object fun name => (fields.lookup name).getD .undefined

def payloadValue (payload : EncryptedPayload) : Value :=
  objectOf [("salt", .string payload.salt), ("iv", .string payload.iv),
    ("ciphertext", .string payload.ciphertext)]

/-- The payload that `decrypt` reads of a value. -/
def payloadOf (value : Value) : Option EncryptedPayload :=
  match value.get "salt", value.get "iv", value.get "ciphertext" with
  | .string salt, .string iv, .string ciphertext => some ⟨salt, iv, ciphertext⟩
  | _, _, _ => none

section Functions

variable (crypto : Crypto)

/-- `calculateChecksum`, with the sorted keys of the data. -/
def calculateChecksum (keys : List String) (data : Value) : String :=
  crypto.sha256 ((stringify keys data).getD [])

/-- `exportBackup`, with what the encryptions draw and the time. -/
def exportBackup (storage : Storage) (password createdAt : String) (createdBy : Value)
    (draws : Section → crypto.Draw) : Except BackupError Value :=
  if password = "" then .error (.malformed "Password must be a non-empty string")
  else
    let sealOf (exported : Section) : List (String × Value) :=
      if (storage exported.key).value.isTruthy then
        [(exported.key,
          payloadValue (crypto.encrypt (draws exported) (some (storage exported.key)) password))]
      else []
    let backupData := ("version", Value.number versionOne) ::
      (sealOf .account ++ sealOf .sessionKeys)
    let keys := (backupData.map Prod.fst).mergeSort
    .ok (objectOf (backupData ++ [("metadata", objectOf [("version", .number versionOne),
      ("createdAt", .string createdAt), ("createdBy", createdBy),
      ("checksum", .string (calculateChecksum crypto keys (objectOf backupData)))])]))

def validateBackupStructure (backup : Value) : Except BackupError Unit :=
  if ¬ backup.isTruthy ∨ ¬ backup.isTypeofObject then
    .error (.malformed "Invalid backup payload: must be an object")
  else if ¬ (backup.get "metadata").isTruthy ∨ ¬ (backup.get "metadata").isTypeofObject then
    .error (.malformed "Invalid backup payload: missing metadata")
  else
    match (backup.get "metadata").get "version" with
    | .number version =>
      if ¬ isPositiveInteger version then .error (.invalidVersion (.number version))
      else if version ∉ supportedBackupVersions then
        .error (.unsupportedVersion (.number version))
      else .ok ()
    | version => .error (.invalidVersion version)

/-- The sorted keys of the data that a checksum is verified of. -/
def checksumKeys : List String := ["account", "sessionKeys", "version"]

def backupDataForChecksum (backup : Value) : Value :=
  objectOf [("version", backup.get "version"), ("account", backup.get "account"),
    ("sessionKeys", backup.get "sessionKeys")]

def verifyBackupIntegrity (backup : Value) : Except BackupError Unit :=
  match (backup.get "metadata").get "checksum" with
  | .string checksum =>
    if checksum = "" then .error (.malformed "Missing or invalid checksum in backup metadata")
    else if timingSafeEqual checksum.toByteArray.data.toList
        (calculateChecksum crypto checksumKeys
          (backupDataForChecksum backup)).toByteArray.data.toList
        then
      .ok ()
    else .error .checksumMismatch
  | _ => .error (.malformed "Missing or invalid checksum in backup metadata")

def migrateBackup (backup : Value) : MigrationResult :=
  ⟨true, backup.get "version", 1, []⟩

/-- The current version is the first one: nothing is changed. -/
def migrateToCurrentVersion (oldBackup : Value) : Value := oldBackup

def validateAccountData (data : Value) : Except Failure Unit :=
  if ¬ data.isTruthy ∨ ¬ data.isTypeofObject then
    .error (.invalid "Invalid account data: must be an object")
  else
    match data.get "privateKey" with
    | .string privateKey =>
      if privateKey = "" then
        .error (.invalid "Invalid account data: missing or invalid privateKey")
      else .ok ()
    | _ => .error (.invalid "Invalid account data: missing or invalid privateKey")

def validateSessionKeysData (data : Value) : Except Failure Unit :=
  if ¬ data.isTruthy ∨ ¬ data.isTypeofObject then
    .error (.invalid "Invalid session keys data: must be an object")
  else if ¬ (data.get "keys").isTruthy ∨ ¬ (data.get "keys").isTypeofObject then
    .error (.invalid "Invalid session keys data: missing or invalid keys object")
  else .ok ()

def Section.validate : Section → Value → Except Failure Unit
  | account => validateAccountData
  | sessionKeys => validateSessionKeysData

/-- What a section is decrypted, parsed and validated to. -/
def readSection (backup : Value) (password : String) (restored : Section) :
    Except Failure Json :=
  match (payloadOf (backup.get restored.key)).bind (crypto.decrypt · password) with
  | none => .error .undecrypted
  | some none => .error .syntaxError
  | some (some data) =>
    match restored.validate data.value with
    | .error failure => .error failure
    | .ok () => .ok data

/-- One section is restored if the backup has it. -/
def restoreSection (backup : Value) (password : String) (restored : Section) (storage : Storage) :
    Except BackupError Unit × Storage :=
  if (backup.get restored.key).isTruthy then
    match readSection crypto backup password restored with
    | .error failure => (.error (.encryptionError restored failure), storage)
    | .ok data => (.ok (), Function.update storage restored.key data)
  else (.ok (), storage)

/-- The checks before a section is read. -/
def admitBackup (backup : Value) (password : String) : Except BackupError Unit :=
  if password = "" then .error (.malformed "Password must be a non-empty string")
  else
    match validateBackupStructure backup with
    | .error error => .error error
    | .ok () => verifyBackupIntegrity crypto backup

def importBackup (backup : Value) (storage : Storage) (password : String) :
    Except BackupError (Option MigrationResult) × Storage :=
  match admitBackup crypto backup password with
  | .error error => (.error error, storage)
  | .ok () =>
    let migrationResult :=
      if isCurrentVersion (backup.get "version") then none else some (migrateBackup backup)
    let backup := if migrationResult.isSome then migrateToCurrentVersion backup else backup
    match restoreSection crypto backup password .account storage with
    | (.error error, storage) => (.error error, storage)
    | (.ok (), storage) =>
      match restoreSection crypto backup password .sessionKeys storage with
      | (.error error, storage) => (.error error, storage)
      | (.ok (), storage) => (.ok migrationResult, storage)

end Functions

/-! ## What an export carries -/

section Exports

variable {crypto : Crypto}

variable (crypto) in
def checksumOf (backup : Value) : String :=
  calculateChecksum crypto checksumKeys (backupDataForChecksum backup)

theorem verifyBackupIntegrity_iff {backup : Value} {checksum : String}
    (given : (backup.get "metadata").get "checksum" = .string checksum) (nonempty : checksum ≠ "") :
    verifyBackupIntegrity crypto backup = .ok () ↔ checksum = checksumOf crypto backup := by
  rw [verifyBackupIntegrity, given]
  simp only [if_neg nonempty]
  have bytes : checksum.toByteArray.data.toList =
        (calculateChecksum crypto checksumKeys
          (backupDataForChecksum backup)).toByteArray.data.toList ↔
      checksum = checksumOf crypto backup := by
    refine ⟨fun same => ?_, fun same => by rw [same, checksumOf]⟩
    exact String.toByteArray_inj.mp (ByteArray.ext (Array.toList_inj.mp same))
  split
  · rename_i equal
    exact iff_of_true rfl (bytes.mp (timingSafeEqual_iff.mp equal))
  · rename_i different
    exact iff_of_false nofun fun same => different (timingSafeEqual_iff.mpr (bytes.mpr same))

/-- An object without members under the names that a backup has. -/
def Bare (value : Value) : Prop :=
  ∃ fields, value = .object fields ∧ ∀ key ∈ checksumKeys, fields key = .undefined

variable (crypto) in
/-- What is known of a backup from its export. -/
structure Exported (backup : Value) : Prop where
  version : backup.get "version" = .number versionOne
  sections (exported : Section) :
    backup.get exported.key = .undefined ∨ Bare (backup.get exported.key)
  checksum : (backup.get "metadata").get "checksum" = .string (checksumOf crypto backup)

theorem bare_payloadValue (payload : EncryptedPayload) : Bare (payloadValue payload) := by
  refine ⟨_, rfl, fun key member => ?_⟩
  simp only [checksumKeys, List.mem_cons, List.not_mem_nil, or_false] at member
  rcases member with rfl | rfl | rfl <;> rfl

variable {storage : Storage} {password createdAt : String} {createdBy : Value}
  {draws : Section → crypto.Draw} {backup : Value}

/-- The keys that are sorted are those that are there. -/
theorem exported_of_exportBackup
    (made : exportBackup crypto storage password createdAt createdBy draws = .ok backup) :
    Exported crypto backup := by
  rw [exportBackup] at made
  split at made
  · cases made
  · cases account : (storage Section.account.key).value.isTruthy <;>
      cases sessionKeys : (storage Section.sessionKeys.key).value.isTruthy <;>
        simp only [account, sessionKeys] at made <;>
        cases made
    · refine ⟨rfl, fun exported => ?_, ?_⟩
      · cases exported <;> exact .inl rfl
      · have sorted : (["version"] : List String).mergeSort = ["version"] := by
          simp
        exact congrArg Value.string (congrArg (fun keys => calculateChecksum crypto keys _) sorted)
    · refine ⟨rfl, fun exported => ?_, ?_⟩
      · cases exported with
        | account => exact .inl rfl
        | sessionKeys => exact .inr (bare_payloadValue _)
      · have sorted : (["version", "sessionKeys"] : List String).mergeSort =
            ["sessionKeys", "version"] := by
          simp [List.mergeSort, List.MergeSort.Internal.splitInTwo]
        exact congrArg Value.string (congrArg (fun keys => calculateChecksum crypto keys _) sorted)
    · refine ⟨rfl, fun exported => ?_, ?_⟩
      · cases exported with
        | account => exact .inr (bare_payloadValue _)
        | sessionKeys => exact .inl rfl
      · have sorted : (["version", "account"] : List String).mergeSort =
            ["account", "version"] := by
          simp [List.mergeSort, List.MergeSort.Internal.splitInTwo]
        exact congrArg Value.string (congrArg (fun keys => calculateChecksum crypto keys _) sorted)
    · refine ⟨rfl, fun exported => ?_, ?_⟩
      · cases exported <;> exact .inr (bare_payloadValue _)
      · have sorted : (["version", "account", "sessionKeys"] : List String).mergeSort =
            checksumKeys := by
          simp [checksumKeys, List.mergeSort, List.MergeSort.Internal.splitInTwo]
        exact congrArg Value.string (congrArg (fun keys => calculateChecksum crypto keys _) sorted)

end Exports

/-! ## What an import leaves -/

section Import

variable {crypto : Crypto} {backup : Value} {password : String} {storage after : Storage}
  {error : BackupError}

variable (crypto) in
/-- Every section of the backup is stored as it was exported. -/
def Restored (backup : Value) (password : String) (storage : Storage) : Prop :=
  ∀ restored : Section, (backup.get restored.key).isTruthy = true →
    ∃ draw data, payloadOf (backup.get restored.key) =
        some (crypto.encrypt draw (some data) password) ∧
      storage restored.key = data

variable (crypto) in
/-- An import that throws leaves both items as they were, and one that returns restores all
    that the backup has. -/
def AllOrNothing (backup : Value) (storage : Storage) (password : String) : Prop :=
  match importBackup crypto backup storage password with
  | (.error _, after) => ∀ restored : Section, after restored.key = storage restored.key
  | (.ok _, after) => Restored crypto backup password after

variable (crypto) in
/-- The account is read and differs from what is stored, and the session keys cannot be read. -/
structure HalfRestored (backup : Value) (storage : Storage) (password : String) : Prop where
  admitted : admitBackup crypto backup password = .ok ()
  account : (backup.get "account").isTruthy = true
  differs : ∃ data, readSection crypto backup password .account = .ok data ∧
    data ≠ storage "account"
  sessionKeys : (backup.get "sessionKeys").isTruthy = true
  unread : ∃ failure, readSection crypto backup password .sessionKeys = .error failure

theorem exported_of_readSection (authentic : crypto.Authentic) {restored : Section} {data : Json}
    (read : readSection crypto backup password restored = .ok data) :
    ∃ draw, payloadOf (backup.get restored.key) =
      some (crypto.encrypt draw (some data) password) := by
  rw [readSection] at read
  cases found : payloadOf (backup.get restored.key) with
  | none =>
    rw [found] at read
    cases read
  | some payload =>
    rw [found, Option.bind_some] at read
    cases opened : crypto.decrypt payload password with
    | none =>
      rw [opened] at read
      cases read
    | some text =>
      obtain ⟨draw, same⟩ := (authentic _ _ _).mp opened
      cases text with
      | none =>
        rw [opened] at read
        cases read
      | some decrypted =>
        rw [opened] at read
        have kept : decrypted = data := by
          simp only at read
          split at read
          · cases read
          · exact Except.ok.inj read
        exact ⟨draw, by rw [← same, kept]⟩

/-- What becomes of one section. -/
theorem restoreSection_cases (restored : Section) :
    ((backup.get restored.key).isTruthy = false ∧
        restoreSection crypto backup password restored storage = (.ok (), storage)) ∨
      (backup.get restored.key).isTruthy = true ∧
        ((∃ failure, readSection crypto backup password restored = .error failure ∧
            restoreSection crypto backup password restored storage =
              (.error (.encryptionError restored failure), storage)) ∨
          ∃ data, readSection crypto backup password restored = .ok data ∧
            restoreSection crypto backup password restored storage =
              (.ok (), Function.update storage restored.key data)) := by
  rw [restoreSection]
  cases present : (backup.get restored.key).isTruthy with
  | false => exact .inl ⟨rfl, rfl⟩
  | true =>
    refine .inr ⟨rfl, ?_⟩
    cases read : readSection crypto backup password restored with
    | error failure => exact .inl ⟨failure, rfl, rfl⟩
    | ok data => exact .inr ⟨data, rfl, rfl⟩

/-- Nothing is migrated: the current version is the first one. -/
theorem migrated_eq (result : Option MigrationResult) :
    (if result.isSome then migrateToCurrentVersion backup else backup) = backup := by
  split <;> rfl

theorem importBackup_of_stop (admitted : admitBackup crypto backup password = .ok ())
    (account : restoreSection crypto backup password .account storage = (.ok (), after))
    (sessionKeys : restoreSection crypto backup password .sessionKeys after =
      (.error error, after)) :
    importBackup crypto backup storage password = (.error error, after) := by
  rw [importBackup, admitted]
  simp only [migrated_eq, account, sessionKeys]

/-- The account that was read stays stored when the session keys cannot be read. -/
theorem not_allOrNothing (half : HalfRestored crypto backup storage password) :
    ¬ AllOrNothing crypto backup storage password := by
  obtain ⟨data, read, differs⟩ := half.differs
  obtain ⟨failure, unread⟩ := half.unread
  have account : restoreSection crypto backup password .account storage =
      (.ok (), Function.update storage Section.account.key data) := by
    rw [restoreSection, if_pos (show (backup.get Section.account.key).isTruthy = true from
      half.account), read]
  have sessionKeys : restoreSection crypto backup password .sessionKeys
      (Function.update storage Section.account.key data) =
        (.error (.encryptionError .sessionKeys failure),
          Function.update storage Section.account.key data) := by
    rw [restoreSection, if_pos (show (backup.get Section.sessionKeys.key).isTruthy = true from
      half.sessionKeys), unread]
  rw [AllOrNothing, importBackup_of_stop half.admitted account sessionKeys]
  exact fun same => differs ((Function.update_self _ _ _).symm.trans (same .account))

/-- The session keys, once the account is dealt with. -/
theorem finish_restored (authentic : crypto.Authentic) {before : Storage}
    {result : Option MigrationResult}
    (account : (backup.get "account").isTruthy = true →
      ∃ draw data, payloadOf (backup.get "account") =
          some (crypto.encrypt draw (some data) password) ∧ storage "account" = data)
    (sessionKeys : storage "sessionKeys" = before "sessionKeys")
    (kept : (backup.get "sessionKeys").isTruthy = true →
      (∃ failure, readSection crypto backup password .sessionKeys = .error failure) →
        storage "account" = before "account") :
    match (match restoreSection crypto backup password .sessionKeys storage with
        | (.error error, storage) => (.error error, storage)
        | (.ok (), storage) => (.ok result, storage) :
          Except BackupError (Option MigrationResult) × Storage) with
      | (.error _, after) => ∀ restored : Section, after restored.key = before restored.key
      | (.ok _, after) => Restored crypto backup password after := by
  rcases @restoreSection_cases crypto backup password storage .sessionKeys with
    ⟨absent, step⟩ | ⟨present, ⟨failure, read, step⟩ | ⟨data, read, step⟩⟩
  · rw [step]
    intro restored present
    cases restored with
    | account => exact account present
    | sessionKeys => cases absent.symm.trans present
  · rw [step]
    intro restored
    cases restored with
    | account => exact kept present ⟨failure, read⟩
    | sessionKeys => exact sessionKeys
  · rw [step]
    intro restored present
    cases restored with
    | account =>
      obtain ⟨draw, exported, found, stored⟩ := account present
      have other : Section.account.key ≠ Section.sessionKeys.key := by decide
      exact ⟨draw, exported, found, (Function.update_of_ne other _ _).trans stored⟩
    | sessionKeys =>
      obtain ⟨draw, found⟩ := exported_of_readSection authentic read
      exact ⟨draw, data, found, Function.update_self _ _ _⟩

/-- An import is all or nothing exactly where it does not stop between the two sections with
    another account stored. -/
theorem import_all_or_nothing_iff (authentic : crypto.Authentic) :
    AllOrNothing crypto backup storage password ↔
      ¬ HalfRestored crypto backup storage password := by
  refine ⟨fun whole half => not_allOrNothing half whole, fun whole => ?_⟩
  rw [AllOrNothing, importBackup]
  cases admitted : admitBackup crypto backup password with
  | error error => exact fun _ => rfl
  | ok _ =>
    simp only [migrated_eq]
    rcases @restoreSection_cases crypto backup password storage .account with
      ⟨absent, step⟩ | ⟨present, ⟨failure, read, step⟩ | ⟨data, read, step⟩⟩
    · rw [step]
      refine finish_restored authentic (fun present => ?_) rfl fun _ _ => rfl
      cases absent.symm.trans present
    · rw [step]
      exact fun _ => rfl
    · rw [step]
      have stored : Function.update storage Section.account.key data "account" = data :=
        Function.update_self _ _ _
      obtain ⟨draw, found⟩ := exported_of_readSection authentic read
      have other : "sessionKeys" ≠ Section.account.key := by decide
      refine finish_restored authentic (fun _ => ⟨draw, data, found, stored⟩)
        (Function.update_of_ne other _ _) fun keys unread => ?_
      rw [stored]
      by_contra differs
      exact whole ⟨admitted, present, ⟨data, read, differs⟩, keys, unread⟩

end Import

/-! ### A backup that is restored by half -/

/-- Encryption that writes the password beside what it seals. -/
def sealOpenly (text : Text) (password : String) : EncryptedPayload where
  salt := password
  iv := ""
  ciphertext :=
    match text with
    | none => ""
    | some tree => String.ofList tree.print

open Classical in
noncomputable def readOpenly (payload : EncryptedPayload) (password : String) : Option Text :=
  if made : ∃ text, sealOpenly text password = payload then some made.choose else none

noncomputable def openCrypto : Crypto where
  Draw := Unit
  encrypt _ := sealOpenly
  decrypt := readOpenly
  sha256 text := String.ofList ('0' :: text)

theorem sealOpenly_inj {text text' : Text} {password : String}
    (same : sealOpenly text password = sealOpenly text' password) : text = text' := by
  have letters := congrArg EncryptedPayload.ciphertext same
  cases text with
  | none =>
    cases text' with
    | none => rfl
    | some tree =>
      obtain ⟨first, rest, split, -⟩ := tree.print_head
      cases (String.ofList_injective letters).trans split
  | some tree =>
    cases text' with
    | none =>
      obtain ⟨first, rest, split, -⟩ := tree.print_head
      cases (String.ofList_injective letters).symm.trans split
    | some tree' => rw [Json.print_inj (String.ofList_injective letters)]

theorem openCrypto_authentic : openCrypto.Authentic := by
  intro payload password text
  change readOpenly payload password = some text ↔ ∃ draw : Unit, sealOpenly text password = payload
  rw [readOpenly]
  by_cases made : ∃ text, sealOpenly text password = payload
  · rw [dif_pos made, Option.some.injEq]
    constructor
    · rintro rfl
      exact ⟨(), made.choose_spec⟩
    · rintro ⟨-, same⟩
      exact sealOpenly_inj (made.choose_spec.trans same.symm)
  · rw [dif_neg made]
    refine iff_of_false nofun ?_
    rintro ⟨-, same⟩
    exact made ⟨text, same⟩

def anAccount : Json := .object [("privateKey", .string "S")]

/-- Session keys without their `keys`. -/
def someStorage : Storage
  | "account" => anAccount
  | "sessionKeys" => .object []
  | _ => .null

noncomputable def backupOf (storage : Storage) : Value :=
  match exportBackup openCrypto storage "p" "" .undefined fun _ => () with
  | .ok backup => backup
  | .error _ => .undefined

def emptyStorage : Storage := fun _ => .null

theorem import_all_or_nothing_of_openCrypto :
    AllOrNothing openCrypto (backupOf someStorage) emptyStorage "p" ↔
      ¬ HalfRestored openCrypto (backupOf someStorage) emptyStorage "p" :=
  import_all_or_nothing_iff openCrypto_authentic

theorem readSection_payload {crypto : Crypto} (authentic : crypto.Authentic) {backup : Value}
    {password : String} {restored : Section} (draw : crypto.Draw) {data : Json}
    (found : backup.get restored.key =
      payloadValue (crypto.encrypt draw (some data) password)) :
    readSection crypto backup password restored =
      match restored.validate data.value with
      | .error failure => .error failure
      | .ok () => .ok data := by
  rw [readSection, found]
  have opened : crypto.decrypt (crypto.encrypt draw (some data) password) password =
      some (some data) := (authentic _ _ _).mpr ⟨draw, rfl⟩
  have payload : payloadOf (payloadValue (crypto.encrypt draw (some data) password)) =
      some (crypto.encrypt draw (some data) password) := rfl
  rw [payload, Option.bind_some, opened]

/-- The export of such session keys replaces the account of a wallet that it does not restore. -/
theorem half_a_wallet_restored :
    exportBackup openCrypto someStorage "p" "" .undefined (fun _ => ()) =
        .ok (backupOf someStorage) ∧
      ¬ AllOrNothing openCrypto (backupOf someStorage) emptyStorage "p" := by
  have made : exportBackup openCrypto someStorage "p" "" .undefined (fun _ => ()) =
    .ok (backupOf someStorage) := rfl
  refine ⟨made, ?_⟩
  refine not_allOrNothing ⟨?_, rfl, ⟨anAccount, ?_, nofun⟩, rfl, .invalid
    "Invalid session keys data: missing or invalid keys object", ?_⟩
  · rw [admitBackup, if_neg (by decide)]
    refine (verifyBackupIntegrity_iff (exported_of_exportBackup made).checksum ?_).mpr rfl
    exact fun empty => nomatch String.ofList_injective empty
  · rw [readSection_payload openCrypto_authentic () rfl]
    rfl
  · rw [readSection_payload openCrypto_authentic () rfl]
    rfl

/-! ## What a checksum sees -/

section Checksums

variable {crypto : Crypto}

/-- The version and the sections are the same, with all that is in them. -/
structure SameContents (backup backup' : Value) : Prop where
  version : backup.get "version" = backup'.get "version"
  account : backup.get "account" = backup'.get "account"
  sessionKeys : backup.get "sessionKeys" = backup'.get "sessionKeys"

/-- What is written of the version and the sections is the same. -/
structure LooksSame (backup backup' : Value) : Prop where
  version : visible checksumKeys (backup.get "version") =
    visible checksumKeys (backup'.get "version")
  account : visible checksumKeys (backup.get "account") =
    visible checksumKeys (backup'.get "account")
  sessionKeys : visible checksumKeys (backup.get "sessionKeys") =
    visible checksumKeys (backup'.get "sessionKeys")

/-- A sealed section has none of the members that are written. -/
theorem visible_payload (payload : EncryptedPayload) :
    visible checksumKeys (payloadValue payload) = some (.object []) := by
  rfl

theorem visible_backupDataForChecksum (backup : Value) :
    visible checksumKeys (backupDataForChecksum backup) =
      some (.object (checksumKeys.filterMap fun key =>
        (visible checksumKeys (backup.get key)).map fun value => (key, value))) := by
  rfl

theorem lookup_filterMap {α : Type} (value : String → Option α) {keys : List String}
    (distinct : keys.Nodup) {key : String} (member : key ∈ keys) :
    (keys.filterMap fun key => (value key).map fun found => (key, found)).lookup key =
      value key := by
  induction keys with
  | nil => cases member
  | cons first keys ih =>
    obtain ⟨fresh, distinct⟩ := List.nodup_cons.mp distinct
    by_cases same : key = first
    · subst same
      cases written : value key with
      | none =>
        rw [List.filterMap_cons_none (by rw [written, Option.map_none])]
        refine List.lookup_eq_none_iff.mpr fun entry kept => ?_
        obtain ⟨other, inside, made⟩ := List.mem_filterMap.mp kept
        obtain ⟨found, -, rfl⟩ := Option.map_eq_some_iff.mp made
        refine bne_iff_ne.mpr fun same => fresh ?_
        rwa [same]
      | some found =>
        rw [List.filterMap_cons_some (by rw [written, Option.map_some]), List.lookup_cons_self]
    · have member := (List.mem_cons.mp member).resolve_left same
      cases written : value first with
      | none =>
        rw [List.filterMap_cons_none (by rw [written, Option.map_none])]
        exact ih distinct member
      | some found =>
        rw [List.filterMap_cons_some (by rw [written, Option.map_some]), List.lookup_cons,
          beq_false_of_ne same]
        exact ih distinct member

/-- The text that is digested shows no more and no less than what looks the same. -/
theorem looksSame_iff {backup backup' : Value} :
    LooksSame backup backup' ↔
      stringify checksumKeys (backupDataForChecksum backup) =
        stringify checksumKeys (backupDataForChecksum backup') := by
  constructor
  · rintro ⟨version, account, sessionKeys⟩
    rw [stringify, stringify, visible_backupDataForChecksum, visible_backupDataForChecksum]
    simp only [checksumKeys, List.filterMap_cons, List.filterMap_nil]
      at version account sessionKeys ⊢
    simp only [version, account, sessionKeys]
  · intro same
    have seen := stringify_inj same
    rw [visible_backupDataForChecksum, visible_backupDataForChecksum, Option.some.injEq,
      Json.object.injEq] at seen
    have each {key : String} (member : key ∈ checksumKeys) :
        visible checksumKeys (backup.get key) = visible checksumKeys (backup'.get key) := by
      have looked := congrArg (List.lookup key) seen
      rw [lookup_filterMap (fun key => visible checksumKeys (backup.get key)) (by decide) member,
        lookup_filterMap (fun key => visible checksumKeys (backup'.get key)) (by decide) member]
        at looked
      exact looked
    exact ⟨each (by decide), each (by decide), each (by decide)⟩

theorem visible_eq_none_iff {value : Value} :
    visible checksumKeys value = none ↔ value = .undefined := by
  cases value with
  | undefined => exact iff_of_true rfl rfl
  | _ => exact iff_of_false nofun nofun

theorem visible_eq_empty_iff {value : Value} :
    visible checksumKeys value = some (.object []) ↔ Bare value := by
  cases value with
  | object fields =>
    have hidden : visible checksumKeys (.object fields) = some (.object []) ↔
        ∀ key ∈ checksumKeys, visible checksumKeys (fields key) = none := by
      rw [visible, Option.some.injEq, Json.object.injEq, List.filterMap_eq_nil_iff]
      exact forall₂_congr fun key _ => Option.map_eq_none_iff
    rw [hidden, Bare]
    constructor
    · exact fun unseen =>
        ⟨fields, rfl, fun key member => visible_eq_none_iff.mp (unseen key member)⟩
    · rintro ⟨fields', same, unseen⟩ key member
      cases same
      exact visible_eq_none_iff.mpr (unseen key member)
  | number number =>
    refine iff_of_false (fun same => ?_) ?_
    · cases number <;> cases same
    · rintro ⟨fields, same, -⟩
      cases same
  | _ =>
    refine iff_of_false nofun ?_
    rintro ⟨fields, same, -⟩
    cases same

theorem visible_eq_versionOne_iff {value : Value} :
    visible checksumKeys value = visible checksumKeys (.number versionOne) ↔
      value = .number versionOne := by
  constructor
  · intro same
    cases value with
    | number number =>
      cases number with
      | nonzero negative decimal =>
        injection Option.some.inj same with same
        injection same with negative decimal
        rw [versionOne, negative, decimal]
      | _ => cases same
    | _ => cases same
  · rintro rfl
    rfl

/-! ### What is told apart -/

variable {storage : Storage} {password createdAt : String} {createdBy : Value}
  {draws : Section → crypto.Draw} {backup backup' : Value}

/-- Other contents that look the same: an exported section is another object, without
    members under the names that a backup has. -/
structure Unnoticed (backup backup' : Value) : Prop where
  version : backup'.get "version" = backup.get "version"
  absent (exported : Section) :
    backup.get exported.key = .undefined → backup'.get exported.key = .undefined
  present (exported : Section) :
    backup.get exported.key ≠ .undefined → Bare (backup'.get exported.key)
  differs : ∃ exported : Section, backup'.get exported.key ≠ backup.get exported.key

theorem looksSame_of_exported (exported : Exported crypto backup) :
    LooksSame backup backup' ↔
      backup'.get "version" = backup.get "version" ∧
        (∀ restored : Section, backup.get restored.key = .undefined →
          backup'.get restored.key = .undefined) ∧
        ∀ restored : Section, backup.get restored.key ≠ .undefined →
          Bare (backup'.get restored.key) := by
  have version : visible checksumKeys (backup.get "version") =
      visible checksumKeys (backup'.get "version") ↔
        backup'.get "version" = backup.get "version" := by
    rw [exported.version, eq_comm, visible_eq_versionOne_iff]
  have each (restored : Section) : visible checksumKeys (backup.get restored.key) =
      visible checksumKeys (backup'.get restored.key) ↔
        (backup.get restored.key = .undefined → backup'.get restored.key = .undefined) ∧
          (backup.get restored.key ≠ .undefined → Bare (backup'.get restored.key)) := by
    rcases exported.sections restored with absent | bare
    · rw [absent, eq_comm, show visible checksumKeys .undefined = none from rfl,
        visible_eq_none_iff]
      exact ⟨fun same => ⟨fun _ => same, fun other => absurd rfl other⟩, fun both => both.1 rfl⟩
    · rw [visible_eq_empty_iff.mpr bare, eq_comm, visible_eq_empty_iff]
      have present : backup.get restored.key ≠ .undefined := by
        obtain ⟨fields, same, -⟩ := bare
        rw [same]
        nofun
      exact ⟨fun bare => ⟨fun absent => absurd absent present, fun _ => bare⟩,
        fun both => both.2 present⟩
  constructor
  · rintro ⟨seen, account, sessionKeys⟩
    refine ⟨version.mp seen, fun restored => ?_, fun restored => ?_⟩
    · cases restored with
      | account => exact ((each .account).mp account).1
      | sessionKeys => exact ((each .sessionKeys).mp sessionKeys).1
    · cases restored with
      | account => exact ((each .account).mp account).2
      | sessionKeys => exact ((each .sessionKeys).mp sessionKeys).2
  · rintro ⟨same, absent, present⟩
    exact ⟨version.mpr same, (each .account).mpr ⟨absent _, present _⟩,
      (each .sessionKeys).mpr ⟨absent _, present _⟩⟩

/-- A digest tells texts apart and is never empty. -/
structure Digests (crypto : Crypto) : Prop where
  injective : Function.Injective crypto.sha256
  nonempty : ∀ text, crypto.sha256 text ≠ ""

theorem stringify_backupDataForChecksum (backup : Value) :
    ∃ text, stringify checksumKeys (backupDataForChecksum backup) = some text :=
  ⟨_, rfl⟩

theorem checksumOf_eq_iff (digests : Digests crypto) :
    checksumOf crypto backup = checksumOf crypto backup' ↔ LooksSame backup backup' := by
  obtain ⟨text, written⟩ := stringify_backupDataForChecksum backup
  obtain ⟨text', written'⟩ := stringify_backupDataForChecksum backup'
  rw [looksSame_iff, checksumOf, checksumOf, calculateChecksum, calculateChecksum, written,
    written', digests.injective.eq_iff, Option.some.injEq]
  rfl

/-- With the checksum of an exported backup, other contents are accepted exactly where they
    go unnoticed. -/
theorem contents_bound_iff (digests : Digests crypto)
    (exported : exportBackup crypto storage password createdAt createdBy draws = .ok backup)
    (checksum : (backup'.get "metadata").get "checksum" =
      (backup.get "metadata").get "checksum") :
    (verifyBackupIntegrity crypto backup' = .ok () → SameContents backup backup') ↔
      ¬ Unnoticed backup backup' := by
  have exported := exported_of_exportBackup exported
  rw [exported.checksum] at checksum
  rw [verifyBackupIntegrity_iff checksum (digests.nonempty _), checksumOf_eq_iff digests,
    looksSame_of_exported exported]
  constructor
  · rintro bound ⟨version, absent, present, restored, differs⟩
    obtain ⟨-, account, sessionKeys⟩ := bound ⟨version, absent, present⟩
    cases restored with
    | account => exact differs account.symm
    | sessionKeys => exact differs sessionKeys.symm
  · rintro noticed ⟨version, absent, present⟩
    by_contra differs
    refine noticed ⟨version, absent, present, ?_⟩
    by_contra same
    push Not at same
    exact differs ⟨version.symm, (same .account).symm, (same .sessionKeys).symm⟩

theorem openCrypto_digests : Digests openCrypto where
  injective _ _ same := (List.cons.inj (String.ofList_injective same)).2
  nonempty _ empty := nomatch String.ofList_injective empty

def otherStorage : Storage
  | "account" => .object [("privateKey", .string "T")]
  | "sessionKeys" => .object []
  | _ => .null

/-- A backup with the account of another one. -/
noncomputable def splicedBackup : Value :=
  objectOf [("version", (backupOf someStorage).get "version"),
    ("account", (backupOf otherStorage).get "account"),
    ("sessionKeys", (backupOf someStorage).get "sessionKeys"),
    ("metadata", (backupOf someStorage).get "metadata")]

theorem contents_bound_of_splicedBackup :
    (verifyBackupIntegrity openCrypto splicedBackup = .ok () →
        SameContents (backupOf someStorage) splicedBackup) ↔
      ¬ Unnoticed (backupOf someStorage) splicedBackup :=
  contents_bound_iff openCrypto_digests
    (show exportBackup openCrypto someStorage "p" "" .undefined (fun _ => ()) =
      .ok (backupOf someStorage) from rfl) rfl

/-- The account of one backup goes into another one that was made under the same password. -/
theorem account_spliced :
    (exportBackup openCrypto someStorage "p" "" .undefined (fun _ => ()) =
        .ok (backupOf someStorage) ∧
      exportBackup openCrypto otherStorage "p" "" .undefined (fun _ => ()) =
        .ok (backupOf otherStorage)) ∧
    (splicedBackup.get "metadata").get "checksum" =
        ((backupOf someStorage).get "metadata").get "checksum" ∧
      verifyBackupIntegrity openCrypto splicedBackup = .ok () ∧
      ¬ SameContents (backupOf someStorage) splicedBackup := by
  have made : exportBackup openCrypto someStorage "p" "" .undefined (fun _ => ()) =
    .ok (backupOf someStorage) := rfl
  refine ⟨⟨made, rfl⟩, rfl, ?_, fun same => ?_⟩
  · have checksum : (splicedBackup.get "metadata").get "checksum" =
        .string (checksumOf openCrypto (backupOf someStorage)) :=
      (exported_of_exportBackup made).checksum
    exact (verifyBackupIntegrity_iff checksum (openCrypto_digests.nonempty _)).mpr rfl
  · have ciphertexts := congrArg (Value.get · "ciphertext") same.account
    have texts := String.ofList_injective (Value.string.inj ciphertexts)
    have same : anAccount = .object [("privateKey", .string "T")] := Json.print_inj texts
    simp [anAccount] at same

end Checksums

end Ancore.Vault.Backups
