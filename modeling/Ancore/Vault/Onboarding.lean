import Ancore.Library.EcmaScript
import Ancore.Vault.CalmRuns

/-! # The onboarded account and its readers

`deployAccount` of the extension stores one account record in the vault, an object of
loosely typed fields.  The signing key and the two exported secrets are read from it by
the names of its fields.
-/

namespace Ancore.Vault.Onboarding

open Ancore.Library

/-! ## Keys and recovery phrases -/

/-- Keypairs of the Stellar SDK and recovery phrases of BIP39; `none` where the SDK throws. -/
structure KeyLibrary where
  Keypair : Type
  fromSecret : String → Option Keypair
  publicKey : Keypair → String
  secret : Keypair → String
  validateMnemonic : String → Bool
  keypairOfMnemonic : String → Keypair

structure KeyLibrary.Documented (keys : KeyLibrary) : Prop where
  fromSecret_secret : ∀ keypair, keys.fromSecret (keys.secret keypair) = some keypair
  /-- It fails on what is no secret seed. -/
  secret_fromSecret : ∀ text keypair, keys.fromSecret text = some keypair →
    keys.secret keypair = text
  /-- A phrase is words between spaces, and a secret seed a single word. -/
  validateMnemonic : ∀ mnemonic keypair, keys.validateMnemonic mnemonic = true →
    keys.secret keypair ≠ mnemonic

variable (keys : KeyLibrary) {cipher : Sealing String}

/-- `deriveKeypairFromMnemonic(mnemonic, 0)` -/
def deriveKeypairFromMnemonic (mnemonic : String) : Except Thrown keys.Keypair :=
  if keys.validateMnemonic mnemonic then pure (keys.keypairOfMnemonic mnemonic)
  else throw "Invalid mnemonic phrase"

/-- `replace(/\s+/g, ' ')`, after a letter that was white space or not. -/
def collapseSpaces (after : Bool) : List Char → List Char
  | [] => []
  | letter :: letters =>
    if EcmaScript.isWhiteSpace letter then
      if after then collapseSpaces true letters else ' ' :: collapseSpaces true letters
    else letter :: collapseSpaces false letters

def normalizeMnemonic (mnemonic : String) : Except Thrown String :=
  let normalized := String.ofList (collapseSpaces false (EcmaScript.trim mnemonic).toList)
  if keys.validateMnemonic normalized then pure normalized
  else throw "mnemonic must be a valid 12-word BIP39 phrase."

structure WalletMaterial (cipher : Sealing String) where
  mnemonic : String
  publicKey : String
  secretKey : String
  encryptedMnemonic : EncryptedSecretKeyPayload cipher

def importWallet (mnemonic password : String) (salt : cipher.Salt) (nonce : cipher.Nonce) :
    Except Thrown (WalletMaterial cipher) := do
  let mnemonic ← normalizeMnemonic keys mnemonic
  let keypair ← deriveKeypairFromMnemonic keys mnemonic
  let encryptedMnemonic ← encryptSecretKey mnemonic password salt nonce
  pure ⟨mnemonic, keys.publicKey keypair, keys.secret keypair, encryptedMnemonic⟩

/-! ## The record -/

inductive Field (cipher : Sealing String) where
  | text (value : String)
  | payload (payload : EncryptedSecretKeyPayload cipher)

/-- An object, by the names of its fields. -/
abbrev AccountData (cipher : Sealing String) : Type := List (String × Field cipher)

def textField (name : String) (account : AccountData cipher) : Option String :=
  match account.lookup name with
  | some (.text value) => some value
  | _ => none

def payloadField (name : String) (account : AccountData cipher) :
    Option (EncryptedSecretKeyPayload cipher) :=
  match account.lookup name with
  | some (.payload payload) => some payload
  | _ => none

/-- The record that `deployAccount` stores. -/
def onboardedRecord (mnemonic publicKey contractId : String) : AccountData cipher :=
  [("privateKey", .text mnemonic), ("publicKey", .text publicKey),
    ("contractId", .text contractId)]

/-- What the export reads of a record. -/
def exported (account : AccountData cipher) : VaultAccountData cipher where
  privateKey := (textField "privateKey" account).getD ""
  encryptedMnemonic := payloadField "encryptedMnemonic" account
  mnemonic := textField "mnemonic" account

variable {sealing : Sealing (Plaintext (AccountData cipher))}

def saveAccount (account : AccountData cipher) : Async sealing Unit := saveItem "account" account

/-- Another object than a record has none of its fields. -/
def accountOf : Option (Plaintext (AccountData cipher)) → Option (AccountData cipher)
  | none => none
  | some (.item account) => some account
  | some (.verification _) => some []

def getAccount : Async sealing (Option (AccountData cipher)) := do
  let account ← getItem "account"
  pure (accountOf account)

/-! ## The writer -/

structure Deployment where
  contractId : String
  txHash : Option String

/-- The state of the hook that the deployment reads. -/
structure OnboardingState where
  mnemonic : Option String
  password : Option String

structure DeployedAccount where
  publicKey : String
  contractId : String
  txHash : Option String

/-- The part of `deployAccount` that writes to the vault. -/
def persistOnboarded (mnemonic password publicKey contractId : String) : Async sealing Unit := do
  let vaultReady ← unlock password
  if vaultReady then saveAccount (onboardedRecord mnemonic publicKey contractId) else pure ()

/-- `deployAccount`, with what the deploy client answers.  What the vault throws is dropped. -/
def deployAccount (state : OnboardingState) (salt : cipher.Salt) (nonce : cipher.Nonce)
    (deployed : Except Thrown Deployment) : Async sealing (Option DeployedAccount) :=
  match state.mnemonic.filter (· ≠ ""), state.password.filter (· ≠ "") with
  | none, _ => pure none
  | _, none => pure none
  | some mnemonic, some password => do
    let wallet : WalletMaterial cipher ←
      ExceptT.mk (pure (importWallet keys mnemonic password salt nonce))
    let _ ← ExceptT.mk (pure (deriveKeypairFromMnemonic keys mnemonic))
    match deployed with
    | .error _ => pure none
    | .ok deployment => do
      let _ ← ExceptT.lift
        (persistOnboarded mnemonic password wallet.publicKey deployment.contractId).run
      pure (some ⟨wallet.publicKey, deployment.contractId, deployment.txHash⟩)

/-! ## The readers -/

def getSigningKeypair : Async sealing keys.Keypair := do
  if ← ExceptT.lift (awaited .isUnlocked) then do
    match (← getAccount).bind fun account => (textField "privateKey" account).filter (· ≠ "") with
    | none => throw "No account found in vault"
    | some privateKey =>
      match keys.fromSecret privateKey with
      | none => throw "invalid encoded string"
      | some keypair => pure keypair
  else throw "Wallet is locked"

section Access

variable {Value : Type} {sealing : Sealing (Plaintext Value)}

/-- `ensureStorageAccess` over any items. -/
def ensureAccess (password : String) (requirePassword : Bool) : Async sealing Unit := do
  if requirePassword then
    if password = "" then throw "Enter your password."
    else do
      if ← ExceptT.lift (awaited .isUnlocked) then lock
      let unlocked ← unlock password
      if unlocked then pure () else throw "Incorrect password."
  else if ← ExceptT.lift (awaited .isUnlocked) then pure ()
  else throw "Wallet is locked. Unlock your wallet first."

end Access

theorem ensureStorageAccess_eq {Json : Type} {sealing : Sealing (Plaintext (VaultItem Json cipher))}
    (password : String) (requirePassword : Bool) :
    ensureStorageAccess password requirePassword =
      (ensureAccess password requirePassword : Async sealing Unit) := rfl

/-- `revealVaultSecret` of the record. -/
def revealVaultSecret (kind : VaultExportKind) (password : String) (requirePassword : Bool) :
    Async sealing String := do
  ensureAccess password requirePassword
  let account ← getAccount
  ExceptT.mk (pure (exportSecret kind password (account.map exported)))

/-! ## What the readers come to -/

/-- The calls that write nothing under a key. -/
def Spares {Value : Type} {sealing : Sealing (Plaintext Value)} (key : String) :
    VaultCall sealing → Prop
  | .set name _ => name ≠ key
  | .delete name => name ≠ key
  | _ => True

section Spares

variable {Value : Type} {sealing : Sealing (Plaintext Value)} {key : String}

theorem perform_spares {request : VaultCall sealing} {circumstance : Circumstance sealing}
    {manager : Manager sealing} {stored : Option (StoredValue sealing)}
    (spares : Spares key request)
    (held : manager.storage key = stored) :
    (perform request circumstance manager).2.storage key = stored := by
  cases request with
  | set name value =>
    rw [perform_set]
    split
    · exact held
    · exact (Function.update_of_ne (Ne.symm spares) _ _).trans held
  | delete name =>
    rw [perform]
    split
    · exact held
    · exact (Function.update_of_ne (Ne.symm spares) _ _).trans held
  | isUnlocked => exact held
  | setEncryptionKey encryptionKey => exact held
  | deriveEncryptionKey password masterSalt => exact held
  | initializeMasterSalt => exact held
  | dateNow => exact held
  | encryptData plaintext =>
    rw [perform]
    split <;> exact held
  | decryptData payload =>
    rw [perform]
    split
    · exact held
    · split <;> exact held
  | get name => exact held

/-- A single call that spares the key. -/
theorem awaited_makes {request : VaultCall sealing} (spares : Spares key request) :
    (ExceptT.lift (awaited request) : Async sealing _).run.Makes (Spares key) :=
  ⟨spares, fun _ => trivial⟩

theorem lock_makes : (lock : Async sealing Unit).run.Makes (Spares key) := awaited_makes trivial

theorem useEncryptionKey_makes (password : String) (masterSalt : sealing.Salt) :
    (useEncryptionKey password masterSalt : Async sealing Unit).run.Makes (Spares key) :=
  Program.makes_bindExcept (awaited_makes trivial) fun _ => awaited_makes trivial

theorem unlock_makes (password : String) (salted : masterSaltStorageKey ≠ key)
    (verified : verificationPayloadStorageKey ≠ key) :
    (unlock password : Async sealing Bool).run.Makes (Spares key) := by
  refine Program.makes_bindExcept (awaited_makes trivial) fun unlocked => ?_
  cases unlocked with
  | true => exact trivial
  | false =>
    refine Program.makes_bindExcept
      (Program.makes_bindExcept (awaited_makes trivial) fun _ => trivial) fun salt => ?_
    cases salt with
    | none =>
      refine Program.makes_bindExcept (awaited_makes trivial) fun masterSalt => ?_
      refine Program.makes_bindExcept (useEncryptionKey_makes password masterSalt) fun _ => ?_
      refine Program.makes_bindExcept ?_ fun _ => ?_
      · refine Program.makes_bindExcept (awaited_makes trivial) fun _ => ?_
        refine Program.makes_bindExcept ⟨trivial, fun _ => trivial⟩ fun _ => ?_
        exact ⟨verified, fun _ => trivial⟩
      · exact Program.makes_bindExcept ⟨salted, fun _ => trivial⟩ fun _ => trivial
    | some masterSalt =>
      refine Program.makes_bindExcept (useEncryptionKey_makes password masterSalt) fun _ => ?_
      refine Program.makes_bindExcept
        (Program.makes_bindExcept (awaited_makes trivial) fun _ => trivial) fun payload => ?_
      cases payload with
      | none => exact trivial
      | some payload =>
        refine Program.makes_bindExcept (awaited_makes trivial) fun opened => ?_
        cases opened with
        | ok plaintext => exact trivial
        | error error => exact Program.makes_bindExcept (awaited_makes trivial) fun _ => trivial

theorem ensureAccess_makes (password : String) (requirePassword : Bool)
    (salted : masterSaltStorageKey ≠ key) (verified : verificationPayloadStorageKey ≠ key) :
    (ensureAccess password requirePassword : Async sealing Unit).run.Makes (Spares key) := by
  cases requirePassword with
  | false =>
    refine Program.makes_bindExcept (awaited_makes trivial) fun unlocked => ?_
    cases unlocked <;> exact trivial
  | true =>
    change (if password = "" then throw "Enter your password." else _ :
      Async sealing Unit).run.Makes (Spares key)
    split
    · exact trivial
    · have reopened : (unlock password >>= fun unlocked =>
          if unlocked then pure () else throw "Incorrect password." :
            Async sealing Unit).run.Makes (Spares key) := by
        refine Program.makes_bindExcept (unlock_makes password salted verified) fun opened => ?_
        cases opened <;> exact trivial
      refine Program.makes_bindExcept (awaited_makes trivial) fun unlocked => ?_
      cases unlocked with
      | false => exact reopened
      | true => exact Program.makes_bindExcept lock_makes fun _ => reopened

end Spares

/-- The record that was stored last is there, sealed under some key. -/
def Stored (record : AccountData cipher) (manager : Manager sealing) : Prop :=
  ∃ key nonce, manager.storage "account" =
    some (.payload (sealing.encrypt key nonce (.item record)))

/-- Only the record is ever found. -/
theorem getAccount_stored (sound : sealing.Sound) {record : AccountData cipher}
    {manager : Manager sealing} (stored : Stored record manager) :
    (getAccount : Async sealing _).run.Always perform Circumstance.Calm
      (fun result _ => ∀ account, result = .ok (some account) → account = record) manager := by
  obtain ⟨key, nonce, held⟩ := stored
  refine Program.always_bindExcept fun circumstance calm => ?_
  rw [perform_isUnlocked]
  cases unlocked : manager.encryptionKey with
  | none => exact nofun
  | some current =>
    refine fun circumstance calm => ?_
    rw [perform_get _ calm.1, held]
    refine fun circumstance calm => ?_
    rw [perform_decryptData _ unlocked]
    by_cases same : current = key
    · subst same
      rw [sound.decrypt_encrypt]
      rintro account found
      cases found
      rfl
    · rw [sound.decrypt_other nonce _ same]
      exact nofun

/-- The signing key is read from the phrase, which is no secret seed. -/
theorem getSigningKeypair_fails (sound : sealing.Sound) {mnemonic publicKey contractId : String}
    (unread : keys.fromSecret mnemonic = none) {manager : Manager sealing}
    (stored : Stored (onboardedRecord mnemonic publicKey contractId) manager) :
    (getSigningKeypair keys : Async sealing _).run.Always perform Circumstance.Calm
      (fun result _ => ∀ keypair, result ≠ .ok keypair) manager := by
  refine fun circumstance calm => ?_
  rw [perform_isUnlocked]
  cases unlocked : manager.encryptionKey with
  | none => exact nofun
  | some current =>
    refine Program.always_bindExcept (Program.always_mono (getAccount_stored sound stored) ?_)
    intro result manager found
    cases result with
    | error error => exact nofun
    | ok account =>
      cases account with
      | none => exact nofun
      | some account =>
        cases found account rfl
        change Program.Always _ _ _ (ExceptT.run (match (some mnemonic).filter (· ≠ "") with
          | none => throw "No account found in vault"
          | some privateKey => match keys.fromSecret privateKey with
            | none => throw "invalid encoded string"
            | some keypair => pure keypair)) manager
        by_cases empty : mnemonic = ""
        · rw [Option.filter_some, if_neg (by simp [empty])]
          exact nofun
        · rw [Option.filter_some, if_pos (by simp [empty])]
          simp only [unread]
          exact nofun

/-- What is revealed is the phrase, as the private key. -/
theorem revealVaultSecret_stored (kind : VaultExportKind) (password : String)
    (requirePassword : Bool) (sound : sealing.Sound) {mnemonic publicKey contractId : String}
    {manager : Manager sealing}
    (stored : Stored (onboardedRecord mnemonic publicKey contractId) manager) :
    (revealVaultSecret kind password requirePassword : Async sealing _).run.Always perform
      Circumstance.Calm
      (fun result _ => ∀ secret, result = .ok secret → kind = .privateKey ∧ secret = mnemonic)
      manager := by
  have kept : (ensureAccess password requirePassword : Async sealing Unit).run.Always perform
      Circumstance.Calm
      (fun _ manager => Stored (onboardedRecord mnemonic publicKey contractId) manager)
      manager := by
    refine Program.always_of_makes ?_
      (ensureAccess_makes password requirePassword (by decide) (by decide) :
        Program.Makes (Spares "account") _) stored
    rintro request circumstance state spares ⟨key, nonce, held⟩
    exact ⟨key, nonce, perform_spares spares held⟩
  refine Program.always_bindExcept (Program.always_mono kept fun result manager stored => ?_)
  cases result with
  | error error => exact nofun
  | ok granted =>
    refine Program.always_bindExcept (Program.always_mono (getAccount_stored sound stored) ?_)
    intro result manager found
    cases result with
    | error error => exact nofun
    | ok account =>
      cases account with
      | none => exact nofun
      | some account =>
        cases found account rfl
        cases kind with
        | mnemonic => exact nofun
        | privateKey =>
          change ∀ secret, (if mnemonic = "" then throw "Private key is unavailable."
            else pure mnemonic : Except Thrown String) = .ok secret → _
          split
          · exact nofun
          · rintro secret revealed
            cases revealed
            exact ⟨rfl, rfl⟩

/-! ## The vault that serves its readers -/

section Serving

variable (calm : Circumstance sealing) (manager : Manager sealing) (password publicKey : String)

/-- The signing key is that of the stored public key. -/
def Signs (keypair : keys.Keypair) : Prop :=
  ((getSigningKeypair keys : Async sealing _).run.alone perform calm (manager, [])).1 =
      .ok keypair ∧ keys.publicKey keypair = publicKey

/-- The secret is exported with the password. -/
def Reveals (kind : VaultExportKind) (secret : String) : Prop :=
  ∀ requirePassword, ((revealVaultSecret kind password requirePassword :
    Async sealing _).run.alone perform calm (manager, [])).1 = .ok secret

/-- Each of the three readers of the record gets what it is for. -/
structure Serves (mnemonic : String) : Prop where
  keypair : ∃ keypair, Signs keys calm manager publicKey keypair ∧
    Reveals calm manager password .privateKey (keys.secret keypair)
  mnemonic : Reveals calm manager password .mnemonic mnemonic

end Serving

/-- An account is deployed for a phrase that keys can be derived from. -/
theorem deployAccount_valid {state : OnboardingState} {salt : cipher.Salt} {nonce : cipher.Nonce}
    {deployed : Except Thrown Deployment} {calm : Circumstance sealing}
    {course : Manager sealing × List (Circumstance sealing)} {account : DeployedAccount}
    (returned : ((deployAccount keys state salt nonce deployed : Async sealing _).run.alone perform
      calm course).1 = .ok (some account)) :
    keys.validateMnemonic (state.mnemonic.getD "") = true := by
  rw [deployAccount] at returned
  cases given : state.mnemonic.filter (· ≠ "") with
  | none =>
    rw [given] at returned
    cases returned
  | some mnemonic =>
    cases chosen : state.password.filter (· ≠ "") with
    | none =>
      rw [given, chosen] at returned
      cases returned
    | some password =>
      rw [given, chosen] at returned
      obtain ⟨same, -⟩ := Option.filter_eq_some_iff.mp given
      rw [same, Option.getD_some]
      by_contra invalid
      have refused : deriveKeypairFromMnemonic keys mnemonic =
          .error "Invalid mnemonic phrase" := if_neg invalid
      simp only [refused] at returned
      cases imported : (importWallet keys mnemonic password salt nonce :
          Except Thrown (WalletMaterial cipher)) with
      | error error =>
        rw [imported] at returned
        cases returned
      | ok wallet =>
        rw [imported] at returned
        cases returned

/-- After every deployment that stored its record, each of the readers fails. -/
theorem onboarded_unserved (documented : keys.Documented) (sound : sealing.Sound)
    {calm : Circumstance sealing} (isCalm : calm.Calm) {state : OnboardingState}
    {salt : cipher.Salt} {nonce : cipher.Nonce} {deployed : Except Thrown Deployment}
    {course : Manager sealing × List (Circumstance sealing)} {account : DeployedAccount}
    (returned : ((deployAccount keys state salt nonce deployed : Async sealing _).run.alone perform
      calm course).1 = .ok (some account))
    (stored : Stored
      (onboardedRecord (state.mnemonic.getD "") account.publicKey account.contractId)
      ((deployAccount keys state salt nonce deployed : Async sealing _).run.alone perform
        calm course).2.1) :
    let manager := ((deployAccount keys state salt nonce deployed :
      Async sealing _).run.alone perform calm course).2.1
    (∀ keypair, ¬ Signs keys calm manager account.publicKey keypair) ∧
      (∀ keypair, ¬ Reveals calm manager (state.password.getD "") .privateKey
        (keys.secret keypair)) ∧
      ¬ Reveals calm manager (state.password.getD "") .mnemonic (state.mnemonic.getD "") := by
  intro manager
  have valid := deployAccount_valid keys returned
  have unread : keys.fromSecret (state.mnemonic.getD "") = none := by
    cases read : keys.fromSecret (state.mnemonic.getD "") with
    | none => rfl
    | some keypair =>
      exact absurd (documented.secret_fromSecret _ _ read)
        (documented.validateMnemonic _ keypair valid)
  have revealed (kind : VaultExportKind) := Program.alone_of_always
    (revealVaultSecret_stored kind (state.password.getD "") true sound stored)
    (List.forall_mem_nil _) isCalm
  refine ⟨fun keypair signs => ?_, fun keypair reveals => ?_, fun reveals => ?_⟩
  · exact Program.alone_of_always (getSigningKeypair_fails keys sound unread stored)
      (List.forall_mem_nil _) isCalm keypair signs.1
  · obtain ⟨-, same⟩ := revealed .privateKey _ (reveals true)
    exact documented.validateMnemonic _ keypair valid same
  · obtain ⟨wrong, -⟩ := revealed .mnemonic _ (reveals true)
    cases wrong

/-! ### A sample -/

def samplePhrase : String :=
  "illness spike retreat truth genius clock brain pass fit cave bargain toe"

def samplePublicKey : String := "GDRXE2BQUC3AZNPVFSCEZ76NJ3WWL25FYFK6RGZGIEKWE4SOOHSUJUJ6"

def sampleSecret : String := "SBGWSG6BTNCKCOB3DIFBGCVMUPQFYPA2G4O34RMTB343OYPXU5DJDVMN"

/-- The one phrase and its one keypair. -/
def sampleKeys : KeyLibrary where
  Keypair := Unit
  fromSecret text := if text = sampleSecret then some () else none
  publicKey _ := samplePublicKey
  secret _ := sampleSecret
  validateMnemonic mnemonic := mnemonic = samplePhrase
  keypairOfMnemonic _ := ()

theorem sampleKeys_documented : sampleKeys.Documented where
  fromSecret_secret _ := by
    simp only [sampleKeys, if_true]
    rfl
  secret_fromSecret text _ read := by
    simp only [sampleKeys] at read
    split at read
    · exact (‹text = sampleSecret›).symm
    · cases read
  validateMnemonic mnemonic _ valid same := by
    have phrase : mnemonic = samplePhrase := of_decide_eq_true valid
    have different : sampleSecret ≠ samplePhrase := by decide
    exact different (Eq.trans same phrase)

abbrev symbolicRecords : Sealing (Plaintext (AccountData (Sealing.symbolic String))) :=
  Sealing.symbolic _

def sampleCalm : Circumstance symbolicRecords := ⟨0, (1 : Nat), (), none, false⟩

def sampleState : OnboardingState := ⟨some samplePhrase, some "password"⟩

def sampleDeployment : Deployment := ⟨"C", some "hash"⟩

/-- The deployment in a new vault. -/
def sampleOutcome : Except Thrown (Option DeployedAccount) × Manager symbolicRecords ×
    List (Circumstance symbolicRecords) :=
  (deployAccount sampleKeys sampleState (2 : Nat) () (.ok sampleDeployment) :
    Async symbolicRecords _).run.alone perform sampleCalm (.fresh fun _ => none, [])

theorem sampleOutcome_returned :
    sampleOutcome.1 = .ok (some ⟨samplePublicKey, "C", some "hash"⟩) := by
  rfl

theorem sampleOutcome_stored :
    Stored (onboardedRecord samplePhrase samplePublicKey "C") sampleOutcome.2.1 :=
  ⟨("password", (1 : Nat)), (), rfl⟩

theorem onboarded_unserved_of_sample :
    (∀ keypair, ¬ Signs sampleKeys sampleCalm sampleOutcome.2.1 samplePublicKey keypair) ∧
      (∀ keypair, ¬ Reveals sampleCalm sampleOutcome.2.1 "password" .privateKey
        (sampleKeys.secret keypair)) ∧
      ¬ Reveals sampleCalm sampleOutcome.2.1 "password" .mnemonic samplePhrase :=
  onboarded_unserved sampleKeys sampleKeys_documented (Sealing.symbolic_sound _) ⟨rfl, rfl⟩
    sampleOutcome_returned sampleOutcome_stored

/-- The private key that is exported is the phrase, and the phrase itself is not to be had. -/
theorem sample_not_served :
    ¬ Serves sampleKeys sampleCalm sampleOutcome.2.1 "password" samplePublicKey samplePhrase ∧
      Reveals sampleCalm sampleOutcome.2.1 "password" .privateKey samplePhrase ∧
      ((revealVaultSecret .mnemonic "password" true : Async symbolicRecords _).run.alone perform
        sampleCalm (sampleOutcome.2.1, [])).1 = .error "Recovery phrase is unavailable." := by
  have unavailable : ((revealVaultSecret .mnemonic "password" true :
      Async symbolicRecords _).run.alone perform sampleCalm (sampleOutcome.2.1, [])).1 =
        .error "Recovery phrase is unavailable." := by rfl
  refine ⟨fun serves => ?_, fun requirePassword => ?_, unavailable⟩
  · cases unavailable.symm.trans (serves.mnemonic true)
  · cases requirePassword <;> rfl

end Ancore.Vault.Onboarding
