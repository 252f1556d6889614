import Ancore.Account.Validation

/-! # The account contract: entry points

`AncoreAccount` in the order of its source.  Every entry point runs over the
contract's own storage; `execute` is cut into the parts its body has: the three
caller paths, the nonce, the validation modules, the invocation and the spend
write-back.
-/

namespace Ancore.Account

open Ancore.Library Ancore.Library.FixedWidth Ancore.Soroban

/-! ## Views -/

def Storage.getNonce (storage : Storage) : UInt64 := storage.nonce.getD 0

def Storage.getVersion (storage : Storage) : UInt32 := storage.version.getD 0

def Storage.getModules (storage : Storage) : List Address := storage.validationModules.getD []

def Storage.getOwners (storage : Storage) : List Address := storage.owners.getD []

def getOwner : AccountM Address := do
  let storage ← getStorage
  okOr storage.owner .notInitialized

def hasSessionKey (publicKey : PublicKey) : AccountM Bool := do
  let storage ← getStorage
  return (storage.sessionKey publicKey).isSome

/-- Check if a session key is active (exists and not expired) -/
def isSessionKeyActive (publicKey : PublicKey) : AccountM Bool := do
  let storage ← getStorage
  let env ← getEnv
  return (storage.sessionKey publicKey).any fun session => env.timestamp < session.expiresAt

/-- `Self::get_owner(env)?.require_auth()`, the guard of every owner operation. -/
def requireOwnerAuth : AccountM Unit := do
  let owner ← getOwner
  requireAuth owner

def bumpInstance : AccountM Unit := extendInstanceTtl instanceBumpThreshold instanceBumpAmount

/-- Initialize the account with an owner -/
def initializeAccount (owner : Address) : AccountM Unit := do
  let storage ← getStorage
  failIf storage.owner.isSome .alreadyInitialized
  requireAuth owner
  modifyStorage fun storage =>
    { storage with owner := some owner, nonce := some 0, version := some 1 }
  bumpInstance
  publish (.initialized owner)

/-! ## Spend accounting -/

/-- The larger of the maximum so far and a positive `i128` argument. -/
def raiseMaxAmount (maxAmount : Option Int128) (value : Val) : Option Int128 :=
  match value with
  | .i128 amount =>
    if 0 < amount then some (maxAmount.elim amount fun m => max m amount) else maxAmount
  | _ => maxAmount

def extractSpendAmount (args : List Val) : Option Int128 := args.foldl raiseMaxAmount none

def checkSessionSpendLimits (now : UInt64) (session : SessionKey) (args : List Val) :
    Except ContractError Unit :=
  checkSpendLimits {
    amount := extractSpendAmount args
    maxAmountPerCall := session.maxAmountPerCall
    cumulativeLimit := session.cumulativeLimit
    spendWindowStart := session.spendWindowStart
    spendWindowSeconds := session.spendWindowSeconds
    spentInWindow := session.spentInWindow
    now := now }

/-- Start a new spend window once the current one has passed. -/
def SessionKey.rollWindow (session : SessionKey) (now : UInt64) : SessionKey :=
  if now > saturatingAdd session.spendWindowStart session.spendWindowSeconds then
    { session with spendWindowStart := now, spentInWindow := 0 }
  else session

def applySpendUsage (now : UInt64) (session : SessionKey) (args : List Val) :
    Except ContractError SessionKey :=
  match extractSpendAmount args with
  | none => .ok session
  | some amount =>
    match session.cumulativeLimit with
    | none => .ok session
    | some _ =>
      let session := session.rollWindow now
      match checkedAdd session.spentInWindow amount with
      | none => .error .arithmeticOverflow
      | some spent => .ok { session with spentInWindow := spent }

/-! ## Execution -/

/-- Canonical signature payload: the XDR of `to`, `function`, `args` and the nonce. -/
def canonicalExecuteSigningPayload (target : Address) (function : Symbol) (args : List Val)
    (nonce : UInt64) : Option Bytes := do
  let targetXdr ← Val.toXdr (.address target)
  let functionXdr ← Val.toXdr (.symbol function)
  let argsXdr ← Val.toXdr (.vec args)
  let nonceXdr ← Val.toXdr (.u64 nonce)
  return targetXdr ++ functionXdr ++ argsXdr ++ nonceXdr

/-- The owner and quorum paths reject any session-key auth parameters. -/
def rejectSessionParameters (request : ExecuteRequest) : AccountM Unit :=
  failIf (request.sessionPubKey.isSome || request.signature.isSome ||
    request.signaturePayload.isSome) .invalidCallerIdentity

/-- The loop of `require_multi_owner_quorum`; `distinct` are the signers seen so far. -/
def authorizeSigners (owners : List Address) : List Address → List Address → AccountM (List Address)
  | distinct, [] => pure distinct
  | distinct, signer :: signers => do
    failIf (!owners.contains signer) .unauthorized
    if distinct.contains signer then authorizeSigners owners distinct signers
    else do
      requireAuth signer
      authorizeSigners owners (distinct ++ [signer]) signers

/-- At least `threshold` distinct owners among the signers, each authorizing the call. -/
def requireMultiOwnerQuorum (owners : List Address) (threshold : UInt32)
    (signers : List Address) : AccountM Unit := do
  let distinct ← authorizeSigners owners [] signers
  failIf (distinct.length < threshold.toNat) .unauthorized

/-- The stored owners and threshold, with the quorum they require. -/
def requireStoredQuorum (signers : List Address) : AccountM (List Address) := do
  let storage ← getStorage
  let owners ← okOr storage.owners .notInitialized
  let threshold ← okOr storage.threshold .notInitialized
  requireMultiOwnerQuorum owners threshold signers
  return owners

/-- The session-key path of `execute`. -/
def authorizeSessionKey (request : ExecuteRequest) (expectedSessionPk : PublicKey) :
    AccountM Unit := do
  let sessionPk ← okOr request.sessionPubKey .invalidCallerIdentity
  failIf (sessionPk != expectedSessionPk) .invalidCallerIdentity
  let storage ← getStorage
  let session ← okOr (storage.sessionKey sessionPk) .sessionKeyNotFound
  let env ← getEnv
  failIf (sessionKeyIsExpired env.timestamp session.expiresAt) .sessionKeyExpired
  failIf (!session.permissions.contains permissionExecute) .insufficientPermission
  failIf (!allowlistPermitsAddress session.allowedContracts request.target) .insufficientPermission
  liftResult (checkSessionSpendLimits env.timestamp session request.args)
  let signature ← okOr request.signature .invalidSignature
  let payload ← okOr request.signaturePayload .invalidSignature
  -- bind the signature to the call, with the nonce the caller expects
  let expectedPayload ← unwrap (canonicalExecuteSigningPayload request.target request.function
    request.args request.expectedNonce)
  failIf (payload != expectedPayload) .signaturePayloadMismatch
  -- the contract's wasm build: a bad signature traps in the host
  ed25519Verify sessionPk payload signature

/-- The `match caller` of `execute`. -/
def authorizeCaller (request : ExecuteRequest) : AccountM Unit :=
  match request.caller with
  | .owner => do
    rejectSessionParameters request
    requireOwnerAuth
  | .quorum signers => do
    rejectSessionParameters request
    let _ ← requireStoredQuorum signers
  | .sessionKey expectedSessionPk => authorizeSessionKey request expectedSessionPk

def validateSymbol : Symbol := ⟨"validate".toList, by decide, by simp [isSymbolChar]⟩

/-- A module's `Result<(), ContractError>`; a value that is neither traps. -/
def readValidationResult (value : Val) : AccountM Unit :=
  match value with
  | .void => pure ()
  | .error kind code =>
    -- a contract error of this contract's enumeration; the other errors do not convert
    if kind = 0 ∧ 1 ≤ code ∧ code ≤ 19 then failWith .insufficientPermission else trap
  | _ => trap

/-- Call each registered validation module; any that does not approve fails the call. -/
def runValidationModules (request : ExecuteRequest) : List Address → AccountM Unit
  | [] => pure ()
  | module :: modules => do
    let value ← invokeContract module validateSymbol
      [.address request.target, .symbol request.function, .vec request.args]
    readValidationResult value
    runValidationModules request modules

/-- Account a session key's spend after the invocation, on the key as stored then. -/
def writeBackSpend (request : ExecuteRequest) : AccountM Unit :=
  match request.caller with
  | .sessionKey sessionPk => do
    let storage ← getStorage
    match storage.sessionKey sessionPk with
    | none => pure ()
    | some session => do
      let env ← getEnv
      let session ← liftResult (applySpendUsage env.timestamp session request.args)
      if session.cumulativeLimit.isSome then
        modifyStorage fun storage => storage.setSessionKey sessionPk session
      else pure ()
  | _ => pure ()

/-- Execute a transaction with nonce replay-protection and three auth paths. -/
def execute (request : ExecuteRequest) : AccountM Val := do
  let storage ← getStorage
  let currentNonce := storage.getNonce
  failIf (!nonceMatches request.expectedNonce currentNonce) .invalidNonce
  authorizeCaller request
  -- the nonce moves before anything is invoked
  let nextNonce ← okOr (checkedAdd currentNonce 1) .arithmeticOverflow
  modifyStorage fun storage => { storage with nonce := some nextNonce }
  bumpInstance
  publish (.executed request.target request.function currentNonce)
  let storage ← getStorage
  runValidationModules request storage.getModules
  let result ← invokeContract request.target request.function request.args
  writeBackSpend request
  return result

/-! ## Session keys -/

/-- Seconds stay as they are; from `minMillisecondsTimestamp` on the input is milliseconds. -/
def normalizeExpiryTimestamp (expiresAt : UInt64) : Except ContractError UInt64 :=
  if expiresAt = 0 then .error .invalidExpiration
  else if expiresAt ≥ minMillisecondsTimestamp then .ok (expiresAt / 1000)
  else .ok expiresAt

def ledgersToLive (expiresAtSecs now : UInt64) : UInt32 :=
  if expiresAtSecs > now then
    let diffSeconds := saturatingSub expiresAtSecs now
    let calculatedLedgers :=
      if diffSeconds / 4 < 2 ^ 32 then (diffSeconds / 4).toUInt32 else 2 ^ 32 - 1
    saturatingAdd calculatedLedgers dayInLedgers
  else dayInLedgers

/-- Helper to cleanly extend session key TTL -/
def extendSessionKeyTtl (publicKey : PublicKey) (expiresAt : UInt64) : AccountM Unit := do
  let env ← getEnv
  let ledgers := ledgersToLive expiresAt env.timestamp
  extendPersistentTtl publicKey (saturatingSub ledgers (dayInLedgers / 2)) ledgers

/-- The loop of `reject_zero_allowed_contracts`. -/
def rejectZeroAddresses : List Address → Except ContractError Unit
  | [] => .ok ()
  | address :: addresses =>
    let strkey := address.toStrkey
    if strkey.length = 0 ∨ strkey.length > 56 then .error .insufficientPermission
    else
      match validateAllowedContractAddress strkey with
      | .error error => .error error
      | .ok () => rejectZeroAddresses addresses

/-- Reject empty or all-zero addresses in a session-key allowlist. -/
def rejectZeroAllowedContracts (allowedContracts : Option (List Address)) :
    Except ContractError Unit :=
  match allowedContracts with
  | none => .ok ()
  | some list =>
    if list.length > maxAllowedContracts then .error .insufficientPermission
    else rejectZeroAddresses list

/-- Size of the buffer the permissions are copied to. -/
def permissionBufferLength : Nat := 8

def addSessionKey (request : SessionKeyRequest) : AccountM Unit := do
  failIf (request.expiresAt == 0) .invalidExpiration
  liftResult (validateSpendPolicy request.maxAmountPerCall request.cumulativeLimit
    request.spendWindowSeconds)
  requireOwnerAuth
  -- the copy into the fixed buffer fails on the ninth permission
  failIf (request.permissions.length > permissionBufferLength) .insufficientPermission
  liftResult (validatePermissions request.permissions)
  liftResult (rejectZeroAllowedContracts request.allowedContracts)
  let storage ← getStorage
  failIf (storage.sessionKey request.publicKey).isSome .sessionKeyAlreadyExists
  let expiresAtSecs ← liftResult (normalizeExpiryTimestamp request.expiresAt)
  let env ← getEnv
  liftResult (validateExpiry expiresAtSecs env.timestamp)
  modifyStorage fun storage => storage.setSessionKey request.publicKey {
    publicKey := request.publicKey
    expiresAt := expiresAtSecs
    permissions := request.permissions
    allowedContracts := request.allowedContracts
    maxAmountPerCall := request.maxAmountPerCall
    cumulativeLimit := request.cumulativeLimit
    spendWindowStart := env.timestamp
    spendWindowSeconds := request.spendWindowSeconds
    spentInWindow := 0 }
  extendSessionKeyTtl request.publicKey expiresAtSecs
  bumpInstance
  publish (.sessionKeyAdded request.publicKey expiresAtSecs)

def revokeSessionKey (publicKey : PublicKey) : AccountM Unit := do
  requireOwnerAuth
  let storage ← getStorage
  failIf (storage.sessionKey publicKey).isNone .sessionKeyNotFound
  modifyStorage fun storage => storage.removeSessionKey publicKey
  bumpInstance
  publish (.sessionKeyRevoked publicKey)

/-- Update the contract allowlist for an existing session key (owner only). -/
def setAllowedContracts (publicKey : PublicKey) (allowedContracts : Option (List Address)) :
    AccountM Unit := do
  requireOwnerAuth
  let storage ← getStorage
  let session ← okOr (storage.sessionKey publicKey) .sessionKeyNotFound
  liftResult (rejectZeroAllowedContracts allowedContracts)
  modifyStorage fun storage =>
    storage.setSessionKey publicKey { session with allowedContracts := allowedContracts }
  bumpInstance
  publish (.allowedContractsSet publicKey allowedContracts)

/-- Refresh the TTL of a session key -/
def refreshSessionKeyTtl (publicKey : PublicKey) : AccountM Unit := do
  requireOwnerAuth
  let storage ← getStorage
  let session ← okOr (storage.sessionKey publicKey) .sessionKeyNotFound
  let env ← getEnv
  failIf (session.expiresAt ≤ env.timestamp) .sessionKeyExpirationInPast
  let normalizedExpiry ← liftResult (normalizeExpiryTimestamp session.expiresAt)
  modifyStorage fun storage =>
    -- written only where it differs
    if normalizedExpiry ≠ session.expiresAt then
      storage.setSessionKey publicKey { session with expiresAt := normalizedExpiry }
    else storage
  extendSessionKeyTtl publicKey normalizedExpiry
  bumpInstance
  publish (.sessionKeyTtlRefreshed publicKey normalizedExpiry)
  publish (.sessionKeyRefreshed publicKey normalizedExpiry)

/-! ## Validation modules -/

/-- Register a validation module (owner only). -/
def registerModule (module : Address) : AccountM Unit := do
  requireOwnerAuth
  let storage ← getStorage
  let modules := storage.getModules
  let modules := if modules.contains module then modules else modules ++ [module]
  modifyStorage fun storage => { storage with validationModules := some modules }
  bumpInstance
  publish (.moduleRegistered module)

/-- Unregister a validation module (owner only). -/
def unregisterModule (module : Address) : AccountM Unit := do
  requireOwnerAuth
  let storage ← getStorage
  let updated := storage.getModules.filter (· != module)
  modifyStorage fun storage => { storage with validationModules := some updated }
  bumpInstance
  publish (.moduleUnregistered module)

/-! ## Multi-owner threshold authorization -/

/-- The uniqueness loop of `initialize_multi_owner`. -/
def checkOwnersUnique : List Address → List Address → Except ContractError Unit
  | _, [] => .ok ()
  | seen, owner :: owners =>
    if seen.contains owner then .error .invalidThreshold
    else checkOwnersUnique (seen ++ [owner]) owners

/-- Initialize multi-owner mode with a list of owners and threshold. -/
def initializeMultiOwner (owners : List Address) (threshold : UInt32) : AccountM Unit := do
  let storage ← getStorage
  failIf storage.owners.isSome .alreadyInitialized
  requireOwnerAuth
  failIf owners.isEmpty .invalidThreshold
  failIf (threshold == 0 || threshold.toNat > owners.length) .invalidThreshold
  liftResult (checkOwnersUnique [] owners)
  modifyStorage fun storage => { storage with owners := some owners, threshold := some threshold }
  bumpInstance

/-- Add an owner (requires quorum of existing owners). -/
def addOwner (signers : List Address) (newOwner : Address) : AccountM Unit := do
  let owners ← requireStoredQuorum signers
  failIf (owners.contains newOwner) .invalidThreshold
  modifyStorage fun storage => { storage with owners := some (owners ++ [newOwner]) }
  bumpInstance
  publish (.ownerAdded newOwner)

/-- Remove an owner (requires quorum of existing owners). -/
def removeOwner (signers : List Address) (ownerToRemove : Address) : AccountM Unit := do
  let owners ← requireStoredQuorum signers
  failIf (!owners.contains ownerToRemove) .invalidThreshold
  failIf (owners.length ≤ 1) .invalidThreshold
  let updated := owners.filter (· != ownerToRemove)
  modifyStorage fun storage => { storage with owners := some updated }
  -- auto-adjust the threshold if it exceeds the new owner count
  modifyStorage fun storage =>
    match storage.threshold with
    | none => storage
    | some threshold =>
      if threshold.toNat > updated.length then
        { storage with threshold := some (UInt32.ofNat updated.length) }
      else storage
  bumpInstance
  publish (.ownerRemoved ownerToRemove)

/-- Set the threshold (requires quorum of existing owners). -/
def setThreshold (signers : List Address) (newThreshold : UInt32) : AccountM Unit := do
  let owners ← requireStoredQuorum signers
  failIf (newThreshold == 0 || newThreshold.toNat > owners.length) .invalidThreshold
  modifyStorage fun storage => { storage with threshold := some newThreshold }
  bumpInstance
  publish (.thresholdChanged newThreshold)

/-! ## Upgrades -/

/-- Upgrade the contract's WASM logic -/
def upgrade (newWasmHash : BytesN 32) : AccountM Unit := do
  requireOwnerAuth
  failIf (newWasmHash == zeroBytes) .invalidWasmHash
  let storage ← getStorage
  let nextVersion ← okOr (checkedAdd storage.getVersion 1) .arithmeticOverflow
  modifyStorage fun storage => { storage with version := some nextVersion }
  updateCurrentContractWasm newWasmHash
  bumpInstance
  publish (.upgraded newWasmHash)

/-- Execute a contract migration for a new version -/
def migrate (newVersion : UInt32) : AccountM Unit := do
  requireOwnerAuth
  let storage ← getStorage
  let currentVersion := storage.getVersion
  failIf (newVersion ≤ currentVersion) .invalidVersion
  modifyStorage fun storage => { storage with version := some newVersion }
  bumpInstance
  publish (.migrated currentVersion newVersion)

/-! ## The contract as a state machine -/

/-- The entry point a call goes to. -/
def dispatch : Call → AccountM Val
  | .initializeAccount owner => returnVoid (initializeAccount owner)
  | .execute request => execute request
  | .addSessionKey request => returnVoid (addSessionKey request)
  | .revokeSessionKey publicKey => returnVoid (revokeSessionKey publicKey)
  | .setAllowedContracts publicKey allowed => returnVoid (setAllowedContracts publicKey allowed)
  | .registerModule module => returnVoid (registerModule module)
  | .unregisterModule module => returnVoid (unregisterModule module)
  | .initializeMultiOwner owners threshold => returnVoid (initializeMultiOwner owners threshold)
  | .addOwner signers newOwner => returnVoid (addOwner signers newOwner)
  | .removeOwner signers ownerToRemove => returnVoid (removeOwner signers ownerToRemove)
  | .setThreshold signers newThreshold => returnVoid (setThreshold signers newThreshold)
  | .upgrade newWasmHash => returnVoid (upgrade newWasmHash)
  | .migrate newVersion => returnVoid (migrate newVersion)
  | .refreshSessionKeyTtl publicKey => returnVoid (refreshSessionKeyTtl publicKey)

/-- One call to the account, in the environment the host gives it. -/
def step (input : Env × Call) (storage : Storage) :
    Option ((Val × List AccountEffect) × Storage) :=
  (dispatch input.2).invoke input.1 storage

end Ancore.Account
