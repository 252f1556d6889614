import Ancore.Soroban.Host

/-! # The upgrade governor

`UpgradeGovernor` proposes WASM upgrades of one target account, holds them back
for a timelock and then executes them, on two entry points: `execute_upgrade`,
and `execute_multisig_upgrade`, which counts the approvals of configured signers.
-/

namespace Ancore.Upgrade

open Ancore.Library Ancore.Library.FixedWidth Ancore.Soroban

/-! ## Data model -/

inductive UpgradeError where
  | alreadyInitialized
  | notInitialized
  | unauthorized
  | invalidWasmHash
  | proposalNotFound
  | invalidProposalId
  | proposalAlreadyExecuted
  | proposalAlreadyCancelled
  | timelockNotElapsed
  | arithmeticOverflow
  | wasmTooSmall
  | wasmTooLarge
  | missingRequiredExport
  | forbiddenImportDetected
  | invalidThreshold
  | invalidSigner
  | insufficientSignatures
  | duplicateSignature
deriving DecidableEq

structure Proposal where
  id : UInt32
  wasmHash : BytesN 32
  proposedAt : UInt64
  executeAfter : UInt64
  executed : Bool
  cancelled : Bool
deriving DecidableEq

/-- Multisig governance policy: the number of signer approvals required and the addresses eligible
to sign. -/
structure MultisigConfig where
  threshold : UInt32
  signers : List Address
deriving DecidableEq

/-- Policy rules checked against the proposer's WASM metadata attestation; 0 and the empty list
disable a rule. -/
structure ContractValidation where
  minWasmSize : UInt32
  maxWasmSize : UInt32
  requiredExports : List Bytes
  forbiddenImports : List Bytes

/-- Caller-supplied attestation about the proposed WASM blob. -/
structure WasmAttestation where
  wasmSize : UInt32
  exports : List Bytes
  imports : List Bytes

/-- Instance storage, and the persistent entries `SignatureRecord(id, signer)` as the pairs that
are present. -/
structure Storage where
  owner : Option Address
  timelockDelay : Option UInt64
  nextProposalId : Option UInt32
  targetAccount : Option Address
  proposal : UInt32 → Option Proposal
  contractValidation : Option ContractValidation
  multisigConfig : Option MultisigConfig
  signatureRecord : UInt32 → Address → Bool

def Storage.empty : Storage where
  owner := none
  timelockDelay := none
  nextProposalId := none
  targetAccount := none
  proposal _ := none
  contractValidation := none
  multisigConfig := none
  signatureRecord _ _ := false

def Storage.setProposal (storage : Storage) (id : UInt32) (proposal : Proposal) : Storage :=
  { storage with proposal := Function.update storage.proposal id (some proposal) }

def Storage.recordSignature (storage : Storage) (id : UInt32) (signer : Address) : Storage :=
  { storage with
    signatureRecord := Function.update storage.signatureRecord id
      (Function.update (storage.signatureRecord id) signer true) }

inductive Event where
  | timelockUpdated (delaySeconds : UInt64)
  | proposed (id : UInt32) (wasmHash : BytesN 32) (executeAfter : UInt64)
  | executed (id : UInt32) (wasmHash : BytesN 32)
  | cancelled (id : UInt32)
  | multisigUpdated (threshold : UInt32)
  | signatureSubmitted (id : UInt32) (signer : Address)

/-- The entry points that can change the governor. -/
inductive Call where
  | initializeGovernor (owner targetAccount : Address) (timelockDelaySeconds : UInt64)
  | proposeUpgrade (newWasmHash : BytesN 32) (attestation : WasmAttestation)
  | executeUpgrade (proposalId : UInt32)
  | cancelUpgrade (proposalId : UInt32)
  | setTimelockDelay (newDelaySeconds : UInt64)
  | updateMultisigConfig (threshold : UInt32) (signers : List Address)
  | submitMultisigSignature (caller : Address) (proposalId : UInt32)
  | executeMultisigUpgrade (proposalId : UInt32)
  | setContractValidation (validation : ContractValidation)

/-- The governor's persistent keys. -/
abbrev SignatureKey := UInt32 × Address

abbrev GovernorM := Contract UpgradeError Storage SignatureKey Event

abbrev GovernorEffect := Effect SignatureKey Event

/-- Maximum number of multisig signers. -/
def maxSigners : Nat := 50

def instanceBumpAmount : UInt32 := 30 * 17280
def instanceBumpThreshold : UInt32 := 15 * 17280

def bumpInstance : GovernorM Unit := extendInstanceTtl instanceBumpThreshold instanceBumpAmount

/-! ## WASM metadata -/

/-- Validate a proposed WASM hash and metadata attestation against policy. -/
def validateWasmMetadata (wasmHash : BytesN 32) (validation : ContractValidation)
    (attestation : WasmAttestation) : Except UpgradeError Unit :=
  if wasmHash = zeroBytes then .error .invalidWasmHash
  else if validation.minWasmSize > 0 ∧ attestation.wasmSize < validation.minWasmSize then
    .error .wasmTooSmall
  else if validation.maxWasmSize > 0 ∧ attestation.wasmSize > validation.maxWasmSize then
    .error .wasmTooLarge
  else if validation.requiredExports.any fun name => !attestation.exports.contains name then
    .error .missingRequiredExport
  else if validation.forbiddenImports.any fun name => attestation.imports.contains name then
    .error .forbiddenImportDetected
  else .ok ()

def permissiveValidation : ContractValidation where
  minWasmSize := 0
  maxWasmSize := 0
  requiredExports := []
  forbiddenImports := []

/-! ## Entry points -/

def Storage.getTimelockDelay (storage : Storage) : UInt64 := storage.timelockDelay.getD 0

def Storage.getContractValidation (storage : Storage) : ContractValidation :=
  storage.contractValidation.getD permissiveValidation

/-- `Self::require_owner(env)?.require_auth()` -/
def requireOwnerAuth : GovernorM Unit := do
  let storage ← getStorage
  let owner ← okOr storage.owner .notInitialized
  requireAuth owner

/-- Initialize the governor with an owner, target account, and timelock delay. -/
def initializeGovernor (owner targetAccount : Address) (timelockDelaySeconds : UInt64) :
    GovernorM Unit := do
  let storage ← getStorage
  failIf storage.owner.isSome .alreadyInitialized
  requireAuth owner
  modifyStorage fun storage => { storage with
    owner := some owner
    targetAccount := some targetAccount
    timelockDelay := some timelockDelaySeconds
    nextProposalId := some 1 }
  bumpInstance
  publish (.timelockUpdated timelockDelaySeconds)

/-- Propose a new WASM upgrade for the target account; returns the proposal id. -/
def proposeUpgrade (newWasmHash : BytesN 32) (attestation : WasmAttestation) :
    GovernorM UInt32 := do
  requireOwnerAuth
  let storage ← getStorage
  liftResult (validateWasmMetadata newWasmHash storage.getContractValidation attestation)
  let timelockDelay := storage.getTimelockDelay
  -- the id is taken first and advanced after the proposal is stored
  let proposalId := storage.nextProposalId.getD 1
  let env ← getEnv
  let executeAfter ← okOr (checkedAdd env.timestamp timelockDelay) .arithmeticOverflow
  modifyStorage fun storage => storage.setProposal proposalId {
    id := proposalId
    wasmHash := newWasmHash
    proposedAt := env.timestamp
    executeAfter := executeAfter
    executed := false
    cancelled := false }
  let nextId ← okOr (checkedAdd proposalId 1) .arithmeticOverflow
  modifyStorage fun storage => { storage with nextProposalId := some nextId }
  bumpInstance
  publish (.proposed proposalId newWasmHash executeAfter)
  return proposalId

/-- The stored proposal, while it is neither executed nor cancelled. -/
def getPendingProposal (proposalId : UInt32) : GovernorM Proposal := do
  let storage ← getStorage
  let proposal ← okOr (storage.proposal proposalId) .proposalNotFound
  failIf proposal.executed .proposalAlreadyExecuted
  failIf proposal.cancelled .proposalAlreadyCancelled
  return proposal

/-- The pending proposal once its timelock has elapsed. -/
def getExecutableProposal (proposalId : UInt32) : GovernorM Proposal := do
  let proposal ← getPendingProposal proposalId
  let env ← getEnv
  failIf (env.timestamp < proposal.executeAfter) .timelockNotElapsed
  return proposal

def upgradeSymbol : Symbol := ⟨"upgrade".toList, by decide, by simp [isSymbolChar]⟩

/-- The common end of the two execution paths: call `upgrade(wasm_hash)` on the target, then mark
the proposal as executed. -/
def invokeUpgrade (proposalId : UInt32) (proposal : Proposal) : GovernorM Unit := do
  let storage ← getStorage
  let targetAccount ← okOr storage.targetAccount .notInitialized
  -- the proposal is marked only after the call, which the host keeps from coming back
  let _ ← invokeContract targetAccount upgradeSymbol [.bytes proposal.wasmHash.val]
  modifyStorage fun storage => storage.setProposal proposalId { proposal with executed := true }
  bumpInstance
  publish (.executed proposalId proposal.wasmHash)

/-- Execute a pending upgrade after the timelock has elapsed. -/
def executeUpgrade (proposalId : UInt32) : GovernorM Unit := do
  let proposal ← getExecutableProposal proposalId
  invokeUpgrade proposalId proposal

/-- Cancel a pending upgrade before it executes. -/
def cancelUpgrade (proposalId : UInt32) : GovernorM Unit := do
  requireOwnerAuth
  let proposal ← getPendingProposal proposalId
  modifyStorage fun storage => storage.setProposal proposalId { proposal with cancelled := true }
  bumpInstance
  publish (.cancelled proposalId)

/-- Update the timelock delay (applies to new proposals). -/
def setTimelockDelay (newDelaySeconds : UInt64) : GovernorM Unit := do
  requireOwnerAuth
  modifyStorage fun storage => { storage with timelockDelay := some newDelaySeconds }
  bumpInstance
  publish (.timelockUpdated newDelaySeconds)

/-- Configure the multisig governance policy (owner-only). -/
def updateMultisigConfig (threshold : UInt32) (signers : List Address) : GovernorM Unit := do
  requireOwnerAuth
  failIf (threshold == 0) .invalidThreshold
  -- duplicate signers pass
  failIf (signers.length > maxSigners || threshold.toNat > signers.length) .invalidSigner
  modifyStorage fun storage => { storage with
    multisigConfig := some { threshold := threshold, signers := signers } }
  bumpInstance
  publish (.multisigUpdated threshold)

/-- Record the caller's approval for a pending upgrade proposal. -/
def submitMultisigSignature (caller : Address) (proposalId : UInt32) : GovernorM Unit := do
  requireAuth caller
  let storage ← getStorage
  let config ← okOr storage.multisigConfig .notInitialized
  failIf (!config.signers.contains caller) .invalidSigner
  let _ ← getPendingProposal proposalId
  failIf (storage.signatureRecord proposalId caller) .duplicateSignature
  modifyStorage fun storage => storage.recordSignature proposalId caller
  bumpInstance
  publish (.signatureSubmitted proposalId caller)

/-- The count loop of `execute_multisig_upgrade`: signers with a recorded approval. -/
def countSignatures (storage : Storage) (proposalId : UInt32) : List Address → Nat
  | [] => 0
  | signer :: signers =>
    if storage.signatureRecord proposalId signer then
      countSignatures storage proposalId signers + 1
    else countSignatures storage proposalId signers

/-- Execute a timelocked upgrade once the configured threshold of signers have approved it. -/
def executeMultisigUpgrade (proposalId : UInt32) : GovernorM Unit := do
  let proposal ← getExecutableProposal proposalId
  let storage ← getStorage
  let config ← okOr storage.multisigConfig .notInitialized
  failIf (countSignatures storage proposalId config.signers < config.threshold.toNat)
    .insufficientSignatures
  invokeUpgrade proposalId proposal

/-- Replace the WASM validation policy (owner-only). -/
def setContractValidation (validation : ContractValidation) : GovernorM Unit := do
  requireOwnerAuth
  modifyStorage fun storage => { storage with contractValidation := some validation }
  bumpInstance

/-! ## The governor as a state machine -/

/-- The entry point a call goes to. -/
def dispatch : Call → GovernorM Val
  | .initializeGovernor owner targetAccount delay =>
    returnVoid (initializeGovernor owner targetAccount delay)
  | .proposeUpgrade newWasmHash attestation => do
    let proposalId ← proposeUpgrade newWasmHash attestation
    return .u32 proposalId
  | .executeUpgrade proposalId => returnVoid (executeUpgrade proposalId)
  | .cancelUpgrade proposalId => returnVoid (cancelUpgrade proposalId)
  | .setTimelockDelay newDelay => returnVoid (setTimelockDelay newDelay)
  | .updateMultisigConfig threshold signers => returnVoid (updateMultisigConfig threshold signers)
  | .submitMultisigSignature caller proposalId =>
    returnVoid (submitMultisigSignature caller proposalId)
  | .executeMultisigUpgrade proposalId => returnVoid (executeMultisigUpgrade proposalId)
  | .setContractValidation validation => returnVoid (setContractValidation validation)

/-- One call to the governor, in the environment the host gives it. -/
def step (input : Env × Call) (storage : Storage) :
    Option ((Val × List GovernorEffect) × Storage) :=
  (dispatch input.2).invoke input.1 storage

end Ancore.Upgrade
