import Ancore.Library.Outline
import Ancore.Relay.NonceStores
import Ancore.Relay.Payload

/-! # The relay service

`executeRelay` as a program over its calls: those to the nonce store, to the chain
and to the transaction submitter.  Requests run side by side over one store. -/

namespace Ancore.Relay

open Ancore.Library

structure SimulatedTransaction where
  assembledXdr : String
  gasUsed : Nat
  deriving DecidableEq, Repr

/-- The calls.  The submitter is told a transaction only; the session key and the nonce say which
request it is submitted for. -/
inductive RelayCall where
  | assertFresh (sessionKey : String) (nonce : Nonce)
  | getSessionKey (accountAddress : Option JsonValue) (sessionKey : String)
  | track (sessionKey : String) (nonce : Nonce)
  | mockTxId (replayKey : String × Nonce)
  | simulateAndAssembleTransaction (signedXdr : String)
  | submitSignedTransaction (replayKey : String × Nonce) (assembledXdr : String)

/-- `getSessionKey` answers whether the key was found. -/
@[reducible] def RelayAnswer : RelayCall → Type
  | .assertFresh _ _ => Except Thrown Unit
  | .getSessionKey _ _ => Except Thrown Bool
  | .track _ _ => Except Thrown Unit
  | .mockTxId _ => String
  | .simulateAndAssembleTransaction _ => Except Thrown SimulatedTransaction
  | .submitSignedTransaction _ _ => Except Thrown String

/-- `async` code: what it awaits may throw. -/
abbrev Async (α : Type) : Type := ExceptT Thrown (Program RelayAnswer) α

def awaited (request : RelayCall) : Program RelayAnswer (RelayAnswer request) :=
  .call request .done

/-! ## The service -/

/-- What the service is set up with.  `verify` is the signature service. -/
structure RelayService where
  useMockSubmission : Bool
  hasTransactionSubmitter : Bool
  hasNonceStore : Bool
  verify : (publicKey payload signature : String) → Bool
  numberText : Float → String

def signedTxParameter : String := "signedTransactionXdr"

def extractSignedTransactionXdr (request : RelayExecuteRequest) : Option String :=
  match (request.parameters signedTxParameter).bind JsonValue.text? with
  | none => none
  | some value => if EcmaScript.trim value = "" then none else some (EcmaScript.trim value)

def isHexadecimal (letter : Char) : Bool :=
  ('0' ≤ letter && letter ≤ '9') || ('a' ≤ letter && letter ≤ 'f') ||
    ('A' ≤ letter && letter ≤ 'F')

/-- `/^[0-9a-fA-F]\x7b64\x7d$/` -/
def validateSessionKey (key : String) : Option String :=
  if key.toList.length = 64 ∧ key.toList.all isHexadecimal then none
  else some "sessionKey must be a 64-char hex-encoded Ed25519 public key"

def refusal (code : RelayErrorCode) (message : String) : ValidationResult :=
  ⟨false, some ⟨code, message⟩, false⟩

def confirmationRequired : RelayError :=
  ⟨.policyDenied, "This transfer requires additional confirmation."⟩

namespace RelayService

variable (service : RelayService) (request : RelayExecuteRequest) (options : RelayExecutionOptions)

/-- The checks that follow the lookup of the session key: its signature and the policy. -/
def validateSigned : ValidationResult :=
  let payload := canonicalPayload request (options.signedNonce.getD request.nonce)
  if !service.verify request.sessionKey payload request.signature then
    refusal .invalidSignature "Signature verification failed"
  else
    match request.transferPolicy with
    | none => ⟨true, none, false⟩
    | some transferPolicy =>
      let policyCheck := validateTransferPolicyConstraints service.numberText transferPolicy
      if !policyCheck.valid || policyCheck.requiresStepUp then
        ⟨false, some (policyCheck.error.getD confirmationRequired), policyCheck.requiresStepUp⟩
      else ⟨true, none, false⟩

/-- What follows the lookup of the session key. -/
def validateLookup : Except Thrown Bool → ValidationResult
  | .error thrown =>
    let message := thrown.errorMessage.getD "Unable to verify session key on chain"
    refusal .invalidSignature ("Session key verification unavailable: " ++ message)
  | .ok false => refusal .invalidSignature "Session key not found on chain"
  | .ok true => service.validateSigned request options

/-- The session key is looked up on the account the request names. -/
def validateOnChain : Program RelayAnswer ValidationResult := do
  let onChainKey ←
    awaited (.getSessionKey (request.parameters "accountAddress") request.sessionKey)
  pure (service.validateLookup request options onChainKey)

/-- What follows the check of the nonce. -/
def validateFresh : Except Thrown Unit → Program RelayAnswer ValidationResult
  | .error thrown => pure (refusal .nonceReplay (thrown.errorMessage.getD "Nonce already used"))
  | .ok () => service.validateOnChain request options

def validateRelay : Program RelayAnswer ValidationResult :=
  match validateSessionKey request.sessionKey with
  | some keyError => pure (refusal .invalidSignature keyError)
  | none =>
    if request.nonce < 0 then pure (refusal .nonceReplay "Nonce must be non-negative")
    else if service.hasNonceStore then do
      let fresh ← awaited (.assertFresh request.sessionKey request.nonce)
      service.validateFresh request options fresh
    else service.validateOnChain request options

/-- The calls to the submitter, either of which may throw. -/
def submitTransaction (signedXdr : String) : Async RelayExecuteResponse := do
  let simulated ← ExceptT.mk (awaited (.simulateAndAssembleTransaction signedXdr))
  let transactionHash ←
    ExceptT.mk (awaited (.submitSignedTransaction request.replayKey simulated.assembledXdr))
  pure ⟨true, some transactionHash, none, simulated.gasUsed⟩

/-- What `executeRelay` does once the nonce is recorded. -/
def submit : Async RelayExecuteResponse :=
  if service.useMockSubmission then do
    let transactionId ← ExceptT.lift (awaited (.mockTxId request.replayKey))
    pure ⟨true, some transactionId, none, 0⟩
  else if !service.hasTransactionSubmitter then
    pure ⟨false, none, some ⟨.internalError, "Transaction submitter is not configured"⟩, 0⟩
  else
    match extractSignedTransactionXdr request with
    | none =>
      pure ⟨false, none,
        some ⟨.internalError, "Missing required parameter: " ++ signedTxParameter⟩, 0⟩
    | some signedXdr => do
      match ← ExceptT.lift (submitTransaction request signedXdr).run with
      | .ok response => pure response
      | .error error =>
        pure ⟨false, none, some ((mapSimulationError error).getD (mapSubmissionError error)), 0⟩

def executeRelay : Async RelayExecuteResponse := do
  let validation ← ExceptT.lift (service.validateRelay request options)
  if !validation.valid || validation.requiresStepUp then
    pure ⟨false, none, some (validation.error.getD confirmationRequired), 0⟩
  else do
    if service.hasNonceStore then
      ExceptT.mk (awaited (.track request.sessionKey request.nonce))
    service.submit request

end RelayService

/-! ## Carrying out the calls -/

/-- A query that fails, before or after it was carried out. -/
inductive Fault where
  | before (thrown : Thrown)
  | after (thrown : Thrown)

/-- What the store does not decide of a call. -/
structure Circumstance where
  dateNow : Millis
  /-- The failure of a query to the database. -/
  fault : Option Fault
  onChainKey : Except Thrown Bool
  mockTxId : String
  simulation : Except Thrown SimulatedTransaction
  submission : Except Thrown String

/-- A query to a store; one in memory does not fail. -/
def queried {α : Type} (fault : Option Fault) (store : NonceStore)
    (carriedOut : Except Thrown α × NonceStore) : Except Thrown α × NonceStore :=
  match store, fault with
  | .memory _, _ => carriedOut
  | .postgres _, none => carriedOut
  | .postgres _, some (.before thrown) => (.error thrown, store)
  | .postgres _, some (.after thrown) => (.error thrown, carriedOut.2)

def perform {Worker : Type} (_worker : Worker) (request : RelayCall) (circumstance : Circumstance)
    (store : NonceStore) : RelayAnswer request × NonceStore :=
  match request with
  | .assertFresh sessionKey nonce => queried circumstance.fault store
      (store.assertFresh sessionKey nonce circumstance.dateNow)
  | .getSessionKey _ _ => (circumstance.onChainKey, store)
  | .track sessionKey nonce => queried circumstance.fault store
      (.ok (), store.track sessionKey nonce circumstance.dateNow)
  | .mockTxId _ => (circumstance.mockTxId, store)
  | .simulateAndAssembleTransaction _ => (circumstance.simulation, store)
  | .submitSignedTransaction _ _ => (circumstance.submission, store)

/-- A request and the options it is executed with. -/
structure RelayTask where
  request : RelayExecuteRequest
  options : RelayExecutionOptions

/-- The answer to the caller plays no further part. -/
def RelayService.execute (service : RelayService) (task : RelayTask) :
    Program RelayAnswer Unit := do
  let _ ← (service.executeRelay task.request task.options).run
  pure ()

abbrev RelayExchange (Worker : Type) : Type := Exchange Worker Circumstance NonceStore RelayAnswer

abbrev RelayWorld (Worker : Type) : Type := World Worker Circumstance NonceStore RelayAnswer

/-- Requests executed side by side over one store, turn by turn. -/
def relayRun {Worker : Type} [DecidableEq Worker] (service : RelayService) (store : NonceStore)
    (turns : List (Turn Worker RelayTask Circumstance)) :
    System Worker Circumstance NonceStore RelayAnswer :=
  interleaved perform service.execute store turns

end Ancore.Relay
