import Ancore.Library.EcmaScript

/-! # Relay requests and their answers

The request of `POST /relay/execute`, the policy a transfer is held to and the
errors a relay answers with. -/

namespace Ancore.Relay

open Ancore.Library

inductive OperationType where
  | relayExecute
  | addSessionKey
  | revokeSessionKey
  deriving DecidableEq, Repr

def OperationType.text : OperationType → String
  | relayExecute => "relay_execute"
  | addSessionKey => "add_session_key"
  | revokeSessionKey => "revoke_session_key"

/-- A parsed value of JSON. -/
inductive JsonValue where
  | null
  | boolean (value : Bool)
  | number (value : Float)
  | string (value : String)
  | array (items : List JsonValue)
  | object (entries : List (String × JsonValue))

/-- A value where it is a string. -/
def JsonValue.text? : JsonValue → Option String
  | string value => some value
  | _ => none

/-- A record of parameters; a key may be missing. -/
abbrev Parameters : Type := String → Option JsonValue

/-- A number that is a safe integer. -/
abbrev Nonce : Type := Int

structure TransferPolicy where
  dailyLimit : Float
  stepUpThreshold : Float

structure RequestTransferPolicy where
  policy : TransferPolicy
  amount : Float
  todayTotal : Float
  assetCode : Option String
  stepUpConfirmed : Option Bool

structure RelayExecuteRequest where
  sessionKey : String
  operation : OperationType
  parameters : Parameters
  signature : String
  nonce : Nonce
  transferPolicy : Option RequestTransferPolicy

structure RelayExecutionOptions where
  signedNonce : Option Nonce

/-- The session key and the nonce that protect a request against replay. -/
def RelayExecuteRequest.replayKey (request : RelayExecuteRequest) : String × Nonce :=
  (request.sessionKey, request.nonce)

/-! ## Errors -/

inductive RelayErrorCode where
  | invalidSignature
  | nonceReplay
  | gasLimitExceeded
  | simulationFailed
  | policyDenied
  | rpcDown
  | internalError
  deriving DecidableEq, Repr

structure RelayError where
  code : RelayErrorCode
  message : String
  deriving DecidableEq, Repr

structure RelayExecuteResponse where
  success : Bool
  transactionId : Option String
  error : Option RelayError
  gasUsed : Nat
  deriving DecidableEq, Repr

structure ValidationResult where
  valid : Bool
  error : Option RelayError
  requiresStepUp : Bool
  deriving DecidableEq, Repr

/-- What may be thrown. -/
inductive Thrown where
  | simulationFailedError (message : String)
  | transactionError (message : String) (resultCode : Option String)
  | networkError (message : String)
  /-- Another instance of `Error`. -/
  | error (message : String)
  | text (value : String)
  /-- An object that is no `Error` and has a message. -/
  | messaged (message : String)
  | other
  deriving DecidableEq, Repr

namespace Thrown

/-- `error.message`, of an instance of `Error`. -/
def errorMessage : Thrown → Option String
  | simulationFailedError message => some message
  | transactionError message _ => some message
  | networkError message => some message
  | error message => some message
  | _ => none

def extractMessage : Thrown → Option String
  | text value => some value
  | messaged message => some message
  | thrown => thrown.errorMessage

end Thrown

def mapSimulationError (error : Thrown) : Option RelayError :=
  match error.extractMessage with
  | none => none
  | some message =>
    let haystack := EcmaScript.toLowerCase message
    if message = "" then none
    else if EcmaScript.includes haystack "resource" ||
        EcmaScript.includes haystack "budget exceeded" ||
        EcmaScript.includes haystack "out of gas" then some ⟨.gasLimitExceeded, message⟩
    else if EcmaScript.includes haystack "simulation" ||
        EcmaScript.includes haystack "simulate" ||
        EcmaScript.includes haystack "host_function_failed" ||
        EcmaScript.includes haystack "invokehostfunction" ||
        EcmaScript.includes haystack "insufficient balance" then some ⟨.simulationFailed, message⟩
    else none

def mapSubmissionError (error : Thrown) : RelayError :=
  match error with
  | .simulationFailedError message => ⟨.simulationFailed, message⟩
  | .transactionError message resultCode =>
    let code := EcmaScript.toLowerCase (resultCode.getD "")
    if EcmaScript.includes code "fee" || EcmaScript.includes code "resource" ||
        EcmaScript.includes code "insufficient" || code = "tx_insufficient_fee" then
      ⟨.gasLimitExceeded, message⟩
    else if EcmaScript.includes code "failed" || EcmaScript.includes code "bad" ||
        EcmaScript.includes code "malformed" || EcmaScript.includes code "invalid" then
      ⟨.simulationFailed, message⟩
    else ⟨.internalError, message⟩
  | .networkError message => ⟨.rpcDown, message⟩
  | error => ⟨.internalError, error.errorMessage.getD "Transaction submission failed"⟩

/-! ## Transfer policies -/

inductive TransferPolicyAction where
  | allow
  | stepUp
  | block
  deriving DecidableEq, Repr

structure TransferPolicyResult where
  action : TransferPolicyAction
  message : String

def defaultPolicyAssetCode : String := "XLM"

/-- `numberText` writes a number into a template. -/
def validateTransferPolicy (numberText : Float → String) (amount todayTotal : Float)
    (policy : TransferPolicy) (assetCode : Option String) : TransferPolicyResult :=
  let trimmed := EcmaScript.trim (assetCode.getD defaultPolicyAssetCode)
  let unit := if trimmed = "" then defaultPolicyAssetCode else trimmed
  if !amount.isFinite || amount ≤ 0 then
    ⟨.block, "Transfer amount must be greater than zero."⟩
  else if !todayTotal.isFinite || todayTotal < 0 then
    ⟨.block, "Invalid daily total value."⟩
  else if policy.dailyLimit < todayTotal + amount then
    ⟨.block, "Transfer exceeds daily limit of " ++ numberText policy.dailyLimit ++ " " ++ unit ++
      ". Reduce the amount or wait until tomorrow."⟩
  else if policy.stepUpThreshold < amount then
    ⟨.stepUp, "This transfer exceeds your step-up threshold of " ++
      numberText policy.stepUpThreshold ++ " " ++ unit ++
      " and requires additional confirmation."⟩
  else ⟨.allow, "Transfer is within policy limits."⟩

def validateTransferPolicyConstraints (numberText : Float → String)
    (context : RequestTransferPolicy) : ValidationResult :=
  let result := validateTransferPolicy numberText context.amount context.todayTotal context.policy
    context.assetCode
  match result.action with
  | .block => ⟨false, some ⟨.policyDenied, result.message⟩, false⟩
  | .stepUp =>
    if context.stepUpConfirmed = some true then ⟨true, none, false⟩
    else ⟨false, some ⟨.policyDenied, result.message⟩, true⟩
  | .allow => ⟨true, none, false⟩

end Ancore.Relay
