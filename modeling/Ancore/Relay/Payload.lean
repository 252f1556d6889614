import Ancore.Relay.Requests

/-! # What is signed

The canonical payload of a request: six of its fields, as JSON in hexadecimal. -/

namespace Ancore.Relay

open Ancore.Library

structure CanonicalPayloadInput where
  sessionKey : String
  operation : String
  nonce : Nonce
  «to» : String
  amount : String
  asset : String
  deriving DecidableEq, Repr

/-- `JSON.stringify` of the fields in their order. -/
def CanonicalPayloadInput.json (input : CanonicalPayloadInput) : String :=
  String.ofList ("\x7b\"sessionKey\":".toList ++ EcmaScript.quote input.sessionKey ++
    ",\"operation\":".toList ++ EcmaScript.quote input.operation ++
    ",\"nonce\":".toList ++ (toString input.nonce).toList ++
    ",\"to\":".toList ++ EcmaScript.quote input.«to» ++
    ",\"amount\":".toList ++ EcmaScript.quote input.amount ++
    ",\"asset\":".toList ++ EcmaScript.quote input.asset ++ "\x7d".toList)

def buildCanonicalPayload (input : CanonicalPayloadInput) : String :=
  EcmaScript.hexOfUtf8 input.json

/-- A parameter where it is a string, and otherwise the empty string. -/
def Parameters.textOrEmpty (parameters : Parameters) (name : String) : String :=
  ((parameters name).bind JsonValue.text?).getD ""

/-- The fields of a request that are signed. -/
def RelayExecuteRequest.signedFields (request : RelayExecuteRequest) (nonce : Nonce) :
    CanonicalPayloadInput where
  sessionKey := request.sessionKey
  operation := request.operation.text
  nonce := nonce
  «to» := request.parameters.textOrEmpty "to"
  amount := request.parameters.textOrEmpty "amount"
  asset := request.parameters.textOrEmpty "asset"

def canonicalPayload (request : RelayExecuteRequest) (nonce : Nonce) : String :=
  buildCanonicalPayload (request.signedFields nonce)

/-! ## What the payload determines -/

theorem CanonicalPayloadInput.json_inj {input input' : CanonicalPayloadInput}
    (sameNonce : input.nonce = input'.nonce) (equal : input.json = input'.json) :
    input = input' := by
  have letters := String.ofList_injective equal
  simp only [List.append_assoc, sameNonce] at letters
  obtain ⟨sessionKey, letters⟩ :=
    EcmaScript.delimits_quote _ rfl rfl (List.append_cancel_left letters)
  obtain ⟨operation, letters⟩ :=
    EcmaScript.delimits_quote _ rfl rfl (List.append_cancel_left letters)
  have letters :=
    List.append_cancel_left (List.append_cancel_left (List.append_cancel_left letters))
  obtain ⟨recipient, letters⟩ := EcmaScript.delimits_quote _ rfl rfl letters
  obtain ⟨amount, letters⟩ :=
    EcmaScript.delimits_quote _ rfl rfl (List.append_cancel_left letters)
  obtain ⟨asset, -⟩ := EcmaScript.delimits_quote _ rfl rfl (List.append_cancel_left letters)
  cases input
  cases input'
  simp_all

theorem OperationType.text_inj {operation operation' : OperationType}
    (equal : operation.text = operation'.text) : operation = operation' := by
  cases operation <;> cases operation' <;> first | rfl | exact absurd equal (by decide)

/-- Requests with one payload under one nonce agree on all that is signed. -/
theorem signedFields_eq_of_payload {request request' : RelayExecuteRequest} {nonce : Nonce}
    (equal : canonicalPayload request nonce = canonicalPayload request' nonce) :
    request.signedFields nonce = request'.signedFields nonce :=
  CanonicalPayloadInput.json_inj rfl (EcmaScript.hexOfUtf8_inj equal)

end Ancore.Relay
