import Ancore.Relay.Substitution

/-! # Messages and relay payloads

The wallet signs a message as it is, and a relay payload as the hexadecimal text that
the relayer verifies.  One key signs both, so a message that is such a text is the
authorization of that relay; no other message is (`stands_in_iff`).
-/

namespace Ancore.Relay

open Ancore.Library

/-! ## The signers of the wallet -/

/-- The key of the wallet: its public key and its signatures, in hexadecimal. -/
structure Keypair where
  rawPublicKey : String
  sign : (bytes : ByteArray) → String

/-- `kp.sign(Buffer.from(message, 'utf8'))`, in hexadecimal -/
def signMessage (keypair : Keypair) (unlocked : Bool) (message : String) :
    Except String String :=
  if message = "" then .error "Invalid message"
  else if !unlocked then .error "Wallet is locked"
  else .ok (keypair.sign message.toByteArray)

/-- The fields of a relay payload; the nonce is the number as `JSON.stringify` writes it. -/
structure RelayPayloadFields where
  sessionKey : String
  operation : String
  nonce : String
  «to» : String
  amount : String
  asset : String

def RelayPayloadFields.json (fields : RelayPayloadFields) : String :=
  String.ofList ("\x7b\"sessionKey\":".toList ++ EcmaScript.quote fields.sessionKey ++
    ",\"operation\":".toList ++ EcmaScript.quote fields.operation ++
    ",\"nonce\":".toList ++ fields.nonce.toList ++
    ",\"to\":".toList ++ EcmaScript.quote fields.«to» ++
    ",\"amount\":".toList ++ EcmaScript.quote fields.amount ++
    ",\"asset\":".toList ++ EcmaScript.quote fields.asset ++ "\x7d".toList)

def buildRelayCanonicalPayload (fields : RelayPayloadFields) : String :=
  EcmaScript.hexOfUtf8 fields.json

/-- A field that is missing is not of the type that is expected; the nonce is there where it is a
finite number. -/
structure SignRelayPayloadParams where
  operation : Option String
  nonce : Option String
  «to» : Option String
  amount : Option String
  asset : Option String

/-- What the wallet signs, once the parameters are checked. -/
def SignRelayPayloadParams.fields (params : SignRelayPayloadParams) (sessionKey : String) :
    Except String RelayPayloadFields :=
  match params.operation with
  | none => .error "Invalid operation"
  | some operation =>
    if operation = "" then .error "Invalid operation"
    else
      match params.nonce with
      | none => .error "Invalid nonce"
      | some nonce =>
        match params.«to», params.amount, params.asset with
        | some «to», some amount, some asset =>
          .ok ⟨sessionKey, operation, nonce, «to», amount, asset⟩
        | _, _, _ => .error "Invalid relay parameters"

/-- The session key and the signature, in hexadecimal. -/
def signRelayPayload (keypair : Keypair) (unlocked : Bool) (params : SignRelayPayloadParams) :
    Except String (String × String) := do
  let fields ← params.fields keypair.rawPublicKey
  if !unlocked then throw "Wallet is locked"
  pure (keypair.rawPublicKey, keypair.sign (buildRelayCanonicalPayload fields).toByteArray)

/-- The wallet and the relayer build one payload. -/
theorem buildCanonicalPayload_eq (input : CanonicalPayloadInput) :
    buildCanonicalPayload input = buildRelayCanonicalPayload
      ⟨input.sessionKey, input.operation, toString input.nonce, input.«to», input.amount,
        input.asset⟩ := rfl

theorem payload_ne_empty (fields : RelayPayloadFields) :
    buildRelayCanonicalPayload fields ≠ "" := by
  intro empty
  have nothing : EcmaScript.hexOfUtf8 "" = "" := by decide
  have blank : fields.json = "" := EcmaScript.hexOfUtf8_inj (empty.trans nothing.symm)
  have letters := String.ofList_eq_empty_iff.mp blank
  exact absurd (List.append_eq_nil_iff.mp letters).2 (by decide)

theorem fields_of_given {operation nonce recipient amount asset : String}
    (given : operation ≠ "") (sessionKey : String) :
    SignRelayPayloadParams.fields
      ⟨some operation, some nonce, some recipient, some amount, some asset⟩ sessionKey =
        .ok ⟨sessionKey, operation, nonce, recipient, amount, asset⟩ :=
  if_neg given

/-! ## What a message can stand in for -/

/-- The signature service takes the signatures of the key for the bytes that were signed, and for no
others. -/
def RelayService.Verifies (service : RelayService) (keypair : Keypair) : Prop :=
  ∀ payload bytes, service.verify keypair.rawPublicKey payload (keypair.sign bytes) = true ↔
    payload.toByteArray = bytes

/-- A payload is written with the digits of hexadecimal numbers. -/
theorem isHexadecimal_of_mem_payload {fields : RelayPayloadFields} {letter : Char}
    (member : letter ∈ (buildRelayCanonicalPayload fields).toList) :
    isHexadecimal letter = true := by
  obtain ⟨digit, bound, rfl⟩ := EcmaScript.mem_hexOfUtf8 member
  have digits : ∀ digit < 16, isHexadecimal (EcmaScript.hexDigit digit) = true := by decide
  exact digits digit bound

/-- A message is signed as a relay payload is exactly where it is the payload, and only then the
relayer takes the signature of the message for that of the relay. -/
theorem stands_in_iff {service : RelayService} {keypair : Keypair}
    (verifies : service.Verifies keypair) {message signature : String}
    (signed : signMessage keypair true message = .ok signature) :
    (∀ fields : RelayPayloadFields,
      (message.toByteArray = (buildRelayCanonicalPayload fields).toByteArray ↔
        message = buildRelayCanonicalPayload fields) ∧
      (message = buildRelayCanonicalPayload fields →
        ∀ letter ∈ message.toList, isHexadecimal letter = true)) ∧
    ∀ (request : RelayExecuteRequest) (options : RelayExecutionOptions),
      request.sessionKey = keypair.rawPublicKey → request.signature = signature →
        (service.verify request.sessionKey
            (canonicalPayload request (signedNonceOf request options)) request.signature = true ↔
          message = canonicalPayload request (signedNonceOf request options)) ∧
        (service.Accepts request options →
          message = canonicalPayload request (signedNonceOf request options)) := by
  constructor
  · intro fields
    refine ⟨String.toByteArray_inj, ?_⟩
    intro payload letter member
    rw [payload] at member
    exact isHexadecimal_of_mem_payload member
  · intro request options sessionKey same
    have signedBytes : signature = keypair.sign message.toByteArray := by
      unfold signMessage at signed
      split at signed
      · cases signed
      · exact (Except.ok.inj signed).symm
    have verified : service.verify request.sessionKey
        (canonicalPayload request (signedNonceOf request options)) request.signature = true ↔
          message = canonicalPayload request (signedNonceOf request options) := by
      rw [sessionKey, same, signedBytes, verifies, String.toByteArray_inj]
      exact eq_comm
    refine ⟨verified, ?_⟩
    intro accepted
    exact verified.mp (verified_of_validateSigned (accepts_iff.mp accepted).2.2)

/-! ### A message that is a payload -/

/-- A key whose signatures are the bytes that were signed. -/
def plainKeypair : Keypair where
  rawPublicKey := String.ofList (List.replicate 64 'a')
  sign := EcmaScript.hexOfBytes

def plainSignatures : RelayService :=
  { plainService with verify := fun _ payload signature =>
      signature = EcmaScript.hexOfBytes payload.toByteArray }

theorem verify_plainSignatures {publicKey payload signature : String} :
    plainSignatures.verify publicKey payload signature = true ↔
      signature = EcmaScript.hexOfBytes payload.toByteArray :=
  decide_eq_true_iff

theorem plainSignatures_verifies : plainSignatures.Verifies plainKeypair := by
  intro payload bytes
  constructor
  · intro verified
    exact (EcmaScript.hexOfBytes_inj (verify_plainSignatures.mp verified)).symm
  · rintro rfl
    exact verify_plainSignatures.mpr rfl

theorem stands_in_iff_of_greeting :
    "hello".toByteArray = (buildRelayCanonicalPayload
        ⟨plainKeypair.rawPublicKey, "relay_execute", "1", "", "", ""⟩).toByteArray ↔
      "hello" = buildRelayCanonicalPayload
        ⟨plainKeypair.rawPublicKey, "relay_execute", "1", "", "", ""⟩ := by
  have signed : signMessage plainKeypair true "hello" =
      .ok (EcmaScript.hexOfBytes "hello".toByteArray) := by
    rw [signMessage, if_neg (by decide)]
    rfl
  exact ((stands_in_iff plainSignatures_verifies signed).1 _).1

theorem payload_of_unsignedRequest : canonicalPayload unsignedRequest 1 =
    buildRelayCanonicalPayload ⟨plainKeypair.rawPublicKey, "relay_execute", "1", "", "", ""⟩ := by
  have recipient : unsignedRequest.parameters.textOrEmpty "to" = "" := by decide
  have amount : unsignedRequest.parameters.textOrEmpty "amount" = "" := by decide
  have asset : unsignedRequest.parameters.textOrEmpty "asset" = "" := by decide
  rw [canonicalPayload, RelayExecuteRequest.signedFields, recipient, amount, asset]
  rfl

/-- The user signs a message that is the payload of a relay: what the wallet signs is what it signs
for the relay, and the relayer accepts it. -/
theorem message_stands_in :
    let message := canonicalPayload unsignedRequest 1
    let signature := EcmaScript.hexOfBytes message.toByteArray
    signMessage plainKeypair true message = .ok signature ∧
      signRelayPayload plainKeypair true
        ⟨some "relay_execute", some "1", some "", some "", some ""⟩ =
          .ok (plainKeypair.rawPublicKey, signature) ∧
      plainSignatures.Accepts { unsignedRequest with signature := signature } ⟨none⟩ := by
  intro message signature
  have payload : message =
      buildRelayCanonicalPayload ⟨plainKeypair.rawPublicKey, "relay_execute", "1", "", "", ""⟩ :=
    payload_of_unsignedRequest
  have given : message ≠ "" := payload ▸ payload_ne_empty _
  have verified : plainSignatures.verify unsignedRequest.sessionKey
      (canonicalPayload { unsignedRequest with signature := signature } 1) signature = true := by
    rw [canonicalPayload_withSignature]
    exact verify_plainSignatures.mpr rfl
  refine ⟨if_neg given, ?_, @accepts_of_verified plainSignatures
    { unsignedRequest with signature := signature } (by decide) (by decide) rfl verified⟩
  rw [signRelayPayload, fields_of_given (by decide)]
  have signed : signature = EcmaScript.hexOfBytes message.toByteArray := rfl
  rw [signed, payload]
  rfl

end Ancore.Relay
