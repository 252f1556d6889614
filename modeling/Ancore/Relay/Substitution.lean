import Ancore.Relay.Service

/-! # What the signature of a request covers

Two requests that are accepted with one session key, signature and signed nonce
agree on the fields of the payload.  The transaction to submit and the account it
is for are not among them. -/

namespace Ancore.Relay

open Ancore.Library

/-- The nonce that the signature is for. -/
def signedNonceOf (request : RelayExecuteRequest) (options : RelayExecutionOptions) : Nonce :=
  options.signedNonce.getD request.nonce

/-- `validateRelay` accepts the request, by some answers of the nonce store and the chain. -/
def RelayService.Accepts (service : RelayService) (request : RelayExecuteRequest)
    (options : RelayExecutionOptions) : Prop :=
  ∃ answers : (call : RelayCall) → RelayAnswer call,
    ((service.validateRelay request options).resultWith answers).valid = true

/-- A signature is valid for one message only. -/
def RelayService.SignsOnce (service : RelayService) : Prop :=
  ∀ publicKey payload payload' signature, service.verify publicKey payload signature = true →
    service.verify publicKey payload' signature = true → payload = payload'

/-- Every request that is accepted with the same session key, signature and signed nonce has the
same operation and is relayed as the same transaction of the same account. -/
def RelayService.SignatureCovers (service : RelayService) (request : RelayExecuteRequest)
    (options : RelayExecutionOptions) : Prop :=
  ∀ request' options', service.Accepts request' options' →
    request'.sessionKey = request.sessionKey → request'.signature = request.signature →
    signedNonceOf request' options' = signedNonceOf request options →
      request'.operation = request.operation ∧
        extractSignedTransactionXdr request' = extractSignedTransactionXdr request ∧
        request'.parameters "accountAddress" = request.parameters "accountAddress"

section Acceptance

variable {service : RelayService} {request request' : RelayExecuteRequest}
  {options options' : RelayExecutionOptions}

/-- What has to hold of a valid request, and what the store and the chain have to answer. -/
theorem valid_validateRelay_iff {answers : (call : RelayCall) → RelayAnswer call} :
    ((service.validateRelay request options).resultWith answers).valid = true ↔
      validateSessionKey request.sessionKey = none ∧ 0 ≤ request.nonce ∧
        (service.hasNonceStore = true →
          answers (.assertFresh request.sessionKey request.nonce) = .ok ()) ∧
        answers (.getSessionKey (request.parameters "accountAddress") request.sessionKey) =
          .ok true ∧
        (service.validateSigned request options).valid = true := by
  have onChain : ((service.validateOnChain request options).resultWith answers).valid = true ↔
      answers (.getSessionKey (request.parameters "accountAddress") request.sessionKey) =
          .ok true ∧
        (service.validateSigned request options).valid = true := by
    change (service.validateLookup request options (answers
      (.getSessionKey (request.parameters "accountAddress") request.sessionKey))).valid = true ↔ _
    cases answers (.getSessionKey (request.parameters "accountAddress") request.sessionKey) with
    | error thrown => simp [RelayService.validateLookup, refusal]
    | ok found =>
      cases found with
      | false => simp [RelayService.validateLookup, refusal]
      | true => simp [RelayService.validateLookup]
  unfold RelayService.validateRelay
  cases validateSessionKey request.sessionKey with
  | some keyError => exact ⟨nofun, nofun⟩
  | none =>
    by_cases negative : request.nonce < 0
    · simp only [if_pos negative]
      exact ⟨nofun, fun valid => absurd negative (Int.not_lt.mpr valid.2.1)⟩
    · simp only [if_neg negative, Int.not_lt.mp negative, true_and]
      by_cases stored : service.hasNonceStore = true
      · rw [if_pos stored]
        change ((service.validateFresh request options (answers
          (.assertFresh request.sessionKey request.nonce))).resultWith answers).valid = true ↔ _
        cases answers (.assertFresh request.sessionKey request.nonce) with
        | error thrown => exact ⟨nofun, fun valid => absurd (valid.1 stored) nofun⟩
        | ok _ => exact onChain.trans ⟨fun valid => ⟨fun _ => rfl, valid⟩, And.right⟩
      · rw [if_neg stored]
        exact onChain.trans ⟨fun valid => ⟨fun given => absurd given stored, valid⟩, And.right⟩

/-- A nonce store and a chain that know of nothing against a request. -/
def agreeable : (call : RelayCall) → RelayAnswer call
  | .assertFresh _ _ => .ok ()
  | .getSessionKey _ _ => .ok true
  | .track _ _ => .ok ()
  | .mockTxId _ => ""
  | .simulateAndAssembleTransaction _ => .error .other
  | .submitSignedTransaction _ _ => .error .other

theorem accepts_iff : service.Accepts request options ↔
    validateSessionKey request.sessionKey = none ∧ 0 ≤ request.nonce ∧
      (service.validateSigned request options).valid = true := by
  constructor
  · rintro ⟨answers, valid⟩
    obtain ⟨keyFormed, nonNegative, -, -, signed⟩ := valid_validateRelay_iff.mp valid
    exact ⟨keyFormed, nonNegative, signed⟩
  · rintro ⟨keyFormed, nonNegative, signed⟩
    exact ⟨agreeable, valid_validateRelay_iff.mpr
      ⟨keyFormed, nonNegative, fun _ => rfl, rfl, signed⟩⟩

/-! ## What is covered -/

theorem verified_of_validateSigned
    (valid : (service.validateSigned request options).valid = true) :
    service.verify request.sessionKey (canonicalPayload request (signedNonceOf request options))
      request.signature = true := by
  by_contra unverified
  rw [Bool.not_eq_true] at unverified
  unfold signedNonceOf at unverified
  simp [RelayService.validateSigned, unverified, refusal] at valid

/-- Requests that are accepted with one session key, signature and signed nonce agree on all that
the payload is made of. -/
theorem signedFields_eq_of_accepts (signsOnce : service.SignsOnce)
    (accepted : service.Accepts request options) (accepted' : service.Accepts request' options')
    (sameKey : request'.sessionKey = request.sessionKey)
    (sameSignature : request'.signature = request.signature)
    (sameNonce : signedNonceOf request' options' = signedNonceOf request options) :
    request'.signedFields (signedNonceOf request options) =
      request.signedFields (signedNonceOf request options) := by
  have verified := verified_of_validateSigned (accepts_iff.mp accepted).2.2
  have verified' := verified_of_validateSigned (accepts_iff.mp accepted').2.2
  rw [sameKey, sameSignature, sameNonce] at verified'
  exact signedFields_eq_of_payload (signsOnce _ _ _ _ verified' verified)

/-! ## What is not -/

/-- Any parameters that agree on what is signed are accepted in the place of those of the
request. -/
theorem accepts_with_parameters (accepted : service.Accepts request options)
    {parameters : Parameters} (sameSigned : ∀ name ∈ ["to", "amount", "asset"],
      parameters.textOrEmpty name = request.parameters.textOrEmpty name) :
    service.Accepts { request with parameters := parameters } options := by
  have samePayload (nonce : Nonce) :
      canonicalPayload { request with parameters := parameters } nonce =
        canonicalPayload request nonce := by
    simp [canonicalPayload, RelayExecuteRequest.signedFields, sameSigned]
  obtain ⟨keyFormed, nonNegative, signed⟩ := accepts_iff.mp accepted
  refine accepts_iff.mpr ⟨keyFormed, nonNegative, ?_⟩
  simpa only [RelayService.validateSigned, samePayload] using signed

theorem textOrEmpty_update {parameters : Parameters} {name other : String}
    (different : other ≠ name) (value : Option JsonValue) :
    Parameters.textOrEmpty (Function.update parameters name value) other =
      parameters.textOrEmpty other := by
  simp [Parameters.textOrEmpty, Function.update_of_ne different]

/-- The request with another transaction to submit. -/
def RelayExecuteRequest.withTransaction (request : RelayExecuteRequest) (signedXdr : String) :
    RelayExecuteRequest :=
  { request with
    parameters := Function.update request.parameters signedTxParameter (some (.string signedXdr)) }

theorem accepts_withTransaction (accepted : service.Accepts request options) (signedXdr : String) :
    service.Accepts (request.withTransaction signedXdr) options := by
  refine accepts_with_parameters accepted fun name member => textOrEmpty_update ?_ _
  rintro rfl
  exact absurd member (by decide)

theorem extractSignedTransactionXdr_withTransaction {signedXdr : String}
    (present : EcmaScript.trim signedXdr ≠ "") :
    extractSignedTransactionXdr (request.withTransaction signedXdr) =
      some (EcmaScript.trim signedXdr) := by
  simp [extractSignedTransactionXdr, RelayExecuteRequest.withTransaction, JsonValue.text?, present]

end Acceptance

/-- Of no accepted request does the signature cover what is relayed: with another transaction to
submit it is accepted as well. -/
theorem signature_never_covers (service : RelayService) (request : RelayExecuteRequest)
    (options : RelayExecutionOptions) (accepted : service.Accepts request options) :
    ¬ service.SignatureCovers request options := by
  intro covers
  have same (signedXdr : String) (present : EcmaScript.trim signedXdr ≠ "") :
      extractSignedTransactionXdr request = some (EcmaScript.trim signedXdr) := by
    rw [← extractSignedTransactionXdr_withTransaction present]
    exact (covers _ options (accepts_withTransaction accepted signedXdr) rfl rfl rfl).2.1.symm
  have both := (same "A" (by decide)).symm.trans (same "B" (by decide))
  exact absurd both (by decide)

/-! ### A transaction in the place of another -/

/-- A service whose signatures are the messages they are for. -/
def plainService : RelayService where
  useMockSubmission := false
  hasTransactionSubmitter := true
  hasNonceStore := true
  verify := fun _ payload signature => signature = payload
  numberText := fun _ => ""

theorem verify_plainService {publicKey payload signature : String} :
    plainService.verify publicKey payload signature = true ↔ signature = payload :=
  decide_eq_true_iff

theorem canonicalPayload_withSignature (request : RelayExecuteRequest) (signature : String)
    (nonce : Nonce) :
    canonicalPayload { request with signature := signature } nonce =
      canonicalPayload request nonce := by
  unfold canonicalPayload RelayExecuteRequest.signedFields
  rfl

/-- A request that is held to no policy is accepted with its signature. -/
theorem accepts_of_verified {service : RelayService} {request : RelayExecuteRequest}
    (keyFormed : validateSessionKey request.sessionKey = none) (nonNegative : 0 ≤ request.nonce)
    (unrestricted : request.transferPolicy = none)
    (verified : service.verify request.sessionKey (canonicalPayload request request.nonce)
      request.signature = true) : service.Accepts request ⟨none⟩ := by
  refine accepts_iff.mpr ⟨keyFormed, nonNegative, ?_⟩
  unfold RelayService.validateSigned
  dsimp only [Option.getD_none]
  rw [verified]
  simp only [unrestricted, Bool.not_true, Bool.false_eq_true, if_false]

/-- A request with its message in the place of the signature. -/
theorem accepts_plainlySigned {request : RelayExecuteRequest}
    (keyFormed : validateSessionKey request.sessionKey = none) (nonNegative : 0 ≤ request.nonce)
    (unrestricted : request.transferPolicy = none) {signature : String}
    (signed : signature = canonicalPayload request request.nonce) :
    plainService.Accepts { request with signature := signature } ⟨none⟩ := by
  have verified : plainService.verify request.sessionKey
      (canonicalPayload { request with signature := signature } request.nonce) signature = true :=
    verify_plainService.mpr
      (signed.trans (canonicalPayload_withSignature request signature _).symm)
  exact @accepts_of_verified plainService { request with signature := signature } keyFormed
    nonNegative unrestricted verified

/-- A request to submit a payment. -/
def unsignedRequest : RelayExecuteRequest where
  sessionKey := String.ofList (List.replicate 64 'a')
  operation := .relayExecute
  parameters := Function.update
    (Function.update (fun _ => none) signedTxParameter (some (.string "payment")))
    "accountAddress" (some (.string "account"))
  signature := ""
  nonce := 1
  transferPolicy := none

def paymentRequest : RelayExecuteRequest :=
  { unsignedRequest with signature := canonicalPayload unsignedRequest 1 }

theorem accepts_paymentRequest : plainService.Accepts paymentRequest ⟨none⟩ :=
  accepts_plainlySigned (by decide) (by decide) rfl rfl

theorem signature_never_covers_of_sample :
    ¬ plainService.SignatureCovers paymentRequest ⟨none⟩ :=
  signature_never_covers plainService paymentRequest ⟨none⟩ accepts_paymentRequest

/-- Signatures are valid for one message only, and the transaction to submit is substituted. -/
theorem transaction_substituted :
    plainService.SignsOnce ∧ plainService.Accepts paymentRequest ⟨none⟩ ∧
      plainService.Accepts (paymentRequest.withTransaction "theft") ⟨none⟩ ∧
      extractSignedTransactionXdr (paymentRequest.withTransaction "theft") ≠
        extractSignedTransactionXdr paymentRequest := by
  refine ⟨?_, accepts_paymentRequest, accepts_withTransaction accepts_paymentRequest "theft", ?_⟩
  · intro publicKey payload payload' signature verified verified'
    exact (verify_plainService.mp verified).symm.trans (verify_plainService.mp verified')
  · decide

end Ancore.Relay
