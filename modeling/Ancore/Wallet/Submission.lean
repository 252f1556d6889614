import Ancore.Library.Attempt
import Ancore.Library.EcmaScript
import Ancore.Library.JsonText
import Ancore.Library.Words

/-! # Submitting payments

`submitTransaction` of the production send service.  What the wallet of a contract account has
signed goes to the relayer, again where the network failed, under a key that is made of the payload.
-/

namespace Ancore.Wallet.Submission

open Library Library.EcmaScript

/-! ## The key -/

/-- The loop of `idempotencyKeyFor`, over the code units that are left. -/
def hashFrom (hash : ℤ) : JsString → ℤ
  | [] => hash
  | unit :: rest => hashFrom (toUint32 (imul (bitwiseXor hash unit) 0x01000193)) rest

def idempotencyKeyFor (signedPayload : JsString) : String :=
  let hash := hashFrom 0x811c9dc5 signedPayload
  String.ofList ("aa-send-".toList ++ paddedHex 8 hash.toNat ++
    "-".toList ++ Nat.toDigits 10 signedPayload.length)

/-! ## The service -/

/-- What is thrown; only an `Error` has a name. -/
inductive Thrown where
  | error (name message : String)
  | value (text : String)

/-- The properties of an answer that are looked at, each where it is not empty. -/
structure ResponseData where
  error : Option String
  message : Option String
  hash : Option String
  txId : Option String

structure Response where
  ok : Bool
  status : ℕ
  json : Except Thrown ResponseData

/-- A `POST` of JSON. -/
structure RelayerRequest where
  url : String
  idempotencyKey : String
  body : JsString

structure UserMessage where
  title : String
  description : String

/-- What a service is made with, and how the world answers it: the relayer each request, Horizon a
transaction of a classic account. -/
structure SendService where
  isContractAccount : Bool
  relayerUrl : String
  respond : ℕ → Except Thrown Response
  submitToHorizon : JsString → Except Thrown String
  getErrorUserMessage : Thrown → UserMessage

/-- The requests that were made, and the pauses. -/
structure SubmitState where
  requests : List RelayerRequest := []
  slept : List ℕ := []

/-- `RELAYER_SUBMIT_MAX_RETRIES` -/
def relayerSubmitMaxRetries : ℕ := 4

/-- `RELAYER_RETRY_BASE_DELAY_MS` -/
def relayerRetryBaseDelayMs : ℕ := 500

def isRetriableSubmissionError : Thrown → Bool
  | .error name _ => name == "AbortError" || name == "TypeError"
  | .value _ => false

def sleep (ms : ℕ) : Attempt Thrown SubmitState Unit := fun state =>
  (.ok (), { state with slept := state.slept ++ [ms] })

section Service

variable (service : SendService)

/-- The request is made, whether it is answered or not. -/
def fetchWithTimeout (request : RelayerRequest) : Attempt Thrown SubmitState Response :=
  fun state =>
    (service.respond state.requests.length,
      { state with requests := state.requests ++ [request] })

/-- The loop over the attempts that are left. -/
def submitLoop (request : RelayerRequest) (lastNetworkError : Option Thrown) :
    List ℕ → Attempt Thrown SubmitState Response
  | [] => .throw (lastNetworkError.getD (.error "Error" "Relayer submission failed"))
  | attempt :: attempts =>
    .tryCatch (fetchWithTimeout service request) fun error =>
      if !isRetriableSubmissionError error || attempt = relayerSubmitMaxRetries then .throw error
      else do
        sleep (relayerRetryBaseDelayMs * 2 ^ attempt)
        submitLoop request (some error) attempts

/-- The identifier that an answer has. -/
def txIdOf (response : Response) : Except Thrown String :=
  if !response.ok then
    let httpStatus := "HTTP " ++ toString response.status
    let errorMsg :=
      match response.json with
      | .ok data => (data.error <|> data.message).getD httpStatus
      | .error _ => httpStatus
    .error (.error "Error" ("Relayer submission failed: " ++ errorMsg))
  else do
    let data ← response.json
    match data.hash <|> data.txId with
    | some txId => .ok txId
    | none =>
      .error (.error "Error" "Relayer submission failed: Missing transaction ID in response")

/-- What is sent for a payload. -/
def requestFor (signedPayload : JsString) : RelayerRequest where
  url := service.relayerUrl ++ "/execute"
  idempotencyKey := idempotencyKeyFor signedPayload
  body := stringifyJson [] (.object [(ascii "transaction", .string signedPayload)])

def throwForUser {α : Type} (error : Thrown) : Attempt Thrown SubmitState α :=
  let userMsg := service.getErrorUserMessage error
  .throw (.error "Error" (userMsg.title ++ ": " ++ userMsg.description))

def submitTransaction (signedPayload : JsString) : Attempt Thrown SubmitState String :=
  if service.isContractAccount then
    .tryCatch
      (do
        let response ← submitLoop service (requestFor service signedPayload) none
          (List.range (relayerSubmitMaxRetries + 1))
        Attempt.ofExcept (txIdOf response))
      (throwForUser service)
  else
    .tryCatch (Attempt.ofExcept (service.submitToHorizon signedPayload)) (throwForUser service)

/-- The requests of one submission, oldest first. -/
def requestsOf (signedPayload : JsString) : List RelayerRequest :=
  (submitTransaction service signedPayload {}).2.requests

end Service

/-! ## Every request is the same -/

section Requests

variable {service : SendService} {request : RelayerRequest}

/-- Nothing but the request was sent. -/
def OnlySent (request : RelayerRequest) (state : SubmitState) : Prop :=
  ∀ sent ∈ state.requests, sent = request

theorem preserves_fetch :
    Attempt.Preserves (OnlySent request) (fetchWithTimeout service request) := by
  intro state only sent member
  rcases List.mem_append.mp member with earlier | now
  · exact only sent earlier
  · exact List.mem_singleton.mp now

theorem preserves_submitLoop (lastNetworkError : Option Thrown) (attempts : List ℕ) :
    Attempt.Preserves (OnlySent request)
      (submitLoop service request lastNetworkError attempts) := by
  induction attempts generalizing lastNetworkError with
  | nil => exact fun state only => only
  | cons attempt attempts ih =>
    refine Attempt.Preserves.tryCatch preserves_fetch fun error => ?_
    split_ifs
    · exact fun state only => only
    · exact Attempt.Preserves.bind (fun state only => only) fun _ => ih (some error)

theorem preserves_submitTransaction (signedPayload : JsString) :
    Attempt.Preserves (OnlySent (requestFor service signedPayload))
      (submitTransaction service signedPayload) := by
  unfold submitTransaction
  split_ifs
  · refine Attempt.Preserves.tryCatch ?_ fun error state only => only
    exact (preserves_submitLoop none _).bind fun response state only => only
  · exact Attempt.Preserves.tryCatch (fun state only => only) fun error state only => only

/-- All requests of a submission, the retries too, are the one for its payload. -/
theorem eq_of_mem_requestsOf {signedPayload : JsString} {sent : RelayerRequest}
    (member : sent ∈ requestsOf service signedPayload) : sent = requestFor service signedPayload :=
  preserves_submitTransaction signedPayload {} (List.forall_mem_nil _) sent member

end Requests

/-! ## Keys of different payloads -/

/-- The 32-bit FNV-1a of the code units. -/
def fnv1a (signedPayload : JsString) : BitVec 32 :=
  fnv32.digest (signedPayload.map (BitVec.ofNat 32))

theorem hashFrom_toNat (hash : BitVec 32) (signedPayload : JsString) :
    hashFrom hash.toNat signedPayload =
      (fnv32.absorbAll hash (signedPayload.map (BitVec.ofNat 32))).toNat := by
  induction signedPayload generalizing hash with
  | nil => rfl
  | cons unit rest ih =>
    rw [hashFrom, toUint32_imul_bitwiseXor]
    exact ih _

/-- The arithmetic of the loop is that of FNV-1a. -/
theorem hashFrom_eq (signedPayload : JsString) :
    hashFrom 0x811c9dc5 signedPayload = (fnv1a signedPayload).toNat :=
  hashFrom_toNat fnv32.basis signedPayload

theorem toList_idempotencyKeyFor (signedPayload : JsString) :
    (idempotencyKeyFor signedPayload).toList =
      "aa-send-".toList ++ paddedHex 8 (fnv1a signedPayload).toNat ++ "-".toList ++
        Nat.toDigits 10 signedPayload.length := by
  unfold idempotencyKeyFor
  simp only [String.toList_ofList, hashFrom_eq, Int.toNat_natCast]

/-- Two payloads have one key exactly when they have one length and one hash. -/
theorem idempotencyKeyFor_eq_iff {first second : JsString} :
    idempotencyKeyFor first = idempotencyKeyFor second ↔
      first.length = second.length ∧ fnv1a first = fnv1a second := by
  have bound (payload : JsString) : (paddedHex 8 (fnv1a payload).toNat).length = 8 :=
    length_paddedHex (by decide) (fnv1a payload).isLt
  rw [← String.toList_inj, toList_idempotencyKeyFor, toList_idempotencyKeyFor]
  constructor
  · intro equal
    simp only [List.append_assoc, List.append_cancel_left_eq] at equal
    obtain ⟨hashes, lengths⟩ := List.append_inj equal ((bound first).trans (bound second).symm)
    rw [List.append_cancel_left_eq] at lengths
    have numbers := congrArg (fun letters => Nat.ofDigitChars 10 letters 0) lengths
    simp only [Nat.ofDigitChars_ten_toDigits] at numbers
    exact ⟨numbers, BitVec.eq_of_toNat_eq (paddedHex_inj hashes)⟩
  · rintro ⟨lengths, hashes⟩
    rw [lengths, hashes]

/-- A payload with one unit exchanged for another has another key. -/
theorem idempotencyKeyFor_ne_of_one {before after : JsString} {unit unit' : ℕ}
    (small : unit < 2 ^ 16) (small' : unit' < 2 ^ 16) (different : unit ≠ unit') :
    idempotencyKeyFor (before ++ unit :: after) ≠ idempotencyKeyFor (before ++ unit' :: after) := by
  intro equal
  have hashes := (idempotencyKeyFor_eq_iff.mp equal).2
  simp only [fnv1a, List.map_append, List.map_cons, Fnv.digest_eq_iff_of_one] at hashes
  have same := congrArg BitVec.toNat hashes
  rw [BitVec.toNat_ofNat, BitVec.toNat_ofNat] at same
  omega

end Ancore.Wallet.Submission
