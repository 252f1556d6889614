import Ancore.Idempotency.Callers
import Ancore.Wallet.Submission

/-! # Payments under their keys

What the send service submits, over the store of the middleware.  The key of a payment is made of
the hash and the length of its signed payload, so a payment is taken for another one exactly when
both are the same.
-/

namespace Ancore.Idempotency

open Library Library.EcmaScript
open Wallet.Submission (SendService RelayerRequest requestFor requestsOf idempotencyKeyFor fnv1a)

/-! ## Requests of the send service -/

/-- The letters that UTF-16 text is sent as; a surrogate without its other half is replaced. -/
def decodeUtf16 : JsString → List Char
  | [] => []
  | [unit] => [scalarOf unit]
  | unit :: unit' :: rest =>
    if isHighSurrogate unit && isLowSurrogate unit' then
      Char.ofNat (0x10000 + 0x400 * (unit - 0xD800) + (unit' - 0xDC00)) :: decodeUtf16 rest
    else scalarOf unit :: decodeUtf16 (unit' :: rest)
where
  scalarOf (unit : ℕ) : Char :=
    if isHighSurrogate unit || isLowSurrogate unit then Char.ofNat 0xFFFD else Char.ofNat unit

/-- The service sends no credentials: to the relayer all its requests are of one caller. -/
def received (sent : RelayerRequest) : HttpRequest where
  callerId := ""
  idempotencyKey := .single sent.idempotencyKey
  body := String.ofList (decodeUtf16 sent.body)

/-- Requests that services send to the relayer for the payloads that are submitted. -/
def SentFor (relayerUrl : String) (submitted : JsString → Prop) (request : HttpRequest) : Prop :=
  ∃ (service : SendService) (signedPayload : JsString), service.relayerUrl = relayerUrl ∧
    submitted signedPayload ∧ ∃ sent ∈ requestsOf service signedPayload, request = received sent

/-- Different payloads have different keys, no response is replayed to a payment with another body
than the one it was produced by, and the retries of a payment have the key of its first attempt. -/
structure PaymentsApart (relayerUrl : String) (submitted : JsString → Prop) : Prop where
  keys : ∀ first second, submitted first → submitted second → first ≠ second →
    idempotencyKeyFor first ≠ idempotencyKeyFor second
  replays : ∀ store : AnyIdempotencyStore, store.responses.entries = [] →
    ∀ turns : List (Turn ℕ (Subtype (SentFor relayerUrl submitted)) Circumstance),
      Historically ReplaysOwn
        (middlewareRun (SentFor relayerUrl submitted) store turns).world.exchanges
  retries : ∀ (service : SendService) (signedPayload : JsString), submitted signedPayload →
    ∀ first ∈ (requestsOf service signedPayload).head?,
      ∀ sent ∈ requestsOf service signedPayload, sent.idempotencyKey = first.idempotencyKey

/-- No two payloads have both one length and one FNV-1a hash. -/
def HashesDiffer (submitted : JsString → Prop) : Prop :=
  ∀ first second, submitted first → submitted second → first ≠ second →
    first.length ≠ second.length ∨ fnv1a first ≠ fnv1a second

/-! ## The key that the middleware finds -/

/-- The key neither starts nor ends with white space. -/
theorem trim_idempotencyKeyFor (signedPayload : JsString) :
    trim (idempotencyKeyFor signedPayload) = idempotencyKeyFor signedPayload := by
  rw [trim, Wallet.Submission.toList_idempotencyKeyFor, List.dropWhile_eq_self_iff.mpr,
    List.rdropWhile_eq_self_iff.mpr, ← Wallet.Submission.toList_idempotencyKeyFor,
    String.ofList_toList]
  · intro filled
    rw [List.getLast_append_of_right_ne_nil _ _ Nat.toDigits_ne_nil]
    have digit := Nat.isDigit_of_mem_toDigits (b := 10) (by decide) (by decide)
      (List.getLast_mem (Nat.toDigits_ne_nil (n := signedPayload.length) (b := 10)))
    exact Bool.eq_false_iff.mp (isWhiteSpace_of_isDigit digit)
  · intro filled
    exact Bool.eq_false_iff.mp rfl

theorem idempotencyKeyFor_ne_empty (signedPayload : JsString) :
    idempotencyKeyFor signedPayload ≠ "" := by
  intro empty
  have letters := congrArg String.toList empty
  rw [Wallet.Submission.toList_idempotencyKeyFor] at letters
  exact List.append_ne_nil_of_right_ne_nil _ Nat.toDigits_ne_nil letters

theorem key_received (service : SendService) (signedPayload : JsString) :
    (received (requestFor service signedPayload)).key = some (idempotencyKeyFor signedPayload) := by
  simp only [received, requestFor, HttpRequest.key, trim_idempotencyKeyFor,
    if_neg (idempotencyKeyFor_ne_empty signedPayload)]

/-! ## Runs -/

theorem keysDetermine_of_hashesDiffer {relayerUrl : String} {submitted : JsString → Prop}
    (differ : HashesDiffer submitted) : KeysDetermine (SentFor relayerUrl submitted) := by
  rintro request request' key ⟨service, first, -, isSubmitted, sent, member, rfl⟩
    ⟨service', second, -, isSubmitted', sent', member', rfl⟩ keyed keyed'
  rw [Wallet.Submission.eq_of_mem_requestsOf member] at keyed ⊢
  rw [Wallet.Submission.eq_of_mem_requestsOf member'] at keyed' ⊢
  have sameKey : idempotencyKeyFor first = idempotencyKeyFor second := by
    rw [key_received] at keyed keyed'
    exact Option.some.inj (keyed.trans keyed'.symm)
  have same : first = second := by
    by_contra different
    obtain ⟨lengths, hashes⟩ := Wallet.Submission.idempotencyKeyFor_eq_iff.mp sameKey
    exact (differ first second isSubmitted isSubmitted' different).elim (absurd lengths)
      (absurd hashes)
  rw [same]
  exact ⟨rfl, rfl⟩

/-- A signed payment of 10 lumens. -/
def firstPayment : JsString :=
  ascii "AAAAAgAAAABcP7LZgZsj4CoI1a1SSK4TfZV8" ++ ascii "hXgsNs01zPac5yoTlQAAJxAAB6EgAAGeIAAA" ++
    ascii "AAEAAAAAAAAAAAAAAABpVbosAAAAAAAAAAEA" ++ ascii "AAAAAAAAAQAAAADYgPS0s/JpfyI1rkjvor1J" ++
    ascii "j5Q8ARcpbShCyBkbYhso+wAAAAAAAAAABfXh" ++ ascii "AAAAAAAAAAAB5yoTlQAAAEBpLFuJISzCqL+q" ++
    ascii "4lnJOtv6PHtbm2LufiZMFtP/N5ufRV5RKVSf" ++ ascii "Ku3t5RWeB+UG7esdaiA158+RUxJdhFHaazgA"

/-- The same account pays 10 lumens again, with a later sequence number. -/
def secondPayment : JsString :=
  ascii "AAAAAgAAAABcP7LZgZsj4CoI1a1SSK4TfZV8" ++ ascii "hXgsNs01zPac5yoTlQAAJxAAB6EgAAHohwAA" ++
    ascii "AAEAAAAAAAAAAAAAAABpVbosAAAAAAAAAAEA" ++ ascii "AAAAAAAAAQAAAADYgPS0s/JpfyI1rkjvor1J" ++
    ascii "j5Q8ARcpbShCyBkbYhso+wAAAAAAAAAABfXh" ++ ascii "AAAAAAAAAAAB5yoTlQAAAEA2Pi8L5d9SRLuq" ++
    ascii "dxqPtdaH053UlwyzVdH/W31Xo2KaMY6spCQJ" ++ ascii "HvT/MKT62W6K5GMJNUH6qfw6ZjJh/mjhMD8K"

def productionService : SendService where
  isContractAccount := true
  relayerUrl := "https://relayer.ancore.io"
  respond _ := .ok ⟨true, 200, .ok ⟨none, none, some "hash", none⟩⟩
  submitToHorizon _ := .ok "hash"
  getErrorUserMessage _ := ⟨"Error", "Something went wrong"⟩

def IsPayment (signedPayload : JsString) : Prop :=
  signedPayload = firstPayment ∨ signedPayload = secondPayment

/-- The first request for a payment is answered. -/
def paymentRequest (signedPayload : JsString) (isPayment : IsPayment signedPayload) :
    Subtype (SentFor productionService.relayerUrl IsPayment) :=
  ⟨received (requestFor productionService signedPayload), productionService, signedPayload, rfl,
    isPayment, requestFor productionService signedPayload, List.mem_singleton_self _, rfl⟩

theorem idempotencyKeyFor_payments :
    idempotencyKeyFor firstPayment = idempotencyKeyFor secondPayment := by
  rw [Wallet.Submission.idempotencyKeyFor_eq_iff]
  decide +kernel

theorem body_payments_ne : (received (requestFor productionService firstPayment)).body ≠
    (received (requestFor productionService secondPayment)).body := by
  intro equal
  have letters := String.ofList_injective equal
  revert letters
  decide

end Ancore.Idempotency
