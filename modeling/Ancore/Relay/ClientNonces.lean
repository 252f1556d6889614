import Ancore.Relay.NonceStores

/-! # Nonces of a client

`buildSignedRelayPayload` of the core SDK takes a nonce from the clock, and the relayer keeps the
nonces it has seen in a table that is cleared of old rows.  The nonces of one session key stay
fresh as long as no two of their times leave the same rest; the period is about 17 minutes.
-/

namespace Ancore.Relay.ClientNonces

/-! ## The client -/

/-- What a signer is given. -/
structure RelayEnvelope where
  operation : String
  nonce : Nonce
  «to» : String
  amount : String
  asset : String

/-- `signRelayEnvelope`, which answers with the session key and the signature. -/
abbrev RelaySigner : Type := RelayEnvelope → Except Thrown (String × String)

structure BuildOptions where
  asset : Option String := none
  accountAddress : Option String := none

structure RelayExecuteParameters where
  «to» : String
  amount : String
  asset : String
  accountAddress : Option String

structure SignedRelayPayload where
  sessionKey : String
  operation : String
  parameters : RelayExecuteParameters
  signature : String
  nonce : Nonce

def buildSignedRelayPayload (dateNow : Millis) («to» amount : String) (signer : RelaySigner)
    (opts : BuildOptions) : Except Thrown SignedRelayPayload := do
  let nonce := dateNow.tmod 1000000
  let asset := opts.asset.getD "XLM"
  let (sessionKey, signature) ← signer ⟨"relay_execute", nonce, «to», amount, asset⟩
  return {
    sessionKey
    operation := "relay_execute"
    parameters :=
      { «to», amount, asset, accountAddress := opts.accountAddress.filter (· ≠ "") }
    signature
    nonce }

/-- A call with all that it depends on. -/
structure BuildCall where
  dateNow : Millis
  «to» : String
  amount : String
  signer : RelaySigner
  opts : BuildOptions

def BuildCall.payload (call : BuildCall) : Except Thrown SignedRelayPayload :=
  buildSignedRelayPayload call.dateNow call.«to» call.amount call.signer call.opts

/-- The payload that the call produces with this session key. -/
def BuildCall.payloadBy (sessionKey : String) (call : BuildCall) : Option SignedRelayPayload :=
  call.payload.toOption.filter (·.sessionKey = sessionKey)

/-- The payloads of the session key in the order of the calls. -/
def payloadsBy (sessionKey : String) (calls : List BuildCall) : List SignedRelayPayload :=
  calls.filterMap (·.payloadBy sessionKey)

def callsBy (sessionKey : String) (calls : List BuildCall) : List BuildCall :=
  calls.filter fun call => (call.payloadBy sessionKey).isSome

/-! ## The table -/

/-- A row of `used_nonces`. -/
structure UsedNonce where
  account : String
  nonce : Nonce
  usedAt : Millis

abbrev UsedNonces : Type := List UsedNonce

namespace UsedNonces

def keys (rows : UsedNonces) : List (String × Nonce) := rows.map fun row => (row.account, row.nonce)

def assertFresh (rows : UsedNonces) (key : String) (nonce : Nonce) : Except Thrown Unit :=
  if (key, nonce) ∈ rows.keys then .error (.error "Nonce already used") else .ok ()

/-- `INSERT .. ON CONFLICT (account, nonce) DO NOTHING`, where `used_at` is the time of the
statement. -/
def track (rows : UsedNonces) (key : String) (nonce : Nonce) (now : Millis) : UsedNonces :=
  if (key, nonce) ∈ rows.keys then rows else rows ++ [⟨key, nonce, now⟩]

/-- `DELETE .. WHERE used_at < NOW() - INTERVAL '30 days'` -/
def clearExpired (rows : UsedNonces) (now : Millis) : UsedNonces :=
  rows.filter fun row => ¬ row.usedAt < now - 30 * 24 * 60 * 60 * 1000

/-- The table without the times. -/
def store (rows : UsedNonces) : PgNonceStore := ⟨rows.keys.toFinset⟩

theorem assertFresh_store (rows : UsedNonces) (key : String) (nonce : Nonce) :
    rows.store.assertFresh key nonce = rows.assertFresh key nonce := by
  simp [store, PgNonceStore.assertFresh, assertFresh]

theorem keys_track (rows : UsedNonces) (key : String) (nonce : Nonce) (now : Millis)
    (replayKey : String × Nonce) :
    replayKey ∈ (rows.track key nonce now).keys ↔
      replayKey = (key, nonce) ∨ replayKey ∈ rows.keys := by
  unfold track
  split_ifs with recorded
  · refine ⟨.inr, ?_⟩
    rintro (rfl | member)
    · exact recorded
    · exact member
  · simp [keys, or_comm, eq_comm]

theorem track_store (rows : UsedNonces) (key : String) (nonce : Nonce) (now : Millis) :
    (rows.track key nonce now).store = rows.store.track key nonce := by
  refine congrArg PgNonceStore.mk (Finset.ext fun replayKey => ?_)
  rw [List.mem_toFinset, keys_track, Finset.mem_insert, store, List.mem_toFinset]

theorem mem_keys_clearExpired {rows : UsedNonces} {now : Millis} {replayKey : String × Nonce}
    (member : replayKey ∈ (rows.clearExpired now).keys) : replayKey ∈ rows.keys :=
  (List.filter_sublist.map _).subset member

end UsedNonces

/-! ## Requests at the relayer -/

/-- What the relayer does with the table: for the request with the payload at a position, for a
request of another client, or to clear it. -/
inductive StoreOperation where
  | assertFresh (position : ℕ)
  | track (position : ℕ)
  | trackOther (account : String) (nonce : Nonce)
  | clearExpired

structure TimedOperation where
  now : Millis
  operation : StoreOperation

section Requests

variable (sessionKey : String) (payloads : List SignedRelayPayload)

/-- What an operation leaves of the table; a check leaves it as it is. -/
def perform (rows : UsedNonces) (timed : TimedOperation) : UsedNonces :=
  match timed.operation with
  | .assertFresh _ => rows
  | .track position =>
    match payloads[position]? with
    | none => rows
    | some payload => rows.track payload.sessionKey payload.nonce timed.now
  | .trackOther account nonce => rows.track account nonce timed.now
  | .clearExpired => rows.clearExpired timed.now

def performed (operations : List TimedOperation) : UsedNonces :=
  operations.foldl (perform payloads) []

/-- Every request is new when it is checked, and the other clients have other session keys. -/
structure NewRequests (operations : List TimedOperation) : Prop where
  untracked : ∀ before now position after,
    operations = before ++ ⟨now, .assertFresh position⟩ :: after →
    ∀ timed ∈ before, timed.operation ≠ .track position
  others : ∀ timed ∈ operations, ∀ account nonce,
    timed.operation = .trackOther account nonce → account ≠ sessionKey

/-- No check rejects a request. -/
def NeverRejects (operations : List TimedOperation) : Prop :=
  ∀ before now position after payload,
    operations = before ++ ⟨now, .assertFresh position⟩ :: after →
    payloads[position]? = some payload →
    (performed payloads before).assertFresh payload.sessionKey payload.nonce = .ok ()

end Requests

/-- The payloads of the session key have different nonces, and the relayer rejects none of them
as long as each comes as a new request. -/
structure StaysFresh (sessionKey : String) (calls : List BuildCall) : Prop where
  distinct : ((payloadsBy sessionKey calls).map (·.nonce)).Nodup
  accepted : ∀ operations, NewRequests sessionKey operations →
    NeverRejects (payloadsBy sessionKey calls) operations

/-! ## The nonces -/

section Nonces

variable {sessionKey : String} {calls : List BuildCall} {call : BuildCall}
  {payload : SignedRelayPayload}

theorem nonce_of_payloadBy (made : call.payloadBy sessionKey = some payload) :
    payload.nonce = call.dateNow.tmod 1000000 ∧ payload.sessionKey = sessionKey := by
  obtain ⟨produced, owned⟩ := Option.filter_eq_some_iff.mp made
  refine ⟨?_, of_decide_eq_true owned⟩
  cases answer : call.signer ⟨"relay_execute", call.dateNow.tmod 1000000, call.«to», call.amount,
      call.opts.asset.getD "XLM"⟩ with
  | error thrown =>
    rw [BuildCall.payload, buildSignedRelayPayload, answer] at produced
    cases produced
  | ok signed =>
    rw [BuildCall.payload, buildSignedRelayPayload, answer] at produced
    cases produced
    rfl

theorem sessionKey_of_mem (member : payload ∈ payloadsBy sessionKey calls) :
    payload.sessionKey = sessionKey := by
  obtain ⟨call, -, made⟩ := List.mem_filterMap.mp member
  exact (nonce_of_payloadBy made).2

theorem map_nonce_payloadsBy (sessionKey : String) (calls : List BuildCall) :
    (payloadsBy sessionKey calls).map (·.nonce) =
      (callsBy sessionKey calls).map (·.dateNow.tmod 1000000) := by
  induction calls with
  | nil => rfl
  | cons call calls ih =>
    cases made : call.payloadBy sessionKey with
    | none =>
      have skipped : payloadsBy sessionKey (call :: calls) = payloadsBy sessionKey calls :=
        List.filterMap_cons_none made
      have skippedCall : callsBy sessionKey (call :: calls) = callsBy sessionKey calls :=
        List.filter_cons_of_neg (by simp [made])
      rw [skipped, skippedCall, ih]
    | some payload =>
      have kept : payloadsBy sessionKey (call :: calls) =
          payload :: payloadsBy sessionKey calls :=
        List.filterMap_cons_some made
      have keptCall : callsBy sessionKey (call :: calls) = call :: callsBy sessionKey calls :=
        List.filter_cons_of_pos (by simp [made])
      rw [kept, keptCall, List.map_cons, List.map_cons, ih, (nonce_of_payloadBy made).1]

end Nonces

/-! ## The table over a run -/

section Table

variable {sessionKey : String} {payloads : List SignedRelayPayload}

/-- The rows of the session key are of requests that were tracked. -/
theorem tracked_of_mem_keys {operations : List TimedOperation} {nonce : Nonce}
    (others : ∀ timed ∈ operations, ∀ account nonce,
      timed.operation = .trackOther account nonce → account ≠ sessionKey)
    (member : (sessionKey, nonce) ∈ (performed payloads operations).keys) :
    ∃ timed ∈ operations, ∃ position payload, timed.operation = .track position ∧
      payloads[position]? = some payload ∧ payload.nonce = nonce := by
  induction operations using List.reverseRecOn with
  | nil => cases member
  | append_singleton operations last ih =>
    have earlier : (sessionKey, nonce) ∈ (performed payloads operations).keys →
        ∃ timed ∈ operations ++ [last], ∃ position payload, timed.operation = .track position ∧
          payloads[position]? = some payload ∧ payload.nonce = nonce := by
      intro recorded
      obtain ⟨timed, made, tracked⟩ :=
        ih (fun timed made => others timed (List.mem_append_left _ made)) recorded
      exact ⟨timed, List.mem_append_left _ made, tracked⟩
    have isLast : last ∈ operations ++ [last] := by simp
    rw [performed, List.foldl_append, List.foldl_cons, List.foldl_nil] at member
    change (sessionKey, nonce) ∈
      (perform payloads (performed payloads operations) last).keys at member
    unfold perform at member
    cases operation : last.operation with
    | assertFresh position =>
      rw [operation] at member
      exact earlier member
    | track position =>
      rw [operation] at member
      cases found : payloads[position]? with
      | none =>
        simp only [found] at member
        exact earlier member
      | some payload =>
        simp only [found] at member
        rcases (UsedNonces.keys_track ..).mp member with same | recorded
        · exact ⟨last, isLast, position, payload, operation, found, (congrArg Prod.snd same).symm⟩
        · exact earlier recorded
    | trackOther account other =>
      rw [operation] at member
      rcases (UsedNonces.keys_track ..).mp member with same | recorded
      · exact absurd (congrArg Prod.fst same).symm (others last isLast account other operation)
      · exact earlier recorded
    | clearExpired =>
      rw [operation] at member
      exact earlier (UsedNonces.mem_keys_clearExpired member)

theorem neverRejects_of_nodup {operations : List TimedOperation}
    (owned : ∀ payload ∈ payloads, payload.sessionKey = sessionKey)
    (distinct : (payloads.map (·.nonce)).Nodup) (requests : NewRequests sessionKey operations) :
    NeverRejects payloads operations := by
  rintro before now position after payload rfl found
  have owner := owned payload (List.mem_of_getElem? found)
  rw [UsedNonces.assertFresh, if_neg]
  rw [owner]
  intro recorded
  obtain ⟨timed, made, other, tracked, operation, foundOther, same⟩ := tracked_of_mem_keys
    (fun timed made => requests.others timed (List.mem_append_left _ made)) recorded
  -- the row is of a request at another position, as this one was not tracked before
  have apart : other ≠ position := by
    rintro rfl
    exact requests.untracked before now other after rfl timed made operation
  have nonce : (payloads.map (·.nonce))[position]? = some payload.nonce := by
    rw [List.getElem?_map, found, Option.map_some]
  have nonceOther : (payloads.map (·.nonce))[other]? = some payload.nonce := by
    rw [List.getElem?_map, foundOther, Option.map_some, same]
  have inside : other < (payloads.map (·.nonce)).length :=
    (List.getElem?_eq_some_iff.mp nonceOther).1
  exact apart ((List.getElem?_inj inside distinct).mp (nonceOther.trans nonce.symm))

end Table

/-- The nonces of a session key stay fresh exactly when no two of the times at which its payloads
were built leave the same rest modulo 1,000,000 milliseconds. -/
theorem staysFresh_iff (sessionKey : String) (calls : List BuildCall) :
    StaysFresh sessionKey calls ↔
      ((callsBy sessionKey calls).map (·.dateNow.tmod 1000000)).Nodup := by
  rw [← map_nonce_payloadsBy]
  constructor
  · intro fresh
    exact fresh.distinct
  · intro distinct
    exact ⟨distinct, fun operations => neverRejects_of_nodup (fun _ => sessionKey_of_mem) distinct⟩

/-! ### The period -/

/-- A call at a time, for one lumen, with a signer that has one key. -/
def callAt (dateNow : Millis) : BuildCall :=
  ⟨dateNow, "recipient", "1", fun _ => .ok ("session-key", "signature"), {}⟩

/-- Two calls that are 1,000,000 milliseconds apart: the relayer rejects the second request. -/
theorem nonce_comes_again :
    ((callsBy "session-key" [callAt 1700000000000, callAt 1700001000000]).map (·.dateNow)) =
        [1700000000000, 1700001000000] ∧
      ¬ StaysFresh "session-key" [callAt 1700000000000, callAt 1700001000000] ∧
      (performed (payloadsBy "session-key" [callAt 1700000000000, callAt 1700001000000])
        [⟨1700000000500, .assertFresh 0⟩, ⟨1700000000600, .track 0⟩]).assertFresh "session-key" 0 =
        .error (.error "Nonce already used") := by
  have nonces : (payloadsBy "session-key" [callAt 1700000000000, callAt 1700001000000]).map
      (·.nonce) = [0, 0] := rfl
  refine ⟨rfl, fun fresh => ?_, rfl⟩
  have distinct := fresh.distinct
  rw [nonces] at distinct
  exact absurd distinct (by decide)

end Ancore.Relay.ClientNonces
