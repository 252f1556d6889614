import Ancore.Account.Contract

/-! # The account contract: inverting the entry points

One lemma for each part and entry point of the contract: what it has checked
when it succeeds, the storage it leaves and the effects it had.  Who authorized
a call is told by three structures, one for each kind of authority.
-/

namespace Ancore.Account

open Ancore.Library Ancore.Library.FixedWidth Ancore.Soroban

/-! ## Storage updates -/

section Updates

variable {storage : Storage} {publicKey other : PublicKey} {session : SessionKey}

@[simp] theorem Storage.setSessionKey_same :
    (storage.setSessionKey publicKey session).sessionKey publicKey = some session := by
  simp [Storage.setSessionKey]

@[simp] theorem Storage.setSessionKey_ne (distinct : other ≠ publicKey) :
    (storage.setSessionKey publicKey session).sessionKey other = storage.sessionKey other := by
  simp [Storage.setSessionKey, distinct]

@[simp] theorem Storage.removeSessionKey_same :
    (storage.removeSessionKey publicKey).sessionKey publicKey = none := by
  simp [Storage.removeSessionKey]

@[simp] theorem Storage.removeSessionKey_ne (distinct : other ≠ publicKey) :
    (storage.removeSessionKey publicKey).sessionKey other = storage.sessionKey other := by
  simp [Storage.removeSessionKey, distinct]

/-- Writing back what is stored changes nothing. -/
theorem Storage.setSessionKey_stored (stored : storage.sessionKey publicKey = some session) :
    storage.setSessionKey publicKey session = storage := by
  simp only [Storage.setSessionKey, ← stored, Function.update_eq_self]

end Updates

/-! ## Authority -/

/-- The registered owner, who authorizes the call. -/
structure OwnerAuthority (env : Env) (storage : Storage) (owner : Address) : Prop where
  registered : storage.owner = some owner
  authorized : env.authorized owner = true

/-- The distinct signers of a quorum call: owners that all authorize it, as many as the threshold
asks for. -/
structure QuorumAuthority (env : Env) (storage : Storage) (owners : List Address)
    (threshold : UInt32) (distinct : List Address) : Prop where
  registered : storage.owners = some owners
  required : storage.threshold = some threshold
  nodup : distinct.Nodup
  subset : ∀ signer ∈ distinct, signer ∈ owners
  authorized : ∀ signer ∈ distinct, env.authorized signer = true
  enough : threshold.toNat ≤ distinct.length

/-- A stored session key under which the request's signature verifies. -/
structure SessionAuthority (env : Env) (storage : Storage) (request : ExecuteRequest)
    (publicKey : PublicKey) (session : SessionKey) (payload : Bytes) : Prop where
  stored : storage.sessionKey publicKey = some session
  live : env.timestamp < session.expiresAt
  permitted : permissionExecute ∈ session.permissions
  allowed : allowlistPermitsAddress session.allowedContracts request.target = true
  withinLimits : checkSessionSpendLimits env.timestamp session request.args = .ok ()
  supplied : request.signaturePayload = some payload
  canonical : canonicalExecuteSigningPayload request.target request.function request.args
    request.expectedNonce = some payload
  verified : ∃ signature, request.signature = some signature ∧
    env.ed25519Verify publicKey payload signature = true

section Guards

variable {env : Env} {frame : Frame Storage PublicKey Event}
  {done : Unit × Frame Storage PublicKey Event}

/-- The frame after `require_auth` succeeded on these addresses. -/
def authorizedFrame (frame : Frame Storage PublicKey Event) (authorizers : List Address) :
    Frame Storage PublicKey Event :=
  { frame with effects := frame.effects ++ authorizers.map Effect.auth }

@[simp] theorem requireOwnerAuth_ok :
    requireOwnerAuth env frame = .ok done ↔
      ∃ owner, OwnerAuthority env frame.storage owner ∧
        done = ((), authorizedFrame frame [owner]) := by
  constructor
  · intro performed
    simp only [requireOwnerAuth, getOwner, bind_ok, getStorage_ok, okOr_ok, requireAuth_ok,
      Prod.mk.injEq] at performed
    obtain ⟨owner, _, ⟨storage, _, ⟨rfl, rfl⟩, registered, rfl⟩, authorized, rfl⟩ := performed
    exact ⟨owner, ⟨registered, authorized⟩, rfl⟩
  · rintro ⟨owner, ⟨registered, authorized⟩, rfl⟩
    simp [requireOwnerAuth, getOwner, registered, authorized, authorizedFrame]

/-- The quorum loop adds each new signer once, an owner that authorizes the call. -/
theorem authorizeSigners_ok {owners distinct signers : List Address}
    {result : List Address × Frame Storage PublicKey Event}
    (performed : authorizeSigners owners distinct signers env frame = .ok result) :
    ∃ added, result = (distinct ++ added, authorizedFrame frame added) ∧
      (distinct.Nodup → (distinct ++ added).Nodup) ∧
      ∀ signer ∈ added, signer ∈ owners ∧ env.authorized signer = true := by
  induction signers generalizing distinct frame with
  | nil =>
    simp only [authorizeSigners, pure_ok] at performed
    exact ⟨[], by simp [performed, authorizedFrame], by simp, by simp⟩
  | cons signer signers inductionHypothesis =>
    simp only [authorizeSigners, bind_ok, failIf_ok] at performed
    obtain ⟨_, _, ⟨member, same⟩, performed⟩ := performed
    cases same
    have owned : signer ∈ owners := by simpa using member
    -- A signer seen before is skipped; a new one authorizes the call and joins the distinct ones.
    split at performed
    · exact inductionHypothesis performed
    · rename_i fresh
      simp only [bind_ok, requireAuth_ok] at performed
      obtain ⟨_, _, ⟨authorized, same⟩, performed⟩ := performed
      cases same
      obtain ⟨added, rfl, nodup, each⟩ := inductionHypothesis performed
      refine ⟨signer :: added, by simp [authorizedFrame], ?_, ?_⟩
      · intro distinctNodup
        have extended : (distinct ++ [signer]).Nodup := by
          rw [List.nodup_append]
          refine ⟨distinctNodup, List.nodup_singleton signer, ?_⟩
          rintro a seen b isSigner rfl
          exact fresh (by simpa using List.mem_singleton.mp isSigner ▸ seen)
        simpa using nodup extended
      · intro other member
        cases member with
        | head => exact ⟨owned, authorized⟩
        | tail _ member => exact each other member

theorem requireStoredQuorum_ok {signers : List Address}
    {result : List Address × Frame Storage PublicKey Event}
    (performed : requireStoredQuorum signers env frame = .ok result) :
    ∃ owners threshold distinct, QuorumAuthority env frame.storage owners threshold distinct ∧
      result = (owners, authorizedFrame frame distinct) := by
  simp only [requireStoredQuorum, requireMultiOwnerQuorum, bind_ok, getStorage_ok, okOr_ok,
    failIf_ok, pure_ok, Prod.mk.injEq, true_and] at performed
  obtain ⟨_, _, ⟨rfl, rfl⟩, owners, _, ⟨ownersStored, rfl⟩, threshold, _,
    ⟨thresholdStored, rfl⟩, _, _, ⟨distinct, _, signed, enough, rfl⟩, rfl⟩ := performed
  obtain ⟨added, equal, nodup, each⟩ := authorizeSigners_ok signed
  simp only [List.nil_append, Prod.mk.injEq] at equal
  obtain ⟨rfl, rfl⟩ := equal
  refine ⟨owners, threshold, distinct, ?_, rfl⟩
  exact {
    registered := ownersStored
    required := thresholdStored
    nodup := by simpa using nodup List.nodup_nil
    subset := fun signer member => (each signer member).1
    authorized := fun signer member => (each signer member).2
    enough := by simpa using enough }

theorem authorizeSessionKey_ok {request : ExecuteRequest} {publicKey : PublicKey} :
    authorizeSessionKey request publicKey env frame = .ok done →
      ∃ session payload, SessionAuthority env frame.storage request publicKey session payload ∧
        done = ((), frame) := by
  intro performed
  simp only [authorizeSessionKey, bind_ok, getStorage_ok, getEnv_ok, okOr_ok, failIf_ok,
    liftResult_ok, unwrap_ok, ed25519Verify_ok, Prod.mk.injEq, true_and, and_assoc,
    exists_and_left, exists_eq_left, exists_const] at performed
  obtain ⟨sessionPk, _, matching, session, stored, live, permitted, allowed, _, withinLimits,
    signature, signed, payload, supplied, expected, canonical, bound, verified, rfl⟩ := performed
  -- The key and the payload supplied are compared with the expected ones; identify them.
  have samePk : sessionPk = publicKey := by simpa using matching
  have samePayload : payload = expected := by simpa using bound
  subst samePk samePayload
  refine ⟨session, payload, ?_, rfl⟩
  exact {
    stored := stored
    live := by simpa [sessionKeyIsExpired] using live
    permitted := by simpa using permitted
    allowed := by simpa using allowed
    withinLimits := withinLimits
    supplied := supplied
    canonical := canonical
    verified := ⟨signature, signed, verified⟩ }

end Guards

/-! ## Owner operations -/

/-- The effects of an owner operation: the owner's authorization, the work, the instance bump and
the event. -/
def ownerEffects (owner : Address) (work : List AccountEffect) (event : Event) :
    List AccountEffect :=
  .auth owner :: work ++ [.extendInstanceTtl instanceBumpThreshold instanceBumpAmount, .event event]

/-- The record `add_session_key` stores. -/
def SessionKeyRequest.toSessionKey (request : SessionKeyRequest) (expiresAtSecs now : UInt64) :
    SessionKey where
  publicKey := request.publicKey
  expiresAt := expiresAtSecs
  permissions := request.permissions
  allowedContracts := request.allowedContracts
  maxAmountPerCall := request.maxAmountPerCall
  cumulativeLimit := request.cumulativeLimit
  spendWindowStart := now
  spendWindowSeconds := request.spendWindowSeconds
  spentInWindow := 0

/-- The TTL extension of a session key's entry. -/
def ttlEffect (publicKey : PublicKey) (expiresAt now : UInt64) : AccountEffect :=
  .extendPersistentTtl publicKey (saturatingSub (ledgersToLive expiresAt now) (dayInLedgers / 2))
    (ledgersToLive expiresAt now)

section OwnerOperations

variable {env : Env} {frame : Frame Storage PublicKey Event}
  {done : Unit × Frame Storage PublicKey Event}

attribute [local simp] authorizedFrame bumpInstance publish extendInstanceTtl extendPersistentTtl
  extendSessionKeyTtl ownerEffects ttlEffect

theorem initializeAccount_ok {owner : Address} :
    initializeAccount owner env frame = .ok done ↔
      frame.storage.owner = none ∧ env.authorized owner = true ∧
        done = ((), ⟨{ frame.storage with owner := some owner, nonce := some 0, version := some 1 },
          frame.effects ++ ownerEffects owner [] (.initialized owner)⟩) := by
  simp [initializeAccount]

theorem addSessionKey_ok {request : SessionKeyRequest} :
    addSessionKey request env frame = .ok done ↔
      request.expiresAt ≠ 0 ∧
      validateSpendPolicy request.maxAmountPerCall request.cumulativeLimit
        request.spendWindowSeconds = .ok () ∧
      ∃ owner, OwnerAuthority env frame.storage owner ∧
        request.permissions.length ≤ permissionBufferLength ∧
        validatePermissions request.permissions = .ok () ∧
        rejectZeroAllowedContracts request.allowedContracts = .ok () ∧
        frame.storage.sessionKey request.publicKey = none ∧
        ∃ expiresAtSecs, normalizeExpiryTimestamp request.expiresAt = .ok expiresAtSecs ∧
          validateExpiry expiresAtSecs env.timestamp = .ok () ∧
          done = ((), ⟨frame.storage.setSessionKey request.publicKey
              (request.toSessionKey expiresAtSecs env.timestamp),
            frame.effects ++ ownerEffects owner
              [ttlEffect request.publicKey expiresAtSecs env.timestamp]
              (.sessionKeyAdded request.publicKey expiresAtSecs)⟩) := by
  simp [addSessionKey, SessionKeyRequest.toSessionKey, Unique.exists_iff]

theorem revokeSessionKey_ok {publicKey : PublicKey} :
    revokeSessionKey publicKey env frame = .ok done ↔
      ∃ owner, OwnerAuthority env frame.storage owner ∧
        (frame.storage.sessionKey publicKey).isSome ∧
        done = ((), ⟨frame.storage.removeSessionKey publicKey,
          frame.effects ++ ownerEffects owner [] (.sessionKeyRevoked publicKey)⟩) := by
  simp [revokeSessionKey]

theorem setAllowedContracts_ok {publicKey : PublicKey} {allowed : Option (List Address)} :
    setAllowedContracts publicKey allowed env frame = .ok done ↔
      ∃ owner, OwnerAuthority env frame.storage owner ∧
        ∃ session, frame.storage.sessionKey publicKey = some session ∧
          rejectZeroAllowedContracts allowed = .ok () ∧
          done = ((), ⟨frame.storage.setSessionKey publicKey
              { session with allowedContracts := allowed },
            frame.effects ++ ownerEffects owner [] (.allowedContractsSet publicKey allowed)⟩) := by
  simp [setAllowedContracts, Unique.exists_iff]

theorem setExpiry_of_stored {storage : Storage} {publicKey : PublicKey} {session : SessionKey}
    (stored : storage.sessionKey publicKey = some session) (expiry : UInt64) :
    (if expiry = session.expiresAt then storage
      else storage.setSessionKey publicKey { session with expiresAt := expiry }) =
      storage.setSessionKey publicKey { session with expiresAt := expiry } := by
  split
  · rename_i unchanged
    rw [unchanged]
    exact (Storage.setSessionKey_stored stored).symm
  · rfl

theorem refreshSessionKeyTtl_ok {publicKey : PublicKey} :
    refreshSessionKeyTtl publicKey env frame = .ok done ↔
      ∃ owner, OwnerAuthority env frame.storage owner ∧
        ∃ session, frame.storage.sessionKey publicKey = some session ∧
          env.timestamp < session.expiresAt ∧
          ∃ expiry, normalizeExpiryTimestamp session.expiresAt = .ok expiry ∧
            done = ((), ⟨frame.storage.setSessionKey publicKey { session with expiresAt := expiry },
              frame.effects ++ ownerEffects owner [ttlEffect publicKey expiry env.timestamp]
                (.sessionKeyTtlRefreshed publicKey expiry) ++
                  [.event (.sessionKeyRefreshed publicKey expiry)]⟩) := by
  constructor
  · intro performed
    simp only [refreshSessionKeyTtl, bind_ok, requireOwnerAuth_ok, getStorage_ok, getEnv_ok,
      okOr_ok, failIf_ok, liftResult_ok, modifyStorage_ok, Prod.mk.injEq, true_and, and_assoc,
      exists_and_left, exists_eq_left, exists_const] at performed
    obtain ⟨_, ⟨owner, authority, rfl⟩, session, stored, live, expiry, normalized, published⟩ :=
      performed
    -- The entry is written only where normalizing changed it; otherwise the write is the identity.
    rw [ite_not, setExpiry_of_stored stored] at published
    refine ⟨owner, authority, session, stored, by simpa using live, expiry, normalized, ?_⟩
    simpa using published
  · rintro ⟨owner, authority, session, stored, live, expiry, normalized, rfl⟩
    simp [refreshSessionKeyTtl, authority, stored, live, normalized, setExpiry_of_stored stored]

theorem registerModule_ok {module : Address} :
    registerModule module env frame = .ok done ↔
      ∃ owner, OwnerAuthority env frame.storage owner ∧
        done = ((), ⟨{ frame.storage with
            validationModules := some (if frame.storage.getModules.contains module
              then frame.storage.getModules else frame.storage.getModules ++ [module]) },
          frame.effects ++ ownerEffects owner [] (.moduleRegistered module)⟩) := by
  simp [registerModule]

theorem unregisterModule_ok {module : Address} :
    unregisterModule module env frame = .ok done ↔
      ∃ owner, OwnerAuthority env frame.storage owner ∧
        done = ((), ⟨{ frame.storage with
            validationModules := some (frame.storage.getModules.filter (· != module)) },
          frame.effects ++ ownerEffects owner [] (.moduleUnregistered module)⟩) := by
  simp [unregisterModule]

theorem upgrade_ok {newWasmHash : BytesN 32} :
    upgrade newWasmHash env frame = .ok done ↔
      ∃ owner, OwnerAuthority env frame.storage owner ∧ newWasmHash ≠ zeroBytes ∧
        ∃ nextVersion : UInt32, nextVersion.toNat = frame.storage.getVersion.toNat + 1 ∧
          env.wasmUploaded newWasmHash = true ∧
          done = ((), ⟨{ frame.storage with version := some nextVersion },
            frame.effects ++ ownerEffects owner [.updateWasm newWasmHash]
              (.upgraded newWasmHash)⟩) := by
  simp [upgrade, checkedAdd_uint32_eq_some, Subtype.ext_iff]

theorem migrate_ok {newVersion : UInt32} :
    migrate newVersion env frame = .ok done ↔
      ∃ owner, OwnerAuthority env frame.storage owner ∧ frame.storage.getVersion < newVersion ∧
        done = ((), ⟨{ frame.storage with version := some newVersion },
          frame.effects ++ ownerEffects owner []
            (.migrated frame.storage.getVersion newVersion)⟩) := by
  simp [migrate]

theorem checkOwnersUnique_ok {seen owners : List Address} :
    checkOwnersUnique seen owners = .ok () ↔ owners.Nodup ∧ ∀ owner ∈ owners, owner ∉ seen := by
  induction owners generalizing seen with
  | nil => simp [checkOwnersUnique]
  | cons owner owners inductionHypothesis =>
    simp only [checkOwnersUnique, ite_error_eq_ok, inductionHypothesis, List.nodup_cons,
      List.contains_iff_mem, List.mem_append, List.mem_singleton, List.forall_mem_cons, not_or]
    constructor
    · rintro ⟨fresh, nodup, others⟩
      exact ⟨⟨fun member => (others owner member).2 rfl, nodup⟩, fresh,
        fun other member => (others other member).1⟩
    · rintro ⟨⟨unlisted, nodup⟩, fresh, unseen⟩
      refine ⟨fresh, nodup, fun other member => ⟨unseen other member, ?_⟩⟩
      rintro rfl
      exact unlisted member

theorem initializeMultiOwner_ok {owners : List Address} {threshold : UInt32} :
    initializeMultiOwner owners threshold env frame = .ok done ↔
      frame.storage.owners = none ∧
      ∃ owner, OwnerAuthority env frame.storage owner ∧ owners ≠ [] ∧
        threshold ≠ 0 ∧ threshold.toNat ≤ owners.length ∧ owners.Nodup ∧
        done = ((), ⟨{ frame.storage with owners := some owners, threshold := some threshold },
          frame.effects ++ [.auth owner,
            .extendInstanceTtl instanceBumpThreshold instanceBumpAmount]⟩) := by
  simp [initializeMultiOwner, checkOwnersUnique_ok, Unique.exists_iff, and_assoc]

end OwnerOperations

/-! ## Quorum operations -/

section QuorumOperations

variable {env : Env} {frame : Frame Storage PublicKey Event}
  {done : Unit × Frame Storage PublicKey Event} {signers : List Address}

/-- The effects of a quorum operation. -/
def quorumEffects (distinct : List Address) (event : Event) : List AccountEffect :=
  distinct.map Effect.auth ++
    [.extendInstanceTtl instanceBumpThreshold instanceBumpAmount, .event event]

attribute [local simp] authorizedFrame bumpInstance publish extendInstanceTtl quorumEffects

theorem addOwner_ok {newOwner : Address}
    (performed : addOwner signers newOwner env frame = .ok done) :
    ∃ owners threshold distinct, QuorumAuthority env frame.storage owners threshold distinct ∧
      newOwner ∉ owners ∧
      done = ((), ⟨{ frame.storage with owners := some (owners ++ [newOwner]) },
        frame.effects ++ quorumEffects distinct (.ownerAdded newOwner)⟩) := by
  simp only [addOwner, bind_ok, failIf_ok] at performed
  obtain ⟨owners, _, quorum, _, _, ⟨fresh, same⟩, performed⟩ := performed
  obtain ⟨owners, threshold, distinct, authority, equal⟩ := requireStoredQuorum_ok quorum
  cases same
  cases equal
  refine ⟨owners, threshold, distinct, authority, by simpa using fresh, ?_⟩
  simpa using performed

/-- The threshold after an owner was removed. -/
def clampedThreshold (threshold : UInt32) (updated : List Address) : UInt32 :=
  if threshold.toNat > updated.length then UInt32.ofNat updated.length else threshold

theorem removeOwner_ok {ownerToRemove : Address}
    (performed : removeOwner signers ownerToRemove env frame = .ok done) :
    ∃ owners threshold distinct, QuorumAuthority env frame.storage owners threshold distinct ∧
      ownerToRemove ∈ owners ∧ 1 < owners.length ∧
      done = ((), ⟨{ frame.storage with
          owners := some (owners.filter (· != ownerToRemove))
          threshold := some (clampedThreshold threshold (owners.filter (· != ownerToRemove))) },
        frame.effects ++ quorumEffects distinct (.ownerRemoved ownerToRemove)⟩) := by
  simp only [removeOwner, bind_ok, failIf_ok] at performed
  obtain ⟨owners, _, quorum, _, _, ⟨member, same⟩, _, _, ⟨several, same'⟩, performed⟩ := performed
  obtain ⟨owners, threshold, distinct, authority, equal⟩ := requireStoredQuorum_ok quorum
  cases same
  cases same'
  cases equal
  refine ⟨owners, threshold, distinct, authority, by simpa using member,
    by simpa using several, ?_⟩
  -- The second write clamps the threshold that the quorum check read.
  by_cases exceeds : (owners.filter (· != ownerToRemove)).length < threshold.toNat <;>
    simpa [authority.required, clampedThreshold, exceeds] using performed

theorem setThreshold_ok {newThreshold : UInt32}
    (performed : setThreshold signers newThreshold env frame = .ok done) :
    ∃ owners threshold distinct, QuorumAuthority env frame.storage owners threshold distinct ∧
      newThreshold ≠ 0 ∧ newThreshold.toNat ≤ owners.length ∧
      done = ((), ⟨{ frame.storage with threshold := some newThreshold },
        frame.effects ++ quorumEffects distinct (.thresholdChanged newThreshold)⟩) := by
  simp only [setThreshold, bind_ok, failIf_ok] at performed
  obtain ⟨owners, _, quorum, _, _, ⟨accepted, same⟩, performed⟩ := performed
  obtain ⟨owners, threshold, distinct, authority, equal⟩ := requireStoredQuorum_ok quorum
  cases same
  cases equal
  simp only [Bool.or_eq_false_iff, beq_eq_false_iff_ne, decide_eq_false_iff_not, not_lt]
    at accepted
  refine ⟨owners, threshold, distinct, authority, accepted.1, accepted.2, ?_⟩
  simpa using performed

end QuorumOperations

/-! ## Execution -/

/-- Who a caller path answers to, and whose `require_auth` it needed. -/
inductive CallerAuthority (env : Env) (storage : Storage) (request : ExecuteRequest) :
    List Address → Prop
  | owner {owner : Address} (caller : request.caller = .owner)
      (authority : OwnerAuthority env storage owner) :
      CallerAuthority env storage request [owner]
  | quorum {signers owners distinct : List Address} {threshold : UInt32}
      (caller : request.caller = .quorum signers)
      (authority : QuorumAuthority env storage owners threshold distinct) :
      CallerAuthority env storage request distinct
  | session {publicKey : PublicKey} {session : SessionKey} {payload : Bytes}
      (caller : request.caller = .sessionKey publicKey)
      (authority : SessionAuthority env storage request publicKey session payload) :
      CallerAuthority env storage request []

/-- What `execute` writes after the invocation; other callers than session keys write nothing. -/
inductive SpendWrittenBack (now : UInt64) (request : ExecuteRequest) (storage : Storage) :
    Storage → Prop
  | unchanged (caller : ∀ publicKey, request.caller ≠ .sessionKey publicKey) :
      SpendWrittenBack now request storage storage
  | session {publicKey : PublicKey} {session spent : SessionKey}
      (caller : request.caller = .sessionKey publicKey)
      (stored : storage.sessionKey publicKey = some session)
      (applied : applySpendUsage now session request.args = .ok spent) :
      SpendWrittenBack now request storage (storage.setSessionKey publicKey spent)

/-- The request's nonce is the current one, and `next` follows it. -/
structure NonceAdvance (storage : Storage) (request : ExecuteRequest) (next : UInt64) : Prop where
  expected : request.expectedNonce = storage.getNonce
  advanced : next.toNat = storage.getNonce.toNat + 1

def validationCall (request : ExecuteRequest) (module : Address) : Soroban.Invocation :=
  ⟨module, validateSymbol,
    [.address request.target, .symbol request.function, .vec request.args]⟩

section Execution

variable {env : Env} {frame : Frame Storage PublicKey Event}
  {done : Unit × Frame Storage PublicKey Event} {request : ExecuteRequest}

theorem authorizeCaller_ok (performed : authorizeCaller request env frame = .ok done) :
    ∃ authorizers, CallerAuthority env frame.storage request authorizers ∧
      done = ((), authorizedFrame frame authorizers) := by
  cases caller : request.caller with
  | owner =>
    simp only [authorizeCaller, caller, rejectSessionParameters, bind_ok, failIf_ok,
      requireOwnerAuth_ok, Prod.mk.injEq, true_and] at performed
    obtain ⟨_, _, ⟨_, rfl⟩, owner, authority, rfl⟩ := performed
    exact ⟨[owner], .owner caller authority, rfl⟩
  | quorum signers =>
    simp only [authorizeCaller, caller, rejectSessionParameters, bind_ok, failIf_ok, pure_ok]
      at performed
    obtain ⟨_, _, ⟨_, same⟩, _, _, quorum, rfl⟩ := performed
    cases same
    obtain ⟨owners, threshold, distinct, authority, equal⟩ := requireStoredQuorum_ok quorum
    cases equal
    exact ⟨distinct, .quorum caller authority, rfl⟩
  | sessionKey publicKey =>
    simp only [authorizeCaller, caller] at performed
    obtain ⟨session, payload, authority, rfl⟩ := authorizeSessionKey_ok performed
    exact ⟨[], .session caller authority, by simp [authorizedFrame]⟩

theorem readValidationResult_ok {value : Val}
    (performed : readValidationResult value env frame = .ok done) :
    value = .void ∧ done = ((), frame) := by
  cases value with
  | void => exact ⟨rfl, by simpa [readValidationResult] using performed⟩
  | error kind code =>
    simp only [readValidationResult] at performed
    split at performed <;> simp at performed
  | _ => simp [readValidationResult] at performed

theorem runValidationModules_ok {modules : List Address}
    (performed : runValidationModules request modules env frame = .ok done) :
    done = ((), { frame with
      effects := frame.effects ++ modules.map fun module => .call (validationCall request module) })
      ∧ ∀ module ∈ modules, module ≠ env.currentContract := by
  induction modules generalizing frame with
  | nil =>
    simp only [runValidationModules, pure_ok] at performed
    exact ⟨by simp [performed], by simp⟩
  | cons module modules inductionHypothesis =>
    simp only [runValidationModules, bind_ok, invokeContract_ok] at performed
    obtain ⟨value, _, ⟨foreign, _, rfl⟩, _, _, read, performed⟩ := performed
    obtain ⟨_, same⟩ := readValidationResult_ok read
    cases same
    obtain ⟨equal, others⟩ := inductionHypothesis performed
    refine ⟨by simp [equal, validationCall], ?_⟩
    simpa [foreign] using others

theorem applySpendUsage_unlimited {now : UInt64} {session : SessionKey} {args : List Val}
    (unlimited : session.cumulativeLimit = none) :
    applySpendUsage now session args = .ok session := by
  simp only [applySpendUsage, unlimited]
  cases extractSpendAmount args <;> rfl

/-- Accounting a spend touches the window start and the amount spent, nothing else. -/
theorem applySpendUsage_ok {now : UInt64} {session spent : SessionKey} {args : List Val}
    (applied : applySpendUsage now session args = .ok spent) :
    ∃ start amount,
      spent = { session with spendWindowStart := start, spentInWindow := amount } := by
  simp only [applySpendUsage] at applied
  split at applied
  · cases applied
    exact ⟨_, _, rfl⟩
  · split at applied
    · cases applied
      exact ⟨_, _, rfl⟩
    · split at applied
      · cases applied
      · cases applied
        simp only [SessionKey.rollWindow]
        split
        · exact ⟨_, _, rfl⟩
        · exact ⟨_, _, rfl⟩

theorem writeBackSpend_ok (performed : writeBackSpend request env frame = .ok done)
    (stored : ∀ publicKey, request.caller = .sessionKey publicKey →
      (frame.storage.sessionKey publicKey).isSome) :
    ∃ after, SpendWrittenBack env.timestamp request frame.storage after ∧
      done = ((), { frame with storage := after }) := by
  cases caller : request.caller with
  | owner =>
    simp only [writeBackSpend, caller, pure_ok] at performed
    exact ⟨_, .unchanged (by simp [caller]), performed⟩
  | quorum signers =>
    simp only [writeBackSpend, caller, pure_ok] at performed
    exact ⟨_, .unchanged (by simp [caller]), performed⟩
  | sessionKey publicKey =>
    -- The callee cannot have touched the entry, so the key is still stored.
    obtain ⟨session, present⟩ := Option.isSome_iff_exists.mp (stored publicKey caller)
    simp only [writeBackSpend, caller, bind_ok, getStorage_ok, Prod.mk.injEq] at performed
    obtain ⟨_, _, ⟨rfl, rfl⟩, performed⟩ := performed
    simp only [present, bind_ok, getEnv_ok, liftResult_ok, Prod.mk.injEq] at performed
    obtain ⟨_, _, ⟨rfl, rfl⟩, spent, _, ⟨applied, rfl⟩, performed⟩ := performed
    refine ⟨_, .session caller present applied, ?_⟩
    split at performed
    · simpa using performed
    · -- without a cumulative limit nothing is written, and accounting changed nothing
      rename_i unlimited
      obtain ⟨start, amount, rfl⟩ := applySpendUsage_ok applied
      rw [applySpendUsage_unlimited (by simpa using unlimited)] at applied
      rw [← Except.ok.inj applied, Storage.setSessionKey_stored present]
      simpa using performed

theorem execute_ok {result : Val × Frame Storage PublicKey Event}
    (performed : execute request env frame = .ok result) :
    ∃ authorizers next after, CallerAuthority env frame.storage request authorizers ∧
      NonceAdvance frame.storage request next ∧ request.target ≠ env.currentContract ∧
      (∀ module ∈ frame.storage.getModules, module ≠ env.currentContract) ∧
      SpendWrittenBack env.timestamp request { frame.storage with nonce := some next } after ∧
      result.2 = ⟨after, frame.effects ++ authorizers.map Effect.auth ++
        [.extendInstanceTtl instanceBumpThreshold instanceBumpAmount,
          .event (.executed request.target request.function request.expectedNonce)] ++
        (frame.storage.getModules.map fun module => .call (validationCall request module)) ++
        [.call ⟨request.target, request.function, request.args⟩]⟩ := by
  simp only [execute, bumpInstance, publish, extendInstanceTtl, bind_ok, getStorage_ok, failIf_ok,
    okOr_ok, modifyStorage_ok, emit_ok, invokeContract_ok, pure_ok, Prod.mk.injEq, true_and,
    and_assoc, exists_and_left, exists_eq_left, exists_const] at performed
  obtain ⟨matching, _, _, authorized, next, advanced, _, _, validated, foreign, value, _, _, _,
    written, rfl⟩ := performed
  obtain ⟨authorizers, authority, same⟩ := authorizeCaller_ok authorized
  cases same
  obtain ⟨same, foreignModules⟩ := runValidationModules_ok validated
  cases same
  -- The authorization read the very entry that the write-back finds again.
  obtain ⟨after, writtenBack, same⟩ := writeBackSpend_ok written (by
    intro publicKey caller
    cases authority with
    | owner caller' => simp [caller] at caller'
    | quorum caller' => simp [caller] at caller'
    | session caller' authority =>
      cases caller.symm.trans caller'
      simp [authorizedFrame, authority.stored])
  cases same
  have expected : request.expectedNonce = frame.storage.getNonce := by
    simpa [nonceMatches] using matching
  refine ⟨authorizers, next, after, authority, ⟨expected, ?_⟩, foreign, foreignModules,
    writtenBack, ?_⟩
  · simpa using checkedAdd_uint64_eq_some.mp advanced
  · simp [authorizedFrame, expected, Storage.getModules]

end Execution

end Ancore.Account
