import Ancore.Account.Steps

/-! # The account contract: the step relation

`Change env before call authorizers after` says, entry point by entry point,
what a successful call has checked, whose `require_auth` it needed and the
storage it leaves.  `step_change` derives it from the contract once; the laws
about runs only look at `Change`.
-/

namespace Ancore.Account

open Ancore.Library Ancore.Library.FixedWidth Ancore.Soroban

inductive Change (env : Env) (before : Storage) : Call → List Address → Storage → Prop
  | initializeAccount {owner : Address} (fresh : before.owner = none)
      (authorized : env.authorized owner = true) :
      Change env before (.initializeAccount owner) [owner]
        { before with owner := some owner, nonce := some 0, version := some 1 }
  | execute {request : ExecuteRequest} {authorizers : List Address} {next : UInt64}
      {after : Storage} (authority : CallerAuthority env before request authorizers)
      (nonce : NonceAdvance before request next)
      (written : SpendWrittenBack env.timestamp request { before with nonce := some next } after) :
      Change env before (.execute request) authorizers after
  | addSessionKey {request : SessionKeyRequest} {owner : Address} {expiresAtSecs : UInt64}
      (authority : OwnerAuthority env before owner)
      (policy : validateSpendPolicy request.maxAmountPerCall request.cumulativeLimit
        request.spendWindowSeconds = .ok ())
      (permissions : validatePermissions request.permissions = .ok ())
      (allowlist : rejectZeroAllowedContracts request.allowedContracts = .ok ())
      (absent : before.sessionKey request.publicKey = none)
      (normalized : normalizeExpiryTimestamp request.expiresAt = .ok expiresAtSecs)
      (future : env.timestamp < expiresAtSecs) :
      Change env before (.addSessionKey request) [owner]
        (before.setSessionKey request.publicKey
          (request.toSessionKey expiresAtSecs env.timestamp))
  | revokeSessionKey {publicKey : PublicKey} {owner : Address}
      (authority : OwnerAuthority env before owner)
      (stored : (before.sessionKey publicKey).isSome) :
      Change env before (.revokeSessionKey publicKey) [owner] (before.removeSessionKey publicKey)
  | setAllowedContracts {publicKey : PublicKey} {allowed : Option (List Address)}
      {owner : Address} {session : SessionKey} (authority : OwnerAuthority env before owner)
      (stored : before.sessionKey publicKey = some session)
      (allowlist : rejectZeroAllowedContracts allowed = .ok ()) :
      Change env before (.setAllowedContracts publicKey allowed) [owner]
        (before.setSessionKey publicKey { session with allowedContracts := allowed })
  | refreshSessionKeyTtl {publicKey : PublicKey} {owner : Address} {session : SessionKey}
      {expiry : UInt64} (authority : OwnerAuthority env before owner)
      (stored : before.sessionKey publicKey = some session)
      (live : env.timestamp < session.expiresAt)
      (normalized : normalizeExpiryTimestamp session.expiresAt = .ok expiry) :
      Change env before (.refreshSessionKeyTtl publicKey) [owner]
        (before.setSessionKey publicKey { session with expiresAt := expiry })
  | registerModule {module owner : Address} (authority : OwnerAuthority env before owner) :
      Change env before (.registerModule module) [owner] { before with
        validationModules := some (if before.getModules.contains module
          then before.getModules else before.getModules ++ [module]) }
  | unregisterModule {module owner : Address} (authority : OwnerAuthority env before owner) :
      Change env before (.unregisterModule module) [owner] { before with
        validationModules := some (before.getModules.filter (· != module)) }
  | initializeMultiOwner {owners : List Address} {threshold : UInt32} {owner : Address}
      (fresh : before.owners = none) (authority : OwnerAuthority env before owner)
      (nonempty : owners ≠ []) (positive : threshold ≠ 0)
      (enough : threshold.toNat ≤ owners.length) (nodup : owners.Nodup) :
      Change env before (.initializeMultiOwner owners threshold) [owner]
        { before with owners := some owners, threshold := some threshold }
  | addOwner {signers owners distinct : List Address} {threshold : UInt32} {newOwner : Address}
      (authority : QuorumAuthority env before owners threshold distinct)
      (fresh : newOwner ∉ owners) :
      Change env before (.addOwner signers newOwner) distinct
        { before with owners := some (owners ++ [newOwner]) }
  | removeOwner {signers owners distinct : List Address} {threshold : UInt32}
      {ownerToRemove : Address} (authority : QuorumAuthority env before owners threshold distinct)
      (member : ownerToRemove ∈ owners) (several : 1 < owners.length) :
      Change env before (.removeOwner signers ownerToRemove) distinct { before with
        owners := some (owners.filter (· != ownerToRemove))
        threshold := some (clampedThreshold threshold (owners.filter (· != ownerToRemove))) }
  | setThreshold {signers owners distinct : List Address} {threshold newThreshold : UInt32}
      (authority : QuorumAuthority env before owners threshold distinct)
      (positive : newThreshold ≠ 0) (enough : newThreshold.toNat ≤ owners.length) :
      Change env before (.setThreshold signers newThreshold) distinct
        { before with threshold := some newThreshold }
  | upgrade {newWasmHash : BytesN 32} {owner : Address} {nextVersion : UInt32}
      (authority : OwnerAuthority env before owner) (nonzero : newWasmHash ≠ zeroBytes)
      (advanced : nextVersion.toNat = before.getVersion.toNat + 1) :
      Change env before (.upgrade newWasmHash) [owner] { before with version := some nextVersion }
  | migrate {newVersion : UInt32} {owner : Address} (authority : OwnerAuthority env before owner)
      (newer : before.getVersion < newVersion) :
      Change env before (.migrate newVersion) [owner] { before with version := some newVersion }

section Inversion

variable {env : Env} {before after : Storage} {request : ExecuteRequest}
  {authorizers : List Address}

theorem Change.caller (change : Change env before (.execute request) authorizers after) :
    CallerAuthority env before request authorizers := by
  cases change with
  | execute authority => exact authority

theorem CallerAuthority.of_owner (authority : CallerAuthority env before request authorizers)
    (caller : request.caller = .owner) :
    ∃ owner, OwnerAuthority env before owner ∧ authorizers = [owner] := by
  cases authority with
  | owner _ authority => exact ⟨_, authority, rfl⟩
  | quorum caller' => simp [caller] at caller'
  | session caller' => simp [caller] at caller'

theorem CallerAuthority.of_sessionKey {publicKey : PublicKey}
    (authority : CallerAuthority env before request authorizers)
    (caller : request.caller = .sessionKey publicKey) :
    ∃ session payload, SessionAuthority env before request publicKey session payload ∧
      authorizers = [] := by
  cases authority with
  | owner caller' => simp [caller] at caller'
  | quorum caller' => simp [caller] at caller'
  | session caller' authority =>
    cases caller.symm.trans caller'
    exact ⟨_, _, authority, rfl⟩

end Inversion

attribute [local simp] ownerEffects quorumEffects ttlEffect

/-- What any successful call does. -/
theorem step_change {env : Env} {call : Call} {before after : Storage} {value : Val}
    {effects : List AccountEffect}
    (performed : step (env, call) before = some ((value, effects), after)) :
    Change env before call (authorizations effects) after := by
  -- Each case inverts its entry point by the `_ok` lemma; `simp` then reads the authorizers off the
  -- effects.
  rw [step, Contract.invoke_eq_some] at performed
  cases call with
  | initializeAccount owner =>
    obtain ⟨fresh, authorized, equal⟩ := initializeAccount_ok.mp (returnVoid_ok.mp performed).1
    cases equal
    simpa using Change.initializeAccount fresh authorized
  | execute request =>
    obtain ⟨authorizers, next, storage, authority, nonce, _, _, written, equal⟩ :=
      execute_ok performed
    cases equal
    simpa using Change.execute authority nonce written
  | addSessionKey request =>
    obtain ⟨_, policy, owner, authority, _, permissions, allowlist, absent, expiresAtSecs,
      normalized, future, equal⟩ := addSessionKey_ok.mp (returnVoid_ok.mp performed).1
    cases equal
    simpa using Change.addSessionKey authority policy permissions allowlist absent normalized
      (validateExpiry_ok.mp future)
  | revokeSessionKey publicKey =>
    obtain ⟨owner, authority, stored, equal⟩ :=
      revokeSessionKey_ok.mp (returnVoid_ok.mp performed).1
    cases equal
    simpa using Change.revokeSessionKey authority stored
  | setAllowedContracts publicKey allowed =>
    obtain ⟨owner, authority, session, stored, allowlist, equal⟩ :=
      setAllowedContracts_ok.mp (returnVoid_ok.mp performed).1
    cases equal
    simpa using Change.setAllowedContracts authority stored allowlist
  | registerModule module =>
    obtain ⟨owner, authority, equal⟩ := registerModule_ok.mp (returnVoid_ok.mp performed).1
    cases equal
    simpa using Change.registerModule authority
  | unregisterModule module =>
    obtain ⟨owner, authority, equal⟩ := unregisterModule_ok.mp (returnVoid_ok.mp performed).1
    cases equal
    simpa using Change.unregisterModule authority
  | initializeMultiOwner owners threshold =>
    obtain ⟨fresh, owner, authority, nonempty, positive, enough, nodup, equal⟩ :=
      initializeMultiOwner_ok.mp (returnVoid_ok.mp performed).1
    cases equal
    simpa using Change.initializeMultiOwner fresh authority nonempty positive enough nodup
  | addOwner signers newOwner =>
    obtain ⟨owners, threshold, distinct, authority, fresh, equal⟩ :=
      addOwner_ok (returnVoid_ok.mp performed).1
    cases equal
    simpa using Change.addOwner authority fresh
  | removeOwner signers ownerToRemove =>
    obtain ⟨owners, threshold, distinct, authority, member, several, equal⟩ :=
      removeOwner_ok (returnVoid_ok.mp performed).1
    cases equal
    simpa using Change.removeOwner authority member several
  | setThreshold signers newThreshold =>
    obtain ⟨owners, threshold, distinct, authority, positive, enough, equal⟩ :=
      setThreshold_ok (returnVoid_ok.mp performed).1
    cases equal
    simpa using Change.setThreshold authority positive enough
  | upgrade newWasmHash =>
    obtain ⟨owner, authority, nonzero, nextVersion, advanced, _, equal⟩ :=
      upgrade_ok.mp (returnVoid_ok.mp performed).1
    cases equal
    simpa using Change.upgrade authority nonzero advanced
  | migrate newVersion =>
    obtain ⟨owner, authority, newer, equal⟩ := migrate_ok.mp (returnVoid_ok.mp performed).1
    cases equal
    simpa using Change.migrate authority newer
  | refreshSessionKeyTtl publicKey =>
    obtain ⟨owner, authority, session, stored, live, expiry, normalized, equal⟩ :=
      refreshSessionKeyTtl_ok.mp (returnVoid_ok.mp performed).1
    cases equal
    simpa using Change.refreshSessionKeyTtl authority stored live normalized

/-! ## Transitions of the account -/

/-- A successful call to the account. -/
abbrev AccountTransition := Transition Storage (Env × Call) (Val × List AccountEffect)

namespace AccountTransition

abbrev env (transition : AccountTransition) : Env := transition.input.1

abbrev call (transition : AccountTransition) : Call := transition.input.2

/-- The addresses whose `require_auth` the call succeeded on. -/
def authorizers (transition : AccountTransition) : List Address :=
  authorizations transition.output.2

theorem change {transition : AccountTransition} (performed : transition.Performed step) :
    Change transition.env transition.before transition.call transition.authorizers
      transition.after :=
  step_change performed

end AccountTransition

end Ancore.Account
