import Ancore.Account.Owners

/-! # Session keys over a run

`KeyChange` says what one step does to the record of one session key; every
entry point rewrites the whole record, and this is where it shows that each of
them leaves the fields it is not about.  `KeyHistory` then ties a stored record
to the registration it comes from.
-/

namespace Ancore.Account

open Ancore.Library Ancore.Library.FixedWidth Ancore.Soroban

/-! ## One step and one key -/

/-- The session key a call works on. -/
def Call.sessionKey : Call → Option PublicKey
  | .execute request =>
    match request.caller with
    | .sessionKey publicKey => some publicKey
    | _ => none
  | .addSessionKey request => some request.publicKey
  | .revokeSessionKey publicKey => some publicKey
  | .setAllowedContracts publicKey _ => some publicKey
  | .refreshSessionKeyTtl publicKey => some publicKey
  | _ => none

/-- What one successful call does to the record of `publicKey`. -/
inductive KeyChange (env : Env) (publicKey : PublicKey) :
    Call → Option SessionKey → Option SessionKey → Prop
  | unchanged {call : Call} {stored : Option SessionKey}
      (other : call.sessionKey ≠ some publicKey) : KeyChange env publicKey call stored stored
  | spent {request : ExecuteRequest} {session after : SessionKey}
      (caller : request.caller = .sessionKey publicKey)
      (applied : applySpendUsage env.timestamp session request.args = .ok after)
      (checked : checkSessionSpendLimits env.timestamp session request.args = .ok ()) :
      KeyChange env publicKey (.execute request) (some session) (some after)
  | added {request : SessionKeyRequest} {expiresAtSecs : UInt64}
      (key : request.publicKey = publicKey)
      (policy : validateSpendPolicy request.maxAmountPerCall request.cumulativeLimit
        request.spendWindowSeconds = .ok ())
      (normalized : normalizeExpiryTimestamp request.expiresAt = .ok expiresAtSecs)
      (future : env.timestamp < expiresAtSecs) :
      KeyChange env publicKey (.addSessionKey request) none
        (some (request.toSessionKey expiresAtSecs env.timestamp))
  | revoked {session : SessionKey} :
      KeyChange env publicKey (.revokeSessionKey publicKey) (some session) none
  | allowlistSet {session : SessionKey} {allowed : Option (List Address)} :
      KeyChange env publicKey (.setAllowedContracts publicKey allowed) (some session)
        (some { session with allowedContracts := allowed })
  | refreshed {session : SessionKey} {expiry : UInt64} (live : env.timestamp < session.expiresAt)
      (normalized : normalizeExpiryTimestamp session.expiresAt = .ok expiry) :
      KeyChange env publicKey (.refreshSessionKeyTtl publicKey) (some session)
        (some { session with expiresAt := expiry })

section Step

variable {env : Env} {before after : Storage} {call : Call} {authorizers : List Address}
  {request : ExecuteRequest} {publicKey : PublicKey}

/-- A write to one key's record leaves the records of the other keys. -/
theorem KeyChange.of_set {written : PublicKey} {record : SessionKey}
    (works : call.sessionKey = some written)
    (changed : KeyChange env written call (before.sessionKey written) (some record)) :
    KeyChange env publicKey call (before.sessionKey publicKey)
      ((before.setSessionKey written record).sessionKey publicKey) := by
  by_cases same : publicKey = written
  · subst same
    rwa [Storage.setSessionKey_same]
  · rw [Storage.setSessionKey_ne same]
    exact .unchanged (by simpa [works] using Ne.symm same)

theorem KeyChange.of_execute {next : UInt64}
    (authority : CallerAuthority env before request authorizers)
    (written : SpendWrittenBack env.timestamp request { before with nonce := some next } after) :
    KeyChange env publicKey (.execute request) (before.sessionKey publicKey)
      (after.sessionKey publicKey) := by
  cases written with
  | unchanged caller => exact .unchanged (by simp [Call.sessionKey])
  | session caller stored applied =>
    obtain ⟨_, _, authority, _⟩ := authority.of_sessionKey caller
    cases authority.stored.symm.trans stored
    -- The write-back starts from the storage with the nonce advanced, which holds the same keys.
    change KeyChange env publicKey _ (Storage.sessionKey { before with nonce := some next } _) _
    apply KeyChange.of_set
    · simp [Call.sessionKey, caller]
    · rw [stored]
      exact .spent caller applied authority.withinLimits

theorem Change.key (change : Change env before call authorizers after) (publicKey : PublicKey) :
    KeyChange env publicKey call (before.sessionKey publicKey) (after.sessionKey publicKey) := by
  cases change with
  | execute authority _ written => exact .of_execute authority written
  | addSessionKey _ policy _ _ absent normalized future =>
    exact .of_set rfl (absent ▸ .added rfl policy normalized future)
  | setAllowedContracts _ stored => exact .of_set rfl (stored ▸ .allowlistSet)
  | refreshSessionKeyTtl _ stored live normalized =>
    exact .of_set rfl (stored ▸ .refreshed live normalized)
  | @revokeSessionKey revoked _ _ stored =>
    by_cases same : publicKey = revoked
    · subst same
      obtain ⟨session, present⟩ := Option.isSome_iff_exists.mp stored
      rw [present, Storage.removeSessionKey_same]
      exact .revoked
    · rw [Storage.removeSessionKey_ne same]
      exact .unchanged (by simpa [Call.sessionKey] using Ne.symm same)
  | _ => exact .unchanged (by simp [Call.sessionKey])

end Step

/-! ## Expiry normalization -/

theorem normalizeExpiryTimestamp_ok {expiresAt expiry : UInt64} :
    normalizeExpiryTimestamp expiresAt = .ok expiry ↔
      expiresAt.toNat ≠ 0 ∧
        expiry.toNat = if 10 ^ 11 ≤ expiresAt.toNat then expiresAt.toNat / 1000
          else expiresAt.toNat := by
  have milliseconds : expiresAt ≥ minMillisecondsTimestamp ↔ 10 ^ 11 ≤ expiresAt.toNat := by
    rw [ge_iff_le, UInt64.le_iff_toNat_le]
    rfl
  simp only [normalizeExpiryTimestamp, ite_error_eq_ok, milliseconds, ← UInt64.toNat_inj,
    UInt64.toNat_zero]
  refine and_congr_right fun _ => ?_
  split
  · rw [Except.ok.injEq, ← UInt64.toNat_inj, UInt64.toNat_div, eq_comm]
    rfl
  · rw [Except.ok.injEq, ← UInt64.toNat_inj, eq_comm]

theorem normalizeExpiryTimestamp_le {expiresAt expiry : UInt64}
    (normalized : normalizeExpiryTimestamp expiresAt = .ok expiry) : expiry ≤ expiresAt := by
  obtain ⟨_, value⟩ := normalizeExpiryTimestamp_ok.mp normalized
  rw [UInt64.le_iff_toNat_le, value]
  split
  · exact Nat.div_le_self _ _
  · exact le_rfl

/-! ## Where a stored key comes from -/

/-- The call adds or revokes the key. -/
def Call.Registers (publicKey : PublicKey) : Call → Prop
  | .addSessionKey request => request.publicKey = publicKey
  | .revokeSessionKey revoked => revoked = publicKey
  | _ => False

/-- The key's allowlist after one more call. -/
def Call.nextAllowlist (publicKey : PublicKey) (current : Option (List Address)) :
    Call → Option (List Address)
  | .setAllowedContracts changed allowed => if changed = publicKey then allowed else current
  | _ => current

/-- The allowlist most recently set for the key. -/
def latestAllowlist (publicKey : PublicKey) (registered : Option (List Address))
    (since : List AccountTransition) : Option (List Address) :=
  since.foldl (fun current transition => transition.call.nextAllowlist publicKey current) registered

/-- The record comes from the registration `added`, the latest one of the key in `past`. -/
structure RegisteredBy (publicKey : PublicKey) (past : List AccountTransition)
    (session : SessionKey) (earlier : List AccountTransition) (added : AccountTransition)
    (since : List AccountTransition) (request : SessionKeyRequest) (expiry : UInt64) : Prop where
  located : past = earlier ++ added :: since
  call : added.call = .addSessionKey request
  key : request.publicKey = publicKey
  latest : ∀ transition ∈ since, ¬ transition.input.2.Registers publicKey
  policy : validateSpendPolicy request.maxAmountPerCall request.cumulativeLimit
    request.spendWindowSeconds = .ok ()
  normalized : normalizeExpiryTimestamp request.expiresAt = .ok expiry
  expiresAt : session.expiresAt ≤ expiry
  permissions : session.permissions = request.permissions
  allowedContracts : session.allowedContracts =
    latestAllowlist publicKey request.allowedContracts since
  maxAmountPerCall : session.maxAmountPerCall = request.maxAmountPerCall

/-- Every stored record of the key has a registration. -/
def KeyHistory (publicKey : PublicKey) (past : List AccountTransition) (state : Storage) : Prop :=
  ∀ session, state.sessionKey publicKey = some session →
    ∃ earlier added since request expiry,
      RegisteredBy publicKey past session earlier added since request expiry

/-- A later step keeps the registration as long as it neither adds nor revokes the key, postpones
the expiry, nor changes the permissions and the limit for one call. -/
theorem RegisteredBy.extend {publicKey : PublicKey} {past earlier since : List AccountTransition}
    {session after : SessionKey} {added transition : AccountTransition}
    {request : SessionKeyRequest} {expiry : UInt64}
    (registered : RegisteredBy publicKey past session earlier added since request expiry)
    (other : ¬ transition.input.2.Registers publicKey)
    (expiresAt : after.expiresAt ≤ session.expiresAt)
    (permissions : after.permissions = session.permissions)
    (allowedContracts : after.allowedContracts =
      transition.call.nextAllowlist publicKey session.allowedContracts)
    (maxAmountPerCall : after.maxAmountPerCall = session.maxAmountPerCall) :
    RegisteredBy publicKey (past ++ [transition]) after earlier added (since ++ [transition])
      request expiry where
  located := by simp [registered.located]
  call := registered.call
  key := registered.key
  latest := by
    intro later member
    rcases List.mem_append.mp member with member | member
    · exact registered.latest later member
    · cases List.mem_singleton.mp member
      exact other
  policy := registered.policy
  normalized := registered.normalized
  expiresAt := UInt64.le_trans expiresAt registered.expiresAt
  permissions := permissions.trans registered.permissions
  allowedContracts := by
    rw [allowedContracts, registered.allowedContracts]
    simp [latestAllowlist]
  maxAmountPerCall := maxAmountPerCall.trans registered.maxAmountPerCall

theorem Call.not_registers {call : Call} {publicKey : PublicKey}
    (other : call.sessionKey ≠ some publicKey) : ¬ call.Registers publicKey := by
  cases call <;> simp_all [Call.sessionKey, Call.Registers]

theorem Call.nextAllowlist_other {call : Call} {publicKey : PublicKey}
    {current : Option (List Address)} (other : call.sessionKey ≠ some publicKey) :
    call.nextAllowlist publicKey current = current := by
  cases call <;> simp_all [Call.sessionKey, Call.nextAllowlist]

theorem keyHistory_invariant (publicKey : PublicKey) :
    HistoryInvariant step Storage.empty (KeyHistory publicKey) where
  init := fun _ stored => by cases stored
  preserved := by
    intro past transition current performed after stored
    have change := (AccountTransition.change performed).key publicKey
    rw [stored] at change
    generalize found : transition.before.sessionKey publicKey = record at change
    generalize isCall : AccountTransition.call transition = call at change
    cases change with
    | unchanged other =>
      obtain ⟨earlier, added, since, request, expiry, registered⟩ := current _ found
      refine ⟨earlier, added, since ++ [transition], request, expiry, registered.extend ?_
        UInt64.le_rfl rfl ?_ rfl⟩
      · rw [show transition.input.2 = _ from isCall]
        exact Call.not_registers other
      · rw [isCall, Call.nextAllowlist_other other]
    | spent caller applied =>
      obtain ⟨earlier, added, since, request, expiry, registered⟩ := current _ found
      -- Accounting rewrites the record, but none of the fields the registration fixed.
      obtain ⟨start, amount, rfl⟩ := applySpendUsage_ok applied
      refine ⟨earlier, added, since ++ [transition], request, expiry, registered.extend ?_
        UInt64.le_rfl rfl ?_ rfl⟩
      · rw [show transition.input.2 = _ from isCall]
        exact id
      · rw [isCall]
        rfl
    | @added request expiry key policy normalized future =>
      refine ⟨past, transition, [], request, expiry, rfl, isCall, key, ?_, policy, normalized,
        UInt64.le_rfl, rfl, rfl, rfl⟩
      intro later member
      cases member
    | allowlistSet =>
      obtain ⟨earlier, added, since, request, expiry, registered⟩ := current _ found
      refine ⟨earlier, added, since ++ [transition], request, expiry, registered.extend ?_
        UInt64.le_rfl rfl ?_ rfl⟩
      · rw [show transition.input.2 = _ from isCall]
        exact id
      · rw [isCall]
        simp [Call.nextAllowlist]
    | refreshed _ normalized =>
      obtain ⟨earlier, added, since, request, expiry, registered⟩ := current _ found
      refine ⟨earlier, added, since ++ [transition], request, expiry, registered.extend ?_
        (normalizeExpiryTimestamp_le normalized) rfl ?_ rfl⟩
      · rw [show transition.input.2 = _ from isCall]
        exact id
      · rw [isCall]
        rfl

/-! ## Authority of an execution through a session key -/

/-- The amount an `execute` is accounted for: its largest positive top-level `i128`, else 0. -/
def accountedAmount (args : List Val) : Int := (extractSpendAmount args).elim 0 Int128.val

theorem raiseMaxAmount_positive {maxAmount : Option Int128} {value : Val}
    (positive : ∀ amount ∈ maxAmount, 0 < amount.val) :
    ∀ amount ∈ raiseMaxAmount maxAmount value, 0 < amount.val := by
  intro amount raised
  simp only [raiseMaxAmount] at raised
  split at raised
  · rename_i argument
    split at raised
    · rename_i isPositive
      rw [Int128.lt_def, Int128.val_zero] at isPositive
      cases maxAmount with
      | none =>
        cases Option.some.inj raised
        exact isPositive
      | some current =>
        cases Option.some.inj raised
        rw [Option.elim_some, Int128.val_max]
        omega
    · exact positive amount raised
  · exact positive amount raised

/-- Only positive amounts are extracted. -/
theorem extractSpendAmount_positive {args : List Val} {amount : Int128}
    (extracted : extractSpendAmount args = some amount) : 0 < amount.val := by
  have fold : ∀ (values : List Val) (start : Option Int128), (∀ a ∈ start, 0 < a.val) →
      ∀ a ∈ values.foldl raiseMaxAmount start, 0 < a.val := by
    intro values
    induction values with
    | nil => exact fun _ positive => positive
    | cons value values inductionHypothesis =>
      intro start positive
      exact inductionHypothesis _ (raiseMaxAmount_positive positive)
  exact fold args none (by simp) amount extracted

theorem accountedAmount_le_of_checked {now : UInt64} {session : SessionKey} {args : List Val}
    (checked : checkSessionSpendLimits now session args = .ok ())
    {limit : Int128} (limited : session.maxAmountPerCall = some limit) (positive : 0 < limit.val) :
    accountedAmount args ≤ limit.val := by
  unfold accountedAmount
  cases extracted : extractSpendAmount args with
  | none => exact positive.le
  | some amount =>
    have isPositive := extractSpendAmount_positive extracted
    rw [checkSessionSpendLimits, checkSpendLimits_ok extracted isPositive] at checked
    exact checked.1 limit limited

/-- Every execution through a session key has the authority of the key's latest registration. -/
theorem session_authority_follows_history (calls : List (Env × Call))
    (past later : List AccountTransition) (transition : AccountTransition)
    (request : ExecuteRequest) (publicKey : PublicKey)
    (located : history step Storage.empty calls = past ++ transition :: later)
    (isExecute : transition.input.2 = .execute request)
    (caller : request.caller = .sessionKey publicKey) :
    ∃ earlier added since registration expiry payload signature,
      past = earlier ++ added :: since ∧
      added.input.2 = .addSessionKey registration ∧ registration.publicKey = publicKey ∧
      (∀ other ∈ since, ¬ other.input.2.Registers publicKey) ∧
      normalizeExpiryTimestamp registration.expiresAt = .ok expiry ∧
      transition.input.1.timestamp < expiry ∧
      permissionExecute ∈ registration.permissions ∧
      allowlistPermitsAddress (latestAllowlist publicKey registration.allowedContracts since)
        request.target = true ∧
      (∀ limit, registration.maxAmountPerCall = some limit →
        accountedAmount request.args ≤ limit.val) ∧
      request.signaturePayload = some payload ∧
      canonicalExecuteSigningPayload request.target request.function request.args
        transition.before.getNonce = some payload ∧
      request.signature = some signature ∧
      transition.input.1.ed25519Verify publicKey payload signature = true := by
  obtain ⟨current, performed⟩ := (keyHistory_invariant publicKey).holds_before located
  have change := AccountTransition.change performed
  rw [AccountTransition.call, isExecute] at change
  obtain ⟨session, payload, authority, _⟩ := change.caller.of_sessionKey caller
  obtain ⟨earlier, added, since, registration, expiry, registered⟩ := current _ authority.stored
  obtain ⟨signature, signed, verified⟩ := authority.verified
  refine ⟨earlier, added, since, registration, expiry, payload, signature, registered.located,
    registered.call, registered.key, registered.latest, registered.normalized, ?_, ?_, ?_, ?_,
    authority.supplied, ?_, signed, verified⟩
  · exact UInt64.lt_of_lt_of_le authority.live registered.expiresAt
  · rw [← registered.permissions]
    exact authority.permitted
  · rw [← registered.allowedContracts]
    exact authority.allowed
  · intro limit limited
    -- A positive limit also covers a call without an amount, which accounts for nothing.
    have positive := (validateSpendPolicy_ok.mp registered.policy).1 limit limited
    rw [← registered.maxAmountPerCall] at limited
    exact accountedAmount_le_of_checked authority.withinLimits limited positive
  · rw [← change.execute_nonce.1]
    exact authority.canonical

/-! ## Refreshing and the expiry -/

/-- Whatever is called after the registration `added`, short of revoking the key, the stored expiry
stays what `added` stored. -/
def RefreshKeepsExpiry (added : AccountTransition) (publicKey : PublicKey) : Prop :=
  ∀ calls : List (Env × Call),
    (∀ transition ∈ history step added.after calls,
      transition.input.2 ≠ .revokeSessionKey publicKey) →
    ((final step added.after calls).sessionKey publicKey).map (·.expiresAt) =
      (added.after.sessionKey publicKey).map (·.expiresAt)

section Refresh

variable {env : Env} {publicKey : PublicKey} {call : Call} {session : SessionKey}
  {stored : Option SessionKey} {expiresAt expiry : UInt64}

/-- An expiry below the millisecond threshold is what every call but a revocation leaves. -/
theorem KeyChange.expiresAt_eq (change : KeyChange env publicKey call (some session) stored)
    (seconds : session.expiresAt.toNat < 10 ^ 11) (kept : call ≠ .revokeSessionKey publicKey) :
    stored.map (·.expiresAt) = some session.expiresAt := by
  cases change with
  | unchanged => rfl
  | spent _ applied =>
    obtain ⟨_, _, rfl⟩ := applySpendUsage_ok applied
    rfl
  | revoked => exact absurd rfl kept
  | allowlistSet => rfl
  | refreshed _ normalized =>
    obtain ⟨_, value⟩ := normalizeExpiryTimestamp_ok.mp normalized
    rw [if_neg (by omega)] at value
    exact congrArg some (UInt64.toNat_inj.mp value)

/-- A normalized expiry lies below the threshold exactly when the input was below a thousand times
the threshold. -/
theorem normalized_lt_iff (normalized : normalizeExpiryTimestamp expiresAt = .ok expiry) :
    expiry.toNat < 10 ^ 11 ↔ expiresAt.toNat < 10 ^ 14 := by
  obtain ⟨_, value⟩ := normalizeExpiryTimestamp_ok.mp normalized
  rw [value]
  split <;> omega

theorem expiry_kept_from {start : Storage} (present : start.sessionKey publicKey = some session)
    (seconds : session.expiresAt.toNat < 10 ^ 11) :
    HistoryInvariant step start fun past state =>
      (∀ transition ∈ past, transition.input.2 ≠ .revokeSessionKey publicKey) →
        (state.sessionKey publicKey).map (·.expiresAt) = some session.expiresAt where
  init := fun _ => by rw [present]; rfl
  preserved := by
    intro past transition current performed kept
    have expires := current fun earlier member => kept earlier (by simp [member])
    obtain ⟨record, found, same⟩ := Option.map_eq_some_iff.mp expires
    have change := (AccountTransition.change performed).key publicKey
    rw [found] at change
    rw [← same]
    exact change.expiresAt_eq (same ▸ seconds) (kept transition (by simp))

/-- At any time before the stored expiry the owner's refresh of an expiry in the millisecond range
succeeds, and stores a thousandth of it. -/
theorem refresh_shortens {start : Storage} {owner : Address} {now : UInt64}
    (registered : start.owner = some owner) (present : start.sessionKey publicKey = some session)
    (live : now < session.expiresAt) (milliseconds : 10 ^ 11 ≤ session.expiresAt.toNat) :
    ∃ output after,
      step (.sample owner now [owner] [], .refreshSessionKeyTtl publicKey) start =
        some (output, after) ∧
      (after.sessionKey publicKey).map (·.expiresAt) = some (session.expiresAt / 1000) := by
  have normalized :
      normalizeExpiryTimestamp session.expiresAt = .ok (session.expiresAt / 1000) := by
    rw [normalizeExpiryTimestamp_ok, if_pos milliseconds, UInt64.toNat_div]
    exact ⟨by omega, rfl⟩
  have authorized : (Env.sample owner now [owner] []).authorized owner = true := by
    simp [Env.sample]
  refine ⟨_, _, Contract.invoke_eq_some.mpr (returnVoid_ok.mpr ⟨refreshSessionKeyTtl_ok.mpr
    ⟨owner, ⟨registered, authorized⟩, session, present, live, _, normalized, rfl⟩, rfl⟩), ?_⟩
  simp

end Refresh

/-- A registration's expiry survives every continuation exactly when it was below 10^14, the
millisecond form of the largest expiry that is still read as seconds. -/
theorem refresh_keeps_expiry_iff (added : AccountTransition) (request : SessionKeyRequest)
    (performed : added.Performed step) (isAdd : added.input.2 = .addSessionKey request) :
    RefreshKeepsExpiry added request.publicKey ↔ request.expiresAt.toNat < 10 ^ 14 := by
  have change := AccountTransition.change performed
  rw [AccountTransition.call, isAdd] at change
  obtain ⟨owner, expiry, registered, normalized, future, stored⟩ :
      ∃ owner expiry, added.after.owner = some owner ∧
        normalizeExpiryTimestamp request.expiresAt = .ok expiry ∧
        added.input.1.timestamp < expiry ∧
        added.after.sessionKey request.publicKey =
          some (request.toSessionKey expiry added.input.1.timestamp) := by
    generalize AccountTransition.authorizers added = authorizers at change
    generalize added.after = after at change
    cases change with
    | addSessionKey authority _ _ _ _ normalized future =>
      exact ⟨_, _, authority.registered, normalized, future, by simp⟩
  rw [← normalized_lt_iff normalized]
  constructor
  · intro keeps
    by_contra milliseconds
    -- From 10^14 on the stored expiry is itself in the millisecond range: one refresh divides it.
    obtain ⟨output, after, refreshed, shortened⟩ :=
      refresh_shortens registered stored future (not_lt.mp milliseconds)
    have kept := keeps [(.sample owner added.input.1.timestamp [owner] [],
      .refreshSessionKeyTtl request.publicKey)] (by simp [history, refreshed])
    rw [stored] at kept
    simp only [final, refreshed, shortened, Option.map_some, Option.some.injEq,
      SessionKeyRequest.toSessionKey] at kept
    have value := congrArg UInt64.toNat kept
    have thousand : (1000 : UInt64).toNat = 1000 := rfl
    rw [UInt64.toNat_div, thousand] at value
    omega
  · intro seconds calls kept
    rw [stored]
    exact (expiry_kept_from stored seconds).holds_final calls kept

/-! ## Sample runs -/

section Sample

def samplePublicKey : PublicKey :=
  ⟨[3, 161, 7, 191, 243, 206, 16, 190, 29, 112, 221, 24, 231, 75, 192, 153, 103, 228, 214, 48, 155,
    165, 13, 95, 29, 220, 134, 100, 18, 85, 49, 184], rfl⟩

/-- The key's Ed25519 signature of `samplePayload`. -/
def sampleSignature : BytesN 64 :=
  ⟨[234, 26, 162, 34, 21, 191, 156, 157, 222, 237, 105, 232, 193, 225, 107, 121, 77, 95, 212, 147,
    210, 249, 130, 110, 123, 76, 204, 18, 42, 104, 242, 18, 124, 184, 81, 250, 149, 30, 43, 188,
    138, 238, 109, 181, 58, 54, 0, 4, 177, 224, 3, 220, 193, 204, 72, 17, 240, 34, 107, 148, 253,
    10, 247, 1], rfl⟩

def transferSymbol : Symbol := ⟨"transfer".toList, by decide, by simp [isSymbolChar]⟩

def sampleArgs : List Val := [.i128 ⟨5, by decide, by decide⟩]

/-- The canonical payload of `transfer(5)` on the target at nonce 0. -/
def samplePayload : Bytes :=
  (canonicalExecuteSigningPayload sampleTarget transferSymbol sampleArgs 0).getD []

/-- `transfer(5)` through the session key. -/
def sampleSessionRequest : ExecuteRequest where
  caller := .sessionKey samplePublicKey
  target := sampleTarget
  function := transferSymbol
  args := sampleArgs
  expectedNonce := 0
  sessionPubKey := some samplePublicKey
  signature := some sampleSignature
  signaturePayload := some samplePayload

/-- A key that may spend 8 in a call and 20 in a minute. -/
def sampleRegistration (expiresAt : UInt64) : SessionKeyRequest where
  publicKey := samplePublicKey
  expiresAt := expiresAt
  permissions := [permissionExecute]
  allowedContracts := none
  maxAmountPerCall := some ⟨8, by decide, by decide⟩
  cumulativeLimit := some ⟨20, by decide, by decide⟩
  spendWindowSeconds := 60

def sampleSessionEnv (account : Address) (timestamp : UInt64) : Env :=
  .sample account timestamp [sampleOwner] [(samplePublicKey, samplePayload, sampleSignature)]

/-- Set up the account and the key. -/
def sampleSetup (account : Address) (expiresAt : UInt64) : List (Env × Call) :=
  [(sampleSessionEnv account 0, .initializeAccount sampleOwner),
    (sampleSessionEnv account 0, .addSessionKey (sampleRegistration expiresAt))]

def sampleExecute : Env × Call :=
  (sampleSessionEnv sampleAccount 100, .execute sampleSessionRequest)

/-- The execution of `transfer(5)` through the key goes back to the key's registration. -/
theorem session_authority_of_sample :
    ∃ first second last, history step Storage.empty
        (sampleSetup sampleAccount 1000 ++ [sampleExecute]) = [first, second, last] ∧
      ∃ earlier added since registration, [first, second] = earlier ++ added :: since ∧
        added.input.2 = .addSessionKey registration ∧
        registration.publicKey = samplePublicKey ∧
        permissionExecute ∈ registration.permissions := by
  obtain ⟨first, second, last, located⟩ := List.length_eq_three.mp
    (show (history step Storage.empty
      (sampleSetup sampleAccount 1000 ++ [sampleExecute])).length = 3 from rfl)
  have inputs : [first, second, last].map (·.input.2) =
      (sampleSetup sampleAccount 1000 ++ [sampleExecute]).map Prod.snd := by
    rw [← located]
    rfl
  simp only [List.map_cons, List.map_nil, sampleSetup, List.cons_append, List.nil_append,
    List.cons.injEq] at inputs
  obtain ⟨earlier, added, since, registration, _, _, _, found, isAdd, key, _, _, _, permitted, _⟩ :=
    session_authority_follows_history _ [first, second] [] last sampleSessionRequest
      samplePublicKey located inputs.2.2.1 rfl
  exact ⟨first, second, last, located, earlier, added, since, registration, found, isAdd, key,
    permitted⟩

/-- An expiry in seconds is kept. -/
theorem refresh_keeps_expiry_of_seconds :
    ∃ first added, history step Storage.empty (sampleSetup sampleAccount 1000) = [first, added] ∧
      RefreshKeepsExpiry added samplePublicKey := by
  obtain ⟨first, added, located⟩ := List.length_eq_two.mp
    (show (history step Storage.empty (sampleSetup sampleAccount 1000)).length = 2 from rfl)
  have inputs : [first, added].map (·.input.2) =
      (sampleSetup sampleAccount 1000).map Prod.snd := by
    rw [← located]
    rfl
  simp only [List.map_cons, List.map_nil, sampleSetup, List.cons.injEq] at inputs
  have performed : added.Performed step :=
    performed_of_mem_history step (by rw [located]; exact List.mem_cons_of_mem _ (by simp))
  exact ⟨first, added, located, (refresh_keeps_expiry_iff added (sampleRegistration 1000) performed
    inputs.2.1).mpr (by decide)⟩

/-- An expiry of 10^14 milliseconds is stored as 10^11 seconds, and refreshed down to 10^8. -/
theorem refresh_can_shorten :
    ¬ ∀ (calls : List (Env × Call)) (earlier later : List AccountTransition)
      (added : AccountTransition) (request : SessionKeyRequest),
      history step Storage.empty calls = earlier ++ added :: later →
      added.input.2 = .addSessionKey request →
      RefreshKeepsExpiry added request.publicKey := by
  intro keeps
  obtain ⟨first, added, located⟩ := List.length_eq_two.mp
    (show (history step Storage.empty
      (sampleSetup sampleAccount 100000000000000)).length = 2 from rfl)
  have inputs : [first, added].map (·.input.2) =
      (sampleSetup sampleAccount 100000000000000).map Prod.snd := by
    rw [← located]
    rfl
  have reached : [first, added].map (·.after) =
      [final step Storage.empty
          [(sampleSessionEnv sampleAccount 0, .initializeAccount sampleOwner)],
        final step Storage.empty (sampleSetup sampleAccount 100000000000000)] := by
    rw [← located]
    rfl
  simp only [List.map_cons, List.map_nil, sampleSetup, List.cons.injEq] at inputs reached
  have refreshed : (history step added.after [(sampleSessionEnv sampleAccount 100,
      .refreshSessionKeyTtl samplePublicKey)]).map (·.input.2) =
      [.refreshSessionKeyTtl samplePublicKey] := by
    rw [reached.2.1]
    rfl
  have kept := keeps _ [first] [] added _ located inputs.2.1
    [(sampleSessionEnv sampleAccount 100, .refreshSessionKeyTtl samplePublicKey)] (by
      intro transition member
      have listed := List.mem_map_of_mem (f := fun t : AccountTransition => t.input.2) member
      rw [refreshed] at listed
      simp [List.mem_singleton.mp listed])
  rw [reached.2.1] at kept
  exact absurd kept (by decide +kernel)

end Sample

end Ancore.Account
