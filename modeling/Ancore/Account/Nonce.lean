import Ancore.Account.Change

/-! # Replay protection

The stored nonce counts the successful `execute` calls of a run, so these carry
the nonces 0, 1, 2, … in order and no signed payload is accepted twice.  Nothing
is executed before the account has an owner (`Storage.OwnerFirst`).
-/

namespace Ancore.Account

open Ancore.Library Ancore.Library.FixedWidth Ancore.Soroban

/-! ## The signed payload -/

/-- The canonical payload determines what is executed and its nonce. -/
theorem canonicalExecuteSigningPayload_inj {target target' : Address}
    {function function' : Symbol} {args args' : List Val} {nonce nonce' : UInt64}
    {payload : Bytes}
    (canonical : canonicalExecuteSigningPayload target function args nonce = some payload)
    (canonical' : canonicalExecuteSigningPayload target' function' args' nonce' = some payload) :
    target = target' ∧ function = function' ∧ args = args' ∧ nonce = nonce' := by
  simp only [canonicalExecuteSigningPayload, Option.bind_eq_bind, Option.bind_eq_some_iff,
    Option.pure_def, Option.some.injEq] at canonical canonical'
  obtain ⟨targetXdr, targetEncoded, functionXdr, functionEncoded, argsXdr, argsEncoded,
    nonceXdr, nonceEncoded, rfl⟩ := canonical
  obtain ⟨targetXdr', targetEncoded', functionXdr', functionEncoded', argsXdr', argsEncoded',
    nonceXdr', nonceEncoded', equal⟩ := canonical'
  -- Read the four parts off the common payload one after the other.
  simp only [List.append_assoc] at equal
  obtain ⟨targets, equal⟩ := Val.delimits _ targetEncoded' targetEncoded equal
  obtain ⟨functions, equal⟩ := Val.delimits _ functionEncoded' functionEncoded equal
  obtain ⟨arguments, equal⟩ := Val.delimits _ argsEncoded' argsEncoded equal
  obtain ⟨nonces, _⟩ := Val.delimits _ nonceEncoded' nonceEncoded (congrArg (· ++ []) equal)
  cases targets
  cases functions
  cases arguments
  cases nonces
  exact ⟨rfl, rfl, rfl, rfl⟩

/-! ## The owner comes first -/

/-- An account without an owner holds no nonce, no owner set and no session key. -/
structure Storage.OwnerFirst (storage : Storage) : Prop where
  nonce : storage.owner = none → storage.nonce = none
  owners : storage.owner = none → storage.owners = none
  sessionKey : storage.owner = none → ∀ publicKey, storage.sessionKey publicKey = none

theorem Storage.OwnerFirst.of_isSome {storage : Storage} (registered : storage.owner.isSome) :
    storage.OwnerFirst := by
  constructor <;> intro absent <;> simp [absent] at registered

section Step

variable {env : Env} {before after : Storage} {call : Call} {authorizers : List Address}
  {request : ExecuteRequest}

theorem OwnerAuthority.isSome {owner : Address} (authority : OwnerAuthority env before owner) :
    before.owner.isSome := by
  simp [authority.registered]

theorem QuorumAuthority.isSome {owners distinct : List Address} {threshold : UInt32}
    (ownerFirst : before.OwnerFirst)
    (authority : QuorumAuthority env before owners threshold distinct) : before.owner.isSome := by
  rw [Option.isSome_iff_ne_none]
  intro absent
  have registered := authority.registered
  simp [ownerFirst.owners absent] at registered

theorem CallerAuthority.isSome (ownerFirst : before.OwnerFirst)
    (authority : CallerAuthority env before request authorizers) : before.owner.isSome := by
  cases authority with
  | owner _ authority => exact authority.isSome
  | quorum _ authority => exact authority.isSome ownerFirst
  | session _ authority =>
    rw [Option.isSome_iff_ne_none]
    intro absent
    have stored := authority.stored
    simp [ownerFirst.sessionKey absent] at stored

theorem SpendWrittenBack.owner {now : UInt64}
    (written : SpendWrittenBack now request before after) : after.owner = before.owner := by
  cases written <;> rfl

theorem SpendWrittenBack.nonce {now : UInt64}
    (written : SpendWrittenBack now request before after) : after.nonce = before.nonce := by
  cases written <;> rfl

/-- Every call but the initialization needs an owner, and leaves it. -/
theorem Change.owner (ownerFirst : before.OwnerFirst)
    (change : Change env before call authorizers after) :
    (∃ owner, call = .initializeAccount owner ∧ before.owner = none ∧ after.owner = some owner) ∨
      (before.owner.isSome ∧ after.owner = before.owner) := by
  cases change with
  | initializeAccount fresh => exact .inl ⟨_, rfl, fresh, rfl⟩
  | execute authority _ written => exact .inr ⟨authority.isSome ownerFirst, written.owner⟩
  | addSessionKey authority => exact .inr ⟨authority.isSome, rfl⟩
  | revokeSessionKey authority => exact .inr ⟨authority.isSome, rfl⟩
  | setAllowedContracts authority => exact .inr ⟨authority.isSome, rfl⟩
  | refreshSessionKeyTtl authority => exact .inr ⟨authority.isSome, rfl⟩
  | registerModule authority => exact .inr ⟨authority.isSome, rfl⟩
  | unregisterModule authority => exact .inr ⟨authority.isSome, rfl⟩
  | initializeMultiOwner _ authority => exact .inr ⟨authority.isSome, rfl⟩
  | addOwner authority => exact .inr ⟨authority.isSome ownerFirst, rfl⟩
  | removeOwner authority => exact .inr ⟨authority.isSome ownerFirst, rfl⟩
  | setThreshold authority => exact .inr ⟨authority.isSome ownerFirst, rfl⟩
  | upgrade authority => exact .inr ⟨authority.isSome, rfl⟩
  | migrate authority => exact .inr ⟨authority.isSome, rfl⟩

theorem Change.ownerFirst (ownerFirst : before.OwnerFirst)
    (change : Change env before call authorizers after) : after.OwnerFirst := by
  apply Storage.OwnerFirst.of_isSome
  rcases change.owner ownerFirst with ⟨owner, _, _, registered⟩ | ⟨registered, unchanged⟩
  · simp [registered]
  · rwa [unchanged]

/-! ## One step and the nonce -/

theorem Change.execute_nonce
    (change : Change env before (.execute request) authorizers after) :
    request.expectedNonce = before.getNonce ∧ after.getNonce.toNat = before.getNonce.toNat + 1 := by
  cases change with
  | execute _ nonce written =>
    exact ⟨nonce.expected, by simp [Storage.getNonce, written.nonce, nonce.advanced]⟩

/-- Only `execute` moves the nonce; the initialization sets it to the 0 it reads as before. -/
theorem Change.getNonce_eq (ownerFirst : before.OwnerFirst)
    (change : Change env before call authorizers after)
    (other : ∀ request, call ≠ .execute request) : after.getNonce = before.getNonce := by
  cases change with
  | initializeAccount fresh => simp [Storage.getNonce, ownerFirst.nonce fresh]
  | execute => exact absurd rfl (other _)
  | _ => rfl

end Step

/-! ## Runs -/

/-- The request of a successful `execute`. -/
def AccountTransition.executed (transition : AccountTransition) : Option ExecuteRequest :=
  match transition.call with
  | .execute request => some request
  | _ => none

/-- The successful `execute` calls of a run, oldest first. -/
def executions (past : List AccountTransition) : List ExecuteRequest :=
  past.filterMap AccountTransition.executed

/-- The call is an `execute` through a session key that accepted this payload and signature. -/
def AccountTransition.accepts (payload : Bytes) (signature : BytesN 64)
    (transition : AccountTransition) : Bool :=
  match transition.call with
  | .execute request =>
    match request.caller with
    | .sessionKey _ =>
      request.signaturePayload = some payload && request.signature = some signature
    | _ => false
  | _ => false

theorem AccountTransition.executed_eq_some {transition : AccountTransition}
    {request : ExecuteRequest} :
    transition.executed = some request ↔ transition.call = .execute request := by
  unfold AccountTransition.executed
  split <;> simp_all

@[simp] theorem executions_append (past later : List AccountTransition) :
    executions (past ++ later) = executions past ++ executions later :=
  List.filterMap_append

/-- The nonce counts the executions, which carried the nonces before it in order. -/
structure NonceCount (past : List AccountTransition) (state : Storage) : Prop where
  ownerFirst : state.OwnerFirst
  initialized : state.owner.isSome →
    ∃ transition ∈ past, ∃ owner, transition.call = .initializeAccount owner
  counted : state.getNonce.toNat = (executions past).length
  numbered : (executions past).map (·.expectedNonce.toNat) = List.range (executions past).length

theorem executions_singleton (transition : AccountTransition) :
    executions [transition] = transition.executed.toList := by
  simp only [executions, List.filterMap_cons, List.filterMap_nil]
  cases transition.executed <;> rfl

theorem nonceCount_invariant : HistoryInvariant step Storage.empty NonceCount where
  init := {
    ownerFirst := by constructor <;> intros <;> rfl
    initialized := by simp [Storage.empty]
    counted := rfl
    numbered := rfl }
  preserved := by
    intro past transition current performed
    have change := AccountTransition.change performed
    have initialized : transition.after.owner.isSome → ∃ earlier ∈ past ++ [transition],
        ∃ owner, earlier.input.2 = .initializeAccount owner := by
      intro _
      rcases change.owner current.ownerFirst with ⟨owner, initialization, _⟩ | ⟨registered, _⟩
      · exact ⟨transition, by simp, owner, initialization⟩
      · obtain ⟨earlier, member, initialization⟩ := current.initialized registered
        exact ⟨earlier, by simp [member], initialization⟩
    cases executed : AccountTransition.executed transition with
    | none =>
      have same : executions (past ++ [transition]) = executions past := by
        simp [executions_singleton, executed]
      -- Any other call: the nonce and the executions both stay.
      have unmoved := change.getNonce_eq current.ownerFirst (fun request isExecute => by
        simp [AccountTransition.executed_eq_some.mpr isExecute] at executed)
      exact ⟨change.ownerFirst current.ownerFirst, initialized,
        by rw [same, unmoved, current.counted], by rw [same, current.numbered]⟩
    | some request =>
      -- An execution: it carried the stored nonce, which is the number of executions before it.
      have extended : executions (past ++ [transition]) = executions past ++ [request] := by
        simp [executions_singleton, executed]
      rw [AccountTransition.executed_eq_some.mp executed] at change
      obtain ⟨expected, advanced⟩ := change.execute_nonce
      refine ⟨change.ownerFirst current.ownerFirst, initialized, ?_, ?_⟩
      · rw [extended, advanced, current.counted, List.length_append, List.length_singleton]
      · rw [extended, List.map_append, current.numbered, List.length_append, List.length_singleton,
          List.range_succ, List.map_singleton, expected, current.counted]

/-! ## No replay -/

/-- A call that accepts a signed payload has the authority of a stored session key, and the payload
is the canonical one of what it executes. -/
theorem AccountTransition.authority_of_accepts {transition : AccountTransition}
    {payload : Bytes} {signature : BytesN 64} (performed : transition.Performed step)
    (accepted : AccountTransition.accepts payload signature transition = true) :
    ∃ request publicKey session, transition.input.2 = .execute request ∧
      request.caller = .sessionKey publicKey ∧
      request.expectedNonce = transition.before.getNonce ∧
      SessionAuthority transition.input.1 transition.before request publicKey session payload ∧
      transition.input.1.ed25519Verify publicKey payload signature = true := by
  have change := AccountTransition.change performed
  simp only [AccountTransition.accepts] at accepted
  split at accepted
  · rename_i request isExecute
    split at accepted
    · rename_i publicKey isSession
      simp only [Bool.and_eq_true, decide_eq_true_eq] at accepted
      rw [isExecute] at change
      obtain ⟨session, supplied, authority, _⟩ := change.caller.of_sessionKey isSession
      cases accepted.1.symm.trans authority.supplied
      obtain ⟨signature', signed, verified⟩ := authority.verified
      cases accepted.2.symm.trans signed
      exact ⟨request, publicKey, session, isExecute, isSession, change.execute_nonce.1, authority,
        verified⟩
    · cases accepted
  · cases accepted

section Count

variable {past : List AccountTransition} {state : Storage}

theorem NonceCount.nodup (count : NonceCount past state) :
    ((executions past).map (·.expectedNonce)).Nodup := by
  apply List.Nodup.of_map UInt64.toNat
  rw [List.map_map]
  exact count.numbered ▸ List.nodup_range

/-- Two calls that accept one payload would have executed under the one nonce it carries. -/
theorem NonceCount.accepts_at_most_once (count : NonceCount past state)
    (performed : ∀ transition ∈ past, transition.Performed step)
    (payload : Bytes) (signature : BytesN 64) :
    (past.filter (AccountTransition.accepts payload signature)).length ≤ 1 := by
  have accepted : ∀ transition ∈ past.filter (AccountTransition.accepts payload signature),
      ∃ request, AccountTransition.executed transition = some request ∧
      canonicalExecuteSigningPayload request.target request.function request.args
        request.expectedNonce = some payload := by
    intro transition member
    rw [List.mem_filter] at member
    obtain ⟨request, _, _, isExecute, _, _, authority, _⟩ :=
      AccountTransition.authority_of_accepts (performed transition member.1) member.2
    exact ⟨request, AccountTransition.executed_eq_some.mpr isExecute, authority.canonical⟩
  have nodup := count.nodup.sublist
    ((List.filter_sublist (p := AccountTransition.accepts payload signature)).filterMap
      AccountTransition.executed |>.map _)
  match found : past.filter (AccountTransition.accepts payload signature) with
  | [] => simp
  | [_] => simp
  -- Two of them would carry one nonce, but the executions of a run carry different ones.
  | first :: second :: rest =>
    rw [found] at accepted nodup
    obtain ⟨request, executed, canonical⟩ := accepted first (by simp)
    obtain ⟨request', executed', canonical'⟩ := accepted second (by simp)
    obtain ⟨_, _, _, same⟩ := canonicalExecuteSigningPayload_inj canonical canonical'
    simp [executed, executed', same] at nodup

end Count

/-- Replay protection over whole runs of one account. -/
theorem execute_replay_protected (calls : List (Env × Call)) :
    (final step Storage.empty calls).getNonce.toNat =
        (executions (history step Storage.empty calls)).length ∧
      (executions (history step Storage.empty calls)).map (·.expectedNonce.toNat) =
        List.range (executions (history step Storage.empty calls)).length ∧
      (∀ earlier transition later,
        history step Storage.empty calls = earlier ++ transition :: later →
        ∀ request, transition.input.2 = .execute request →
          ∃ initialization ∈ earlier, ∃ owner,
            initialization.input.2 = .initializeAccount owner) ∧
      (∀ transition ∈ history step Storage.empty calls,
        (∀ request, transition.input.2 ≠ .execute request) →
          transition.after.getNonce = transition.before.getNonce) ∧
      ((executions (history step Storage.empty calls)).map (·.expectedNonce)).Nodup ∧
      ∀ payload signature, ((history step Storage.empty calls).filter
        (AccountTransition.accepts payload signature)).length ≤ 1 := by
  have reached := nonceCount_invariant.holds_final calls
  refine ⟨reached.counted, reached.numbered, ?_, ?_, reached.nodup,
    reached.accepts_at_most_once fun _ => performed_of_mem_history step⟩
  · intro earlier transition later located request isExecute
    obtain ⟨current, performed⟩ := nonceCount_invariant.holds_before located
    have change := AccountTransition.change performed
    rw [AccountTransition.call, isExecute] at change
    exact current.initialized (change.caller.isSome current.ownerFirst)
  · intro transition member other
    obtain ⟨earlier, later, located⟩ := List.append_of_mem member
    obtain ⟨current, performed⟩ := nonceCount_invariant.holds_before located
    exact (AccountTransition.change performed).getNonce_eq current.ownerFirst other

end Ancore.Account
