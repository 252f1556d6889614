import Ancore.Account.SessionKeys

/-! # Replay across accounts

Several accounts run side by side, each with its own storage.  The canonical
payload names neither the account nor the network, so a signed payload is not
confined to one account; what confines it is the other account's own nonce and
session keys (`cross_account_acceptance`).
-/

namespace Ancore.Account

open Ancore.Library Ancore.Library.FixedWidth Ancore.Soroban

/-- One account among several: the host runs it with itself as the current contract. -/
def accountStep (account : Address) (input : Env × Call) (storage : Storage) :
    Option ((Val × List AccountEffect) × Storage) :=
  if input.1.currentContract = account then step input storage else none

/-- A successful call to one of the accounts. -/
abbrev WorldTransition :=
  Transition (Address → Storage) (Address × (Env × Call)) (Val × List AccountEffect)

/-- The successful calls of a run over freshly deployed accounts. -/
def worldHistory (calls : List (Address × (Env × Call))) : List WorldTransition :=
  history (stepAt accountStep) (fun _ => Storage.empty) calls

theorem performed_of_accountStep {account : Address} {transition : AccountTransition}
    (performed : transition.Performed (accountStep account)) : transition.Performed step := by
  simp only [Transition.Performed, accountStep] at performed
  split at performed
  · exact performed
  · cases performed

theorem WorldTransition.performed {calls : List (Address × (Env × Call))}
    {transition : WorldTransition} (member : transition ∈ worldHistory calls) :
    transition.atInstance.Performed step :=
  performed_of_accountStep
    (Transition.performed_atInstance accountStep (performed_of_mem_history _ member))

/-- The call accepts this payload and signature on its account. -/
def WorldTransition.accepts (payload : Bytes) (signature : BytesN 64)
    (transition : WorldTransition) : Bool :=
  AccountTransition.accepts payload signature transition.atInstance

/-- Two accounts accept one signed payload only for the same call and nonce, the second at its own
current nonce and under a live session key of its own that permits the call.  Each account accepts
it at most once. -/
theorem cross_account_acceptance (calls : List (Address × (Env × Call))) (payload : Bytes)
    (signature : BytesN 64) :
    (∀ first ∈ worldHistory calls, ∀ second ∈ worldHistory calls,
      WorldTransition.accepts payload signature first = true →
      WorldTransition.accepts payload signature second = true →
      ∃ request request' publicKey session,
        first.input.2.2 = .execute request ∧ second.input.2.2 = .execute request' ∧
        request'.target = request.target ∧ request'.function = request.function ∧
        request'.args = request.args ∧ request'.expectedNonce = request.expectedNonce ∧
        request'.expectedNonce = (second.before second.input.1).getNonce ∧
        request'.caller = .sessionKey publicKey ∧
        (second.before second.input.1).sessionKey publicKey = some session ∧
        second.input.2.1.timestamp < session.expiresAt ∧
        permissionExecute ∈ session.permissions ∧
        allowlistPermitsAddress session.allowedContracts request'.target = true ∧
        second.input.2.1.ed25519Verify publicKey payload signature = true) ∧
    ∀ account, ((worldHistory calls).filter fun transition =>
      transition.input.1 = account ∧ WorldTransition.accepts payload signature transition).length
        ≤ 1 := by
  constructor
  · intro first memberFirst second memberSecond acceptedFirst acceptedSecond
    obtain ⟨request, _, _, isExecute, _, _, authority, _⟩ :=
      AccountTransition.authority_of_accepts (WorldTransition.performed memberFirst) acceptedFirst
    obtain ⟨request', publicKey, session, isExecute', caller, nonce, authority', verified⟩ :=
      AccountTransition.authority_of_accepts (WorldTransition.performed memberSecond)
        acceptedSecond
    obtain ⟨targets, functions, args, nonces⟩ :=
      canonicalExecuteSigningPayload_inj authority'.canonical authority.canonical
    exact ⟨request, request', publicKey, session, isExecute, isExecute', targets, functions, args,
      nonces, nonce, caller, authority'.stored, authority'.live, authority'.permitted,
      authority'.allowed, verified⟩
  · intro account
    -- What one account sees of the run is a run of that account alone.
    have seen := history_stepAt accountStep account (fun _ => Storage.empty) calls
    have performs : ∀ transition : AccountTransition,
        transition.Performed (accountStep account) → transition.Performed step :=
      fun _ => performed_of_accountStep
    have count := (nonceCount_invariant.restrict performs).holds_final (callsTo account calls)
    have once := count.accepts_at_most_once (fun transition member =>
      performed_of_accountStep (performed_of_mem_history _ member)) payload signature
    rw [← seen, List.filter_map, List.length_map, List.filter_filter] at once
    refine le_of_eq_of_le (congrArg List.length (List.filter_congr fun transition _ => ?_)) once
    rw [Bool.eq_iff_iff, decide_eq_true_iff]
    simp [WorldTransition.accepts, and_comm]

/-! ## One signature, two accounts -/

theorem exists_accepting {calls : List (Address × (Env × Call))} {account : Address}
    {payload : Bytes} {signature : BytesN 64}
    (accepted : (history (accountStep account) Storage.empty (callsTo account calls)).any
      (AccountTransition.accepts payload signature) = true) :
    ∃ transition ∈ worldHistory calls, transition.input.1 = account ∧
      WorldTransition.accepts payload signature transition = true := by
  rw [← history_stepAt accountStep account (fun _ => Storage.empty) calls, List.any_eq_true]
    at accepted
  obtain ⟨_, member, accepts⟩ := accepted
  obtain ⟨transition, ran, rfl⟩ := List.mem_map.mp member
  rw [List.mem_filter, decide_eq_true_eq] at ran
  exact ⟨transition, ran.1, ran.2, accepts⟩

def otherAccount : Address := .contract (repeatedByte 8)

/-- One account is set up with the session key and sent the signed `transfer(5)`. -/
def sampleAccountCalls (account : Address) : List (Env × Call) :=
  sampleSetup account 1000 ++
    [(sampleSessionEnv account 100, Call.execute sampleSessionRequest)]

/-- The same on two accounts. -/
def sampleWorldCalls : List (Address × (Env × Call)) :=
  (sampleAccountCalls sampleAccount).map (sampleAccount, ·) ++
    (sampleAccountCalls otherAccount).map (otherAccount, ·)

theorem sampleAccountCalls_accepted :
    (history (accountStep sampleAccount) Storage.empty
        (sampleAccountCalls sampleAccount)).any
      (AccountTransition.accepts samplePayload sampleSignature) = true ∧
    (history (accountStep otherAccount) Storage.empty (sampleAccountCalls otherAccount)).any
      (AccountTransition.accepts samplePayload sampleSignature) = true := ⟨rfl, rfl⟩

/-- A payload and signature accepted by one account can be accepted by another one. -/
theorem cross_account_replay_possible :
    ¬ ∀ (calls : List (Address × (Env × Call))) (payload : Bytes) (signature : BytesN 64),
      ∀ first ∈ worldHistory calls, ∀ second ∈ worldHistory calls,
        first.input.1 ≠ second.input.1 →
        WorldTransition.accepts payload signature first = true →
        WorldTransition.accepts payload signature second = false := by
  intro confined
  have distinct : sampleAccount ≠ otherAccount := by decide
  have toFirst : callsTo sampleAccount sampleWorldCalls = sampleAccountCalls sampleAccount := by
    simp [callsTo, sampleWorldCalls, sampleAccountCalls, sampleSetup, distinct.symm]
  have toSecond : callsTo otherAccount sampleWorldCalls = sampleAccountCalls otherAccount := by
    simp [callsTo, sampleWorldCalls, sampleAccountCalls, sampleSetup, distinct]
  obtain ⟨first, memberFirst, isFirst, acceptedFirst⟩ :=
    exists_accepting (toFirst ▸ sampleAccountCalls_accepted.1)
  obtain ⟨second, memberSecond, isSecond, acceptedSecond⟩ :=
    exists_accepting (toSecond ▸ sampleAccountCalls_accepted.2)
  have refused := confined sampleWorldCalls samplePayload sampleSignature first memberFirst second
    memberSecond (by rwa [isFirst, isSecond]) acceptedFirst
  rw [acceptedSecond] at refused
  cases refused

end Ancore.Account
