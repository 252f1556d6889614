import Ancore.Account.Nonce

/-! # Multi-owner mode

Whatever quorum calls a run makes, the stored owners are distinct and the stored
threshold is met by some of them (`Storage.QuorumExists`).  That quorum binds the
quorum path of `execute` only: the owner path still answers to the `Owner` key
(`multiOwner_binding_iff`).
-/

namespace Ancore.Account

open Ancore.Library Ancore.Library.FixedWidth Ancore.Soroban

/-! ## A quorum always exists -/

/-- Stored owners are distinct, and at least one and at most all of them are asked for. -/
def Storage.QuorumExists (storage : Storage) : Prop :=
  ∀ owners, storage.owners = some owners →
    ∃ threshold, storage.threshold = some threshold ∧ owners ≠ [] ∧ owners.Nodup ∧
      1 ≤ threshold.toNat ∧ threshold.toNat ≤ owners.length

section Step

variable {env : Env} {before after : Storage} {call : Call} {authorizers : List Address}
  {request : ExecuteRequest}

theorem one_le_toNat {threshold : UInt32} (positive : threshold ≠ 0) : 1 ≤ threshold.toNat := by
  have nonzero : threshold.toNat ≠ 0 := fun zero => positive (UInt32.toNat_inj.mp zero)
  omega

theorem length_filter_ne {owners : List Address} {removed : Address} (nodup : owners.Nodup)
    (member : removed ∈ owners) :
    (owners.filter (· != removed)).length + 1 = owners.length := by
  rw [← nodup.erase_eq_filter, List.length_erase_of_mem member]
  have positive := List.length_pos_of_mem member
  omega

/-- Clamping keeps the threshold between one and the number of owners left. -/
theorem clampedThreshold_bounds {threshold : UInt32} {updated : List Address}
    (positive : 1 ≤ threshold.toNat) (nonempty : 1 ≤ updated.length) :
    1 ≤ (clampedThreshold threshold updated).toNat ∧
      (clampedThreshold threshold updated).toNat ≤ updated.length := by
  unfold clampedThreshold
  split
  · rename_i exceeds
    -- The count fits 32 bits because it lies below a threshold that does.
    have bound : updated.length < 2 ^ 32 := exceeds.trans threshold.toNat_lt
    rw [UInt32.toNat_ofNat_of_lt' bound]
    exact ⟨nonempty, le_rfl⟩
  · rename_i fits
    exact ⟨positive, not_lt.mp fits⟩

theorem SpendWrittenBack.owners {now : UInt64}
    (written : SpendWrittenBack now request before after) :
    after.owners = before.owners ∧ after.threshold = before.threshold := by
  cases written <;> exact ⟨rfl, rfl⟩

theorem Change.quorumExists (valid : before.QuorumExists)
    (change : Change env before call authorizers after) : after.QuorumExists := by
  cases change with
  | execute _ _ written =>
    obtain ⟨owners, threshold⟩ := written.owners
    rw [Storage.QuorumExists, owners, threshold]
    exact valid
  | initializeMultiOwner _ _ nonempty positive enough nodup =>
    intro owners stored
    cases stored
    exact ⟨_, rfl, nonempty, nodup, one_le_toNat positive, enough⟩
  | addOwner authority fresh =>
    intro owners stored
    cases stored
    obtain ⟨threshold, required, _, nodup, positive, enough⟩ := valid _ authority.registered
    refine ⟨threshold, required, by simp, ?_, positive, ?_⟩
    · rw [List.nodup_append]
      refine ⟨nodup, List.nodup_singleton _, ?_⟩
      rintro owner member added isAdded rfl
      exact fresh (List.mem_singleton.mp isAdded ▸ member)
    · rw [List.length_append]
      omega
  | @removeOwner _ owners _ _ ownerToRemove authority member several =>
    intro _ stored
    cases stored
    obtain ⟨threshold, required, _, nodup, positive, _⟩ := valid _ authority.registered
    cases authority.required.symm.trans required
    -- The list is duplicate-free, so exactly one entry is filtered out.
    have remaining : 1 ≤ (owners.filter (· != ownerToRemove)).length := by
      have removedOne := length_filter_ne nodup member
      omega
    obtain ⟨lower, upper⟩ := clampedThreshold_bounds positive remaining
    exact ⟨_, rfl, List.ne_nil_of_length_pos remaining, nodup.filter _, lower, upper⟩
  | setThreshold authority positive enough =>
    intro owners stored
    obtain ⟨_, _, nonempty, nodup, _, _⟩ := valid _ stored
    cases authority.registered.symm.trans stored
    exact ⟨_, rfl, nonempty, nodup, one_le_toNat positive, enough⟩
  | _ => exact valid

end Step

theorem quorumExists_invariant :
    HistoryInvariant step Storage.empty fun _ state => state.QuorumExists :=
  stateInvariant (fun _ stored => by cases stored) fun _ valid performed =>
    (AccountTransition.change performed).quorumExists valid

/-- In every reachable state with stored owners a quorum of them exists. -/
theorem quorum_always_exists (calls : List (Env × Call)) :
    (final step Storage.empty calls).QuorumExists :=
  quorumExists_invariant.holds_final calls

/-! ## What the quorum binds -/

/-- At least `threshold` distinct stored owners are among the authorizers, and no address outside
the owners is their only one. -/
def QuorumApproved (storage : Storage) (authorizers : List Address) : Prop :=
  (∃ (owners approvers : List Address) (threshold : UInt32), storage.owners = some owners ∧
    storage.threshold = some threshold ∧ approvers.Nodup ∧
    (∀ approver ∈ approvers, approver ∈ owners ∧ approver ∈ authorizers) ∧
    threshold.toNat ≤ approvers.length) ∧
  ∀ outsider, outsider ∉ storage.getOwners → ∃ approver ∈ authorizers, approver ≠ outsider

/-- An `execute` that uses no session key has the approval of the stored quorum. -/
def AccountTransition.BoundByQuorum (transition : AccountTransition) : Prop :=
  ∀ request, transition.call = .execute request →
    (∀ publicKey, request.caller ≠ .sessionKey publicKey) →
    QuorumApproved transition.before transition.authorizers

/-- An `execute` on the owner path finds the `Owner` key among the owners and a threshold that
one owner meets. -/
def AccountTransition.OwnerIsQuorum (transition : AccountTransition) : Prop :=
  ∀ request, transition.call = .execute request → request.caller = .owner →
    ∃ owner owners threshold, transition.before.owner = some owner ∧
      transition.before.owners = some owners ∧ transition.before.threshold = some threshold ∧
      owner ∈ owners ∧ threshold.toNat ≤ 1

section Approval

variable {env : Env} {storage : Storage} {owners distinct : List Address} {threshold : UInt32}
  {owner : Address}

theorem QuorumAuthority.approved (valid : storage.QuorumExists)
    (authority : QuorumAuthority env storage owners threshold distinct) :
    QuorumApproved storage distinct := by
  obtain ⟨_, required, _, _, positive, _⟩ := valid _ authority.registered
  cases authority.required.symm.trans required
  refine ⟨⟨owners, distinct, threshold, authority.registered, authority.required, authority.nodup,
    fun signer member => ⟨authority.subset signer member, member⟩, authority.enough⟩, ?_⟩
  intro outsider unlisted
  have nonempty : 0 < distinct.length := by
    have enough := authority.enough
    omega
  obtain ⟨signer, member⟩ := List.exists_mem_of_length_pos nonempty
  refine ⟨signer, member, ?_⟩
  rintro rfl
  apply unlisted
  simpa [Storage.getOwners, authority.registered] using authority.subset signer member

/-- The `Owner` key alone is a quorum when it is an owner and one owner is enough. -/
theorem QuorumApproved.of_owner (valid : storage.QuorumExists)
    (stored : storage.owners = some owners) (required : storage.threshold = some threshold) :
    QuorumApproved storage [owner] ↔ owner ∈ owners ∧ threshold.toNat ≤ 1 := by
  obtain ⟨_, required', _, _, positive, _⟩ := valid _ stored
  cases required.symm.trans required'
  constructor
  · rintro ⟨⟨_, approvers, _, stored', required', nodup, subset, enough⟩, _⟩
    cases stored.symm.trans stored'
    cases required.symm.trans required'
    -- The owner path has one authorizer, so at most one approver is among them.
    have single : approvers.length ≤ 1 := by
      have bound := (nodup.subperm fun approver member => (subset approver member).2).length_le
      simpa using bound
    obtain ⟨approver, member⟩ := List.exists_mem_of_length_pos (l := approvers) (by omega)
    obtain ⟨listed, isOwner⟩ := subset approver member
    cases List.mem_singleton.mp isOwner
    exact ⟨listed, by omega⟩
  · rintro ⟨listed, single⟩
    refine ⟨⟨owners, [owner], threshold, stored, required, List.nodup_singleton owner, ?_, single⟩,
      ?_⟩
    · intro approver member
      cases List.mem_singleton.mp member
      exact ⟨listed, member⟩
    · intro outsider unlisted
      refine ⟨owner, List.mem_singleton_self owner, ?_⟩
      rintro rfl
      exact unlisted (by simpa [Storage.getOwners, stored] using listed)

end Approval

/-- Once set, the owner set stays. -/
theorem Change.owners_isSome {env : Env} {before after : Storage} {call : Call}
    {authorizers : List Address} (present : before.owners.isSome)
    (change : Change env before call authorizers after) : after.owners.isSome := by
  cases change with
  | execute _ _ written => rwa [written.owners.1]
  | initializeMultiOwner => rfl
  | addOwner => rfl
  | removeOwner => rfl
  | _ => exact present

/-- A step in multi-owner mode is bound by the quorum exactly when its owner path is. -/
theorem AccountTransition.boundByQuorum_iff {transition : AccountTransition}
    (present : transition.before.owners.isSome) (valid : transition.before.QuorumExists)
    (performed : transition.Performed step) :
    AccountTransition.BoundByQuorum transition ↔ AccountTransition.OwnerIsQuorum transition := by
  obtain ⟨owners, stored⟩ := Option.isSome_iff_exists.mp present
  obtain ⟨threshold, required, _⟩ := valid _ stored
  constructor
  · intro bound request isExecute caller
    have change := AccountTransition.change performed
    rw [isExecute] at change
    obtain ⟨owner, authority, alone⟩ := change.caller.of_owner caller
    have approved := bound request isExecute (by simp [caller])
    rw [alone, QuorumApproved.of_owner valid stored required] at approved
    exact ⟨owner, owners, threshold, authority.registered, stored, required, approved⟩
  · intro agrees request isExecute noSession
    have change := AccountTransition.change performed
    rw [isExecute] at change
    generalize AccountTransition.authorizers transition = authorizers at change ⊢
    cases change.caller with
    | owner caller authority =>
      obtain ⟨owner, _, _, registered, stored', required', listed, single⟩ :=
        agrees request isExecute caller
      cases stored.symm.trans stored'
      cases required.symm.trans required'
      cases authority.registered.symm.trans registered
      exact (QuorumApproved.of_owner valid stored required).mpr ⟨listed, single⟩
    | quorum _ authority => exact authority.approved valid
    | session caller => exact absurd caller (noSession _)

/-- From `initialize_multi_owner` on, the executions of a run are bound by the stored quorum
exactly when each one on the owner path finds the `Owner` key to be such a quorum. -/
theorem multiOwner_binding_iff (calls : List (Env × Call))
    (earlier later : List AccountTransition) (multi : AccountTransition)
    (owners : List Address) (threshold : UInt32)
    (located : history step Storage.empty calls = earlier ++ multi :: later)
    (initialized : multi.input.2 = .initializeMultiOwner owners threshold) :
    (∀ transition ∈ later, AccountTransition.BoundByQuorum transition) ↔
      ∀ transition ∈ later, AccountTransition.OwnerIsQuorum transition := by
  obtain ⟨_, second, _, _, _, performed, rest⟩ := history_eq_append_cons step located
  -- `initialize_multi_owner` stores the owners, and nothing afterwards removes them.
  have started : multi.after.owners.isSome ∧ multi.after.QuorumExists := by
    have valid := (quorumExists_invariant.holds_before located).1
    have change := AccountTransition.change performed
    refine ⟨?_, change.quorumExists valid⟩
    rw [AccountTransition.call, initialized] at change
    generalize AccountTransition.authorizers multi = authorizers at change
    generalize multi.after = after at change
    cases change
    rfl
  have mode : HistoryInvariant step multi.after fun _ state =>
      state.owners.isSome ∧ state.QuorumExists :=
    stateInvariant started fun _ current performed =>
      ⟨(AccountTransition.change performed).owners_isSome current.1,
        (AccountTransition.change performed).quorumExists current.2⟩
  refine forall₂_congr fun transition member => ?_
  obtain ⟨before, after, found⟩ := List.append_of_mem member
  obtain ⟨⟨present, valid⟩, performed⟩ := mode.holds_before (rest.trans found)
  exact AccountTransition.boundByQuorum_iff present valid performed

/-! ## Sample runs -/

section Sample

/-- The account of the sample runs, its first owner and the two owners of its quorum. -/
def sampleAccount : Address := .contract (repeatedByte 9)
def sampleOwner : Address := .account (repeatedByte 1)
def sampleOwners : List Address := [.account (repeatedByte 2), .account (repeatedByte 3)]
def sampleTarget : Address := .contract (repeatedByte 4)

/-- A call of `validate()` on the target. -/
def sampleRequest (caller : CallerIdentity) : ExecuteRequest where
  caller := caller
  target := sampleTarget
  function := validateSymbol
  args := []
  expectedNonce := 0
  sessionPubKey := none
  signature := none
  signaturePayload := none

/-- Set up the account and its quorum, then execute; everyone given signs the last call. -/
def sampleMultiOwnerCalls (caller : CallerIdentity) (signers : List Address) : List (Env × Call) :=
  [(.sample sampleAccount 0 [sampleOwner] [], .initializeAccount sampleOwner),
    (.sample sampleAccount 0 [sampleOwner] [], .initializeMultiOwner sampleOwners 2),
    (.sample sampleAccount 0 signers [], .execute (sampleRequest caller))]

/-- Both owners of the quorum execute together: the run meets the condition, and is bound. -/
theorem multiOwner_binding_of_quorum :
    ∃ first multi last, history step Storage.empty
        (sampleMultiOwnerCalls (.quorum sampleOwners) sampleOwners) = [first, multi, last] ∧
      AccountTransition.BoundByQuorum last := by
  obtain ⟨first, multi, last, located⟩ := List.length_eq_three.mp
    (show (history step Storage.empty
      (sampleMultiOwnerCalls (.quorum sampleOwners) sampleOwners)).length = 3 from rfl)
  have inputs : [first, multi, last].map (·.input.2) =
      (sampleMultiOwnerCalls (.quorum sampleOwners) sampleOwners).map Prod.snd := by
    rw [← located]
    rfl
  simp only [List.map_cons, List.map_nil, sampleMultiOwnerCalls, List.cons.injEq] at inputs
  refine ⟨first, multi, last, located, ?_⟩
  refine (multiOwner_binding_iff _ [first] [last] multi _ _ located inputs.2.1).mpr ?_ last
    (by simp)
  intro transition member request isExecute caller
  cases List.mem_singleton.mp member
  cases inputs.2.2.1.symm.trans isExecute
  cases caller

/-- The first owner, who is in no quorum, executes alone after multi-owner mode was set up. -/
theorem multiOwner_not_binding :
    ¬ ∀ (calls : List (Env × Call)) (earlier later : List AccountTransition)
      (multi : AccountTransition) (owners : List Address) (threshold : UInt32),
      history step Storage.empty calls = earlier ++ multi :: later →
      multi.input.2 = .initializeMultiOwner owners threshold →
      ∀ transition ∈ later, AccountTransition.BoundByQuorum transition := by
  intro binding
  obtain ⟨first, multi, last, located⟩ := List.length_eq_three.mp
    (show (history step Storage.empty
      (sampleMultiOwnerCalls .owner [sampleOwner])).length = 3 from rfl)
  have inputs : [first, multi, last].map (·.input.2) =
      (sampleMultiOwnerCalls .owner [sampleOwner]).map Prod.snd := by
    rw [← located]
    rfl
  have signed : [first, multi, last].map AccountTransition.authorizers =
      [[sampleOwner], [sampleOwner], [sampleOwner]] := by
    rw [← located]
    rfl
  have stored : [first, multi, last].map (·.before.getOwners) = [[], [], sampleOwners] := by
    rw [← located]
    rfl
  simp only [List.map_cons, List.map_nil, sampleMultiOwnerCalls, List.cons.injEq]
    at inputs signed stored
  obtain ⟨_, others⟩ := binding _ [first] [last] multi _ _ located inputs.2.1 last (by simp)
    (sampleRequest .owner) inputs.2.2.1 (by simp [sampleRequest])
  obtain ⟨approver, member, other⟩ := others sampleOwner (by rw [stored.2.2.1]; decide)
  rw [signed.2.2.1] at member
  exact other (List.mem_singleton.mp member)

end Sample

end Ancore.Account
