import Ancore.Approvals.AllowlistStore

/-! # What the allowlist store remembers

A grant is live when the last of the steps that decide about it approved it.  Without
rehydration the store remembers exactly the live grants (`remembers_take`);
rehydration keeps them where the sanitizer finds each of them valid, and only there
(`remembers_live_iff`).
-/

namespace Ancore.Approvals

open Ancore.Library

/-! ## Runs of the store -/

inductive AllowlistStep where
  | approve (grant : Grant) (now : Nat)
  | revoke (grant : Grant)
  | revokeAll (accountId network : String)
  | rehydrate

def AllowlistState.take (newURL : String → Option ParsedURL) (state : AllowlistState) :
    AllowlistStep → AllowlistState
  | .approve grant now => state.approve grant now
  | .revoke grant => state.revoke grant
  | .revokeAll accountId network => state.revokeAll accountId network
  | .rehydrate => state.rehydrate newURL

def AllowlistState.after (newURL : String → Option ParsedURL) (steps : List AllowlistStep) :
    AllowlistState :=
  steps.foldl (AllowlistState.take newURL) .empty

/-- What a step decides about a grant, if it decides about it. -/
def AllowlistStep.decides (grant : Grant) : AllowlistStep → Option Bool
  | .approve other _ => if grant = other then some true else none
  | .revoke other => if grant = other then some false else none
  | .revokeAll accountId network =>
    if grant.smartAccountId = accountId ∧ grant.network = network then some false else none
  | .rehydrate => none

/-- The last step that decides about the grant approves it. -/
def isLive (steps : List AllowlistStep) (grant : Grant) : Bool :=
  (steps.filterMap (AllowlistStep.decides grant)).getLast? = some true

theorem isLive_append (steps : List AllowlistStep) (step : AllowlistStep) (grant : Grant) :
    isLive (steps ++ [step]) grant = (step.decides grant).getD (isLive steps grant) := by
  unfold isLive
  rw [List.filterMap_append]
  cases decided : step.decides grant with
  | none => simp [decided]
  | some approved => cases approved <;> simp [decided]

/-! ## What is read of the store -/

/-- The record of a connected site, where there is one. -/
def AllowlistState.connectedSite (state : AllowlistState) (grant : Grant) :
    Option ConnectedSiteRecord :=
  (state.connectedRecords grant.smartAccountId grant.network).lookup grant.origin

/-- The store remembers these grants and no others. -/
structure Remembers (live : Grant → Bool) (state : AllowlistState) : Prop where
  isApproved : ∀ grant, state.isApproved grant = live grant
  connected : ∀ grant, (state.connectedSite grant).isSome = live grant
  listed : ∀ localeCompare accountId network now,
    ((state.getConnectedSites localeCompare accountId network now).map (·.origin)).Nodup ∧
      ∀ origin, origin ∈
          (state.getConnectedSites localeCompare accountId network now).map (·.origin) ↔
        live ⟨network, accountId, origin⟩ = true

/-- The lists of origins and the records of connected sites agree on the live grants. -/
structure Accurate (live : Grant → Bool) (state : AllowlistState) : Prop where
  distinct : ∀ accountId network, (state.getApprovedList accountId network).Nodup
  approved : ∀ grant : Grant,
    grant.origin ∈ state.getApprovedList grant.smartAccountId grant.network ↔ live grant = true
  connected : ∀ grant, (state.connectedSite grant).isSome = live grant
  faithful : ∀ grant record, state.connectedSite grant = some record →
    record.origin = grant.origin ∧ record.accountId = grant.smartAccountId ∧
      record.network = grant.network

section Lookups

variable {β : Type} {a b c d : String}

theorem childOf_insert {record : Record String (Record String β)} {child : Record String β} :
    childOf (record.insert a child) c = if c = a then child else childOf record c := by
  unfold childOf
  rw [Record.lookup_insert_eq]
  split
  · rfl
  · rfl

theorem childOf_erase {record : Record String (Record String β)} :
    childOf (record.erase a) c = if c = a then ∅ else childOf record c := by
  unfold childOf
  rw [Record.lookup_erase_eq]
  split
  · rfl
  · rfl

/-- An entry two levels down is replaced. -/
theorem lookup_insert_insert {record : Record String (Record String β)} {leaf : β} :
    (childOf (record.insert a ((childOf record a).insert b leaf)) c).lookup d =
      if c = a ∧ d = b then some leaf else (childOf record c).lookup d := by
  rw [childOf_insert]
  by_cases outer : c = a
  · subst outer
    simp only [if_true, true_and]
    exact Record.lookup_insert_eq
  · simp only [outer, if_false, false_and]

/-- An entry two levels down is deleted. -/
theorem lookup_insert_erase {record : Record String (Record String β)} :
    (childOf (record.insert a ((childOf record a).erase b)) c).lookup d =
      if c = a ∧ d = b then none else (childOf record c).lookup d := by
  rw [childOf_insert]
  by_cases outer : c = a
  · subst outer
    simp only [if_true, true_and]
    exact Record.lookup_erase_eq
  · simp only [outer, if_false, false_and]

theorem lookup_deleteIn {record : Record String (Record String β)} :
    (childOf (deleteIn record a b) c).lookup d =
      if c = a ∧ d = b then none else (childOf record c).lookup d := by
  unfold deleteIn
  cases found : record.lookup a with
  | none =>
    dsimp only
    split
    · rename_i same
      rw [same.1, childOf, found]
      rfl
    · rfl
  | some child =>
    have here : childOf record a = child := by rw [childOf, found, Option.getD_some]
    rw [← here]
    exact lookup_insert_erase

theorem lookup_unlessEmpty {child : Record String β} :
    ((unlessEmpty child).getD ∅).lookup a = child.lookup a := by
  unfold unlessEmpty
  split
  · rename_i empty
    rw [Record.isEmpty_iff.mp empty a]
    rfl
  · rfl

/-- What is looked up where both levels are sifted. -/
theorem lookup_sift_sift {γ : Type} {valid : String → Bool}
    {change : String → String → β → Option γ} {record : Record String (Record String β)} :
    (childOf (Record.sift (fun key child =>
        if valid key then unlessEmpty (Record.sift (change key) child) else none) record) a).lookup
      b = if valid a then ((childOf record a).lookup b).bind (change a b) else none := by
  rw [childOf, childOf, Record.lookup_sift]
  cases found : record.lookup a with
  | none =>
    split
    · rfl
    · rfl
  | some child =>
    rw [Option.bind_some, Option.getD_some]
    split
    · rw [lookup_unlessEmpty, Record.lookup_sift]
    · rfl

end Lookups

theorem Grant.eq_iff {grant other : Grant} : other = grant ↔
    (other.smartAccountId = grant.smartAccountId ∧ other.network = grant.network) ∧
      other.origin = grant.origin := by
  cases grant
  cases other
  simp only [Grant.mk.injEq]
  tauto

namespace AllowlistState

variable {state : AllowlistState} {grant other : Grant} {accountId network : String} {now : Nat}
  {live : Grant → Bool}

theorem isApproved_iff : state.isApproved grant = true ↔
    grant.origin ∈ state.getApprovedList grant.smartAccountId grant.network := by
  unfold isApproved
  rw [List.contains_iff_mem]

/-! ## What each step changes -/

theorem approve_of_approved (approved : state.isApproved grant = true) :
    state.approve grant now = state :=
  if_pos approved

theorem getApprovedList_approve (absent : ¬state.isApproved grant = true) :
    (state.approve grant now).getApprovedList accountId network =
      if accountId = grant.smartAccountId ∧ network = grant.network then
        state.getApprovedList accountId network ++ [grant.origin]
      else state.getApprovedList accountId network := by
  have applied : (state.approve grant now).approvedSites = _ :=
    congrArg approvedSites (if_neg absent)
  unfold getApprovedList
  rw [applied, lookup_insert_insert]
  split
  · rename_i same
    rw [same.1, same.2]
    rfl
  · rfl

theorem connectedSite_approve (absent : ¬state.isApproved grant = true) :
    (state.approve grant now).connectedSite other =
      if other = grant then some ⟨grant.origin, grant.smartAccountId, grant.network, now⟩
      else state.connectedSite other := by
  have applied : (state.approve grant now).connectedSites = _ :=
    congrArg connectedSites (if_neg absent)
  unfold connectedSite connectedRecords
  rw [applied, childOf, lookup_insert_insert]
  by_cases place : other.smartAccountId = grant.smartAccountId ∧ other.network = grant.network
  · simp only [Grant.eq_iff, place, and_self, true_and, if_true, Option.getD_some]
    exact Record.lookup_insert_eq
  · simp only [Grant.eq_iff, place, false_and, if_false]
    rfl

/-- Where nothing is approved, the origins without this one are the origins. -/
theorem getApprovedList_revoke : (state.revoke grant).getApprovedList accountId network =
    if accountId = grant.smartAccountId ∧ network = grant.network then
      (state.getApprovedList accountId network).filter (· ≠ grant.origin)
    else state.getApprovedList accountId network := by
  by_cases absent : (!state.isApproved grant) = true
  · have unchanged : state.revoke grant = state := if_pos absent
    rw [unchanged]
    split
    · rename_i same
      rw [same.1, same.2, List.filter_eq_self.mpr]
      intro origin member
      have approved : state.isApproved grant = true ↔ _ := isApproved_iff
      simp only [Bool.not_eq_true', ← Bool.not_eq_true, approved] at absent
      exact decide_eq_true fun equal => absent (equal ▸ member)
    · rfl
  · have applied : (state.revoke grant).approvedSites = _ := congrArg approvedSites (if_neg absent)
    unfold getApprovedList
    rw [applied, lookup_insert_insert]
    split
    · rename_i same
      rw [same.1, same.2]
      rfl
    · rfl

theorem connectedSite_revoke (approved : state.isApproved grant = true) :
    (state.revoke grant).connectedSite other =
      if other = grant then none else state.connectedSite other := by
  have applied : (state.revoke grant).connectedSites = _ :=
    congrArg connectedSites (if_neg (by simp [approved] : ¬(!state.isApproved grant) = true))
  unfold connectedSite connectedRecords
  rw [applied]
  dsimp only
  split
  · rename_i empty
    rw [childOf, lookup_deleteIn]
    by_cases place : other.smartAccountId = grant.smartAccountId ∧ other.network = grant.network
    · simp only [Grant.eq_iff, place, and_self, true_and, if_true, Option.getD_none]
      -- nothing is left of the network once the origin is deleted
      have nothing := Record.isEmpty_iff.mp empty other.origin
      rw [Record.lookup_erase_eq] at nothing
      exact nothing.symm
    · simp only [Grant.eq_iff, place, false_and, if_false]
      rfl
  · rw [childOf, lookup_insert_insert]
    by_cases place : other.smartAccountId = grant.smartAccountId ∧ other.network = grant.network
    · simp only [Grant.eq_iff, place, and_self, true_and, if_true, Option.getD_some]
      exact Record.lookup_erase_eq
    · simp only [Grant.eq_iff, place, false_and, if_false]
      rfl

theorem getApprovedList_revokeAll {a n : String} :
    (state.revokeAll accountId network).getApprovedList a n =
      if a = accountId ∧ n = network then [] else state.getApprovedList a n := by
  by_cases absent : ((childOf state.approvedSites accountId).lookup network).isNone = true
  · have unchanged : state.revokeAll accountId network = state := if_pos absent
    rw [unchanged]
    split
    · rename_i same
      rw [getApprovedList, same.1, same.2, Option.isNone_iff_eq_none.mp absent]
      rfl
    · rfl
  · have applied : (state.revokeAll accountId network).approvedSites = _ :=
      congrArg approvedSites (if_neg absent)
    unfold getApprovedList
    rw [applied, lookup_insert_erase]
    split
    · rfl
    · rfl

theorem connectedSite_revokeAll
    (present : ¬((childOf state.approvedSites accountId).lookup network).isNone = true) :
    (state.revokeAll accountId network).connectedSite other =
      if other.smartAccountId = accountId ∧ other.network = network then none
      else state.connectedSite other := by
  have applied : (state.revokeAll accountId network).connectedSites = _ :=
    congrArg connectedSites (if_neg present)
  unfold connectedSite connectedRecords
  rw [applied]
  dsimp only
  split
  · rename_i empty
    rw [childOf_erase]
    by_cases account : other.smartAccountId = accountId
    · simp only [account, if_true, true_and]
      have nothing := Record.isEmpty_iff.mp empty other.network
      rw [Record.lookup_erase_eq] at nothing
      split
      · rfl
      · rename_i different
        rw [if_neg different] at nothing
        have gone : childOf (childOf state.connectedSites accountId) other.network = ∅ :=
          congrArg (·.getD ∅) nothing
        rw [gone]
        rfl
    · simp only [account, if_false, false_and]
  · rw [childOf, lookup_insert_erase]
    split
    · rfl
    · rfl

/-! ## What rehydration keeps -/

variable {newURL : String → Option ParsedURL}

theorem getApprovedList_rehydrate : (state.rehydrate newURL).getApprovedList accountId network =
    if isValidAccountId accountId && isValidNetwork network then
      (state.getApprovedList accountId network).filter (isValidOrigin newURL)
    else [] := by
  unfold getApprovedList rehydrate sanitizeApprovedSites
  rw [lookup_sift_sift]
  cases isValidAccountId accountId with
  | false => rfl
  | true =>
    rw [if_pos rfl, Bool.true_and]
    cases (childOf state.approvedSites accountId).lookup network with
    | none =>
      split
      · rfl
      · rfl
    | some origins =>
      rw [Option.bind_some, Option.getD_some]
      cases isValidNetwork network with
      | false => rfl
      | true =>
        dsimp only
        -- an empty list of origins is not kept, and reads as one
        cases origins.filter (isValidOrigin newURL) with
        | nil => rfl
        | cons origin origins => rfl

theorem connectedSite_rehydrate : (state.rehydrate newURL).connectedSite grant =
    (state.connectedSite grant).bind fun record =>
      if grant.isValid newURL && record.origin = grant.origin &&
          record.accountId = grant.smartAccountId && record.network = grant.network then
        some ⟨grant.origin, grant.smartAccountId, grant.network, record.connectedAt⟩
      else none := by
  unfold connectedSite connectedRecords rehydrate sanitizeConnectedSites
  rw [childOf, lookup_sift_sift]
  cases account : isValidAccountId grant.smartAccountId with
  | false =>
    simp only [Grant.isValid, account, Bool.false_and, Bool.false_eq_true, if_false,
      Option.bind_fun_none]
    rfl
  | true =>
    have outer : childOf (childOf state.connectedSites grant.smartAccountId) grant.network =
        ((childOf state.connectedSites grant.smartAccountId).lookup grant.network).getD ∅ := rfl
    rw [if_pos rfl, outer]
    cases (childOf state.connectedSites grant.smartAccountId).lookup grant.network with
    | none => rfl
    | some byOrigin =>
      rw [Option.bind_some, Option.getD_some]
      cases network : isValidNetwork grant.network with
      | false =>
        simp only [Grant.isValid, network, Bool.false_and, Bool.and_false, Bool.false_eq_true,
          if_false, Option.bind_fun_none]
        rfl
      | true =>
        rw [if_pos rfl, lookup_unlessEmpty, Record.lookup_sift]
        simp only [Grant.isValid, account, network, Bool.true_and]

end AllowlistState

/-! ## One step -/

section Step

variable {state : AllowlistState} {live : Grant → Bool} {newURL : String → Option ParsedURL}

/-- What is live after a step. -/
def AllowlistStep.decide (step : AllowlistStep) (live : Grant → Bool) (grant : Grant) : Bool :=
  (step.decides grant).getD (live grant)

section Decides

variable {grant other : Grant} {now : Nat} {accountId network : String}

theorem decide_approve_iff : (AllowlistStep.approve grant now).decide live other = true ↔
    other = grant ∨ live other = true := by
  simp only [AllowlistStep.decide, AllowlistStep.decides]
  split <;> simp [*]

theorem decide_revoke_iff : (AllowlistStep.revoke grant).decide live other = true ↔
    other ≠ grant ∧ live other = true := by
  simp only [AllowlistStep.decide, AllowlistStep.decides]
  split <;> simp [*]

theorem decide_revokeAll_iff :
    (AllowlistStep.revokeAll accountId network).decide live other = true ↔
      ¬(other.smartAccountId = accountId ∧ other.network = network) ∧ live other = true := by
  simp only [AllowlistStep.decide, AllowlistStep.decides]
  split <;> simp [*]

end Decides

theorem Accurate.isApproved (accurate : Accurate live state) (grant : Grant) :
    state.isApproved grant = live grant := by
  rw [Bool.eq_iff_iff, AllowlistState.isApproved_iff]
  exact accurate.approved grant

/-- Records of what is live tell everything that is read of the store. -/
theorem Accurate.remembers (accurate : Accurate live state) : Remembers live state where
  isApproved := accurate.isApproved
  connected := accurate.connected
  listed := by
    intro localeCompare accountId network now
    have sameOrigins : ((state.getConnectedSites localeCompare accountId network now).map
        (·.origin)).Perm (state.getApprovedList accountId network) := by
      unfold AllowlistState.getConnectedSites
      have sorted := (List.perm_insertionSort (fun left right : ConnectedSiteRecord =>
        localeCompare left.origin right.origin ≤ 0)
        ((state.getApprovedList accountId network).map fun origin =>
          ((state.connectedRecords accountId network).lookup origin).getD
            ⟨origin, accountId, network, now⟩)).map (·.origin)
      refine sorted.trans (List.Perm.of_eq ?_)
      rw [List.map_map]
      apply List.map_id''
      intro origin
      rw [Function.comp_apply]
      cases found : (state.connectedRecords accountId network).lookup origin with
      | none => rfl
      | some record => exact (accurate.faithful ⟨network, accountId, origin⟩ record found).1
    constructor
    · exact sameOrigins.nodup_iff.mpr (accurate.distinct accountId network)
    · intro origin
      rw [sameOrigins.mem_iff]
      exact accurate.approved ⟨network, accountId, origin⟩

theorem accurate_empty : Accurate (fun _ => false) .empty where
  distinct := fun _ _ => List.nodup_nil
  approved := fun _ => ⟨fun member => (List.not_mem_nil member).elim, fun never => by cases never⟩
  connected := fun _ => rfl
  faithful := fun _ _ found => by cases found

theorem Accurate.approve (accurate : Accurate live state) (grant : Grant) (now : Nat) :
    Accurate ((AllowlistStep.approve grant now).decide live) (state.approve grant now) := by
  by_cases approved : state.isApproved grant = true
  · have same : (AllowlistStep.approve grant now).decide live = live := by
      funext other
      rw [Bool.eq_iff_iff, decide_approve_iff]
      apply or_iff_right_of_imp
      intro equal
      rw [equal, ← accurate.isApproved, approved]
    rw [same, AllowlistState.approve_of_approved approved]
    exact accurate
  · constructor
    case distinct =>
      intro accountId network
      rw [AllowlistState.getApprovedList_approve approved]
      split
      · rename_i same
        rw [same.1, same.2, ← List.concat_eq_append]
        have absent := mt AllowlistState.isApproved_iff.mpr approved
        exact (accurate.distinct _ _).concat absent
      · exact accurate.distinct accountId network
    case approved =>
      intro other
      rw [AllowlistState.getApprovedList_approve approved, decide_approve_iff, Grant.eq_iff,
        ← accurate.approved other]
      split
      · rename_i same
        simp [same, or_comm]
      · rename_i different
        simp [different]
    case connected =>
      intro other
      rw [Bool.eq_iff_iff, decide_approve_iff, AllowlistState.connectedSite_approve approved,
        ← accurate.connected other]
      split <;> simp [*]
    case faithful =>
      intro other record found
      rw [AllowlistState.connectedSite_approve approved] at found
      split at found
      · rename_i same
        cases found
        rw [same]
        exact ⟨rfl, rfl, rfl⟩
      · exact accurate.faithful other record found

theorem Accurate.revoke (accurate : Accurate live state) (grant : Grant) :
    Accurate ((AllowlistStep.revoke grant).decide live) (state.revoke grant) := by
  have connectedSite (other : Grant) : (state.revoke grant).connectedSite other =
      if other = grant then none else state.connectedSite other := by
    by_cases approved : state.isApproved grant = true
    · exact AllowlistState.connectedSite_revoke approved
    · -- nothing is connected where nothing was approved
      have absent : (!state.isApproved grant) = true := by simpa using approved
      have unchanged : state.revoke grant = state := if_pos absent
      rw [unchanged]
      split
      · rename_i same
        rw [accurate.isApproved, ← accurate.connected] at approved
        rw [same]
        exact Option.not_isSome_iff_eq_none.mp approved
      · rfl
  constructor
  case distinct =>
    intro accountId network
    rw [AllowlistState.getApprovedList_revoke]
    split
    · exact (accurate.distinct accountId network).filter _
    · exact accurate.distinct accountId network
  case approved =>
    intro other
    rw [AllowlistState.getApprovedList_revoke, decide_revoke_iff, ne_eq, Grant.eq_iff,
      ← accurate.approved other]
    split
    · rename_i same
      simp [same, and_comm]
    · rename_i different
      simp [different]
  case connected =>
    intro other
    rw [Bool.eq_iff_iff, decide_revoke_iff, connectedSite, ← accurate.connected other]
    split <;> simp [*]
  case faithful =>
    intro other record found
    rw [connectedSite] at found
    split at found
    · cases found
    · exact accurate.faithful other record found

theorem Accurate.revokeAll (accurate : Accurate live state) (accountId network : String) :
    Accurate ((AllowlistStep.revokeAll accountId network).decide live)
      (state.revokeAll accountId network) := by
  have connectedSite (other : Grant) : (state.revokeAll accountId network).connectedSite other =
      if other.smartAccountId = accountId ∧ other.network = network then none
      else state.connectedSite other := by
    by_cases absent : ((childOf state.approvedSites accountId).lookup network).isNone = true
    · have unchanged : state.revokeAll accountId network = state := if_pos absent
      rw [unchanged]
      split
      · rename_i same
        have dead : ¬live other = true := by
          rw [← accurate.approved, AllowlistState.getApprovedList, same.1, same.2,
            Option.isNone_iff_eq_none.mp absent]
          exact List.not_mem_nil
        rw [← accurate.connected] at dead
        exact Option.not_isSome_iff_eq_none.mp dead
      · rfl
    · exact AllowlistState.connectedSite_revokeAll absent
  constructor
  case distinct =>
    intro a n
    rw [AllowlistState.getApprovedList_revokeAll]
    split
    · exact List.nodup_nil
    · exact accurate.distinct a n
  case approved =>
    intro other
    rw [AllowlistState.getApprovedList_revokeAll, decide_revokeAll_iff, ← accurate.approved other]
    split <;> simp [*]
  case connected =>
    intro other
    rw [Bool.eq_iff_iff, decide_revokeAll_iff, connectedSite, ← accurate.connected other]
    split <;> simp [*]
  case faithful =>
    intro other record found
    rw [connectedSite] at found
    split at found
    · cases found
    · exact accurate.faithful other record found

/-- Rehydration keeps what is live where every live grant is valid. -/
theorem Accurate.rehydrate (accurate : Accurate live state)
    (valid : ∀ grant, live grant = true → grant.isValid newURL = true) :
    Accurate live (state.rehydrate newURL) := by
  constructor
  case distinct =>
    intro accountId network
    rw [AllowlistState.getApprovedList_rehydrate]
    split
    · exact (accurate.distinct accountId network).filter _
    · exact List.nodup_nil
  case approved =>
    intro grant
    have known := valid grant
    rw [← accurate.approved] at known ⊢
    rw [AllowlistState.getApprovedList_rehydrate]
    unfold Grant.isValid at known
    split
    · grind
    · grind
  case connected =>
    intro grant
    rw [AllowlistState.connectedSite_rehydrate, ← accurate.connected grant]
    cases found : state.connectedSite grant with
    | none => rfl
    | some record =>
      have lives : live grant = true := by rw [← accurate.connected, found]; rfl
      obtain ⟨origin, account, network⟩ := accurate.faithful grant record found
      simp [valid grant lives, origin, account, network]
  case faithful =>
    intro grant record found
    rw [AllowlistState.connectedSite_rehydrate] at found
    obtain ⟨before, _, kept⟩ := Option.bind_eq_some_iff.mp found
    split at kept
    · cases kept
      exact ⟨rfl, rfl, rfl⟩
    · cases kept

theorem Accurate.take (accurate : Accurate live state) {step : AllowlistStep}
    (valid : step = .rehydrate → ∀ grant, live grant = true → grant.isValid newURL = true) :
    Accurate (step.decide live) (state.take newURL step) := by
  cases step with
  | approve grant now => exact accurate.approve grant now
  | revoke grant => exact accurate.revoke grant
  | revokeAll accountId network => exact accurate.revokeAll accountId network
  | rehydrate => exact accurate.rehydrate (valid rfl)

end Step

/-! ## Runs -/

section Runs

variable (newURL : String → Option ParsedURL)

theorem after_append (steps : List AllowlistStep) (step : AllowlistStep) :
    AllowlistState.after newURL (steps ++ [step]) =
      (AllowlistState.after newURL steps).take newURL step := by
  unfold AllowlistState.after
  rw [List.foldl_append, List.foldl_cons, List.foldl_nil]

theorem accurate_after (steps : List AllowlistStep)
    (valid : ∀ earlier, earlier ++ [.rehydrate] <+: steps →
      ∀ grant, isLive earlier grant = true → grant.isValid newURL = true) :
    Accurate (isLive steps) (.after newURL steps) := by
  induction steps using List.reverseRecOn with
  | nil => exact accurate_empty
  | append_singleton steps step inductionHypothesis =>
    have before := inductionHypothesis fun earlier within =>
      valid earlier (within.trans (List.prefix_append steps [step]))
    have decided : isLive (steps ++ [step]) = step.decide (isLive steps) :=
      funext (isLive_append steps step)
    rw [after_append, decided]
    apply before.take
    intro rehydrated
    rw [rehydrated] at valid
    exact valid steps (List.prefix_refl _)

/-- The store remembers the live grants throughout a run exactly when every rehydration of the run
finds every live grant valid. -/
theorem remembers_live_iff (steps : List AllowlistStep) :
    (∀ earlier, earlier <+: steps → Remembers (isLive earlier) (.after newURL earlier)) ↔
      ∀ earlier, earlier ++ [.rehydrate] <+: steps →
        ∀ grant, isLive earlier grant = true → grant.isValid newURL = true := by
  constructor
  · intro remembers earlier within grant live
    have remembered := (remembers _ within).isApproved grant
    rw [isLive_append, after_append] at remembered
    -- rehydration decides nothing, so the grant is still approved
    have approved := AllowlistState.isApproved_iff.mp (remembered.trans live)
    rw [AllowlistState.take, AllowlistState.getApprovedList_rehydrate] at approved
    split at approved
    · rename_i place
      unfold Grant.isValid
      rw [place, Bool.true_and]
      exact (List.mem_filter.mp approved).2
    · cases approved
  · intro valid earlier within
    exact (accurate_after newURL earlier fun before inside =>
      valid before (inside.trans within)).remembers

end Runs

/-- A page asks for access on a network that it calls `public`; the user approves, and the browser
starts again. -/
theorem live_grant_forgotten :
    let newURL : String → Option ParsedURL := fun value => some ⟨"https:", value⟩
    let grant : Grant := ⟨"public", defaultMockSmartAccountId, "https://dapp.example"⟩
    let steps : List AllowlistStep := [.approve grant 0, .rehydrate]
    isLive steps grant = true ∧ (AllowlistState.after newURL steps).isApproved grant = false ∧
      ¬Remembers (isLive steps) (.after newURL steps) := by
  intro newURL grant steps
  have live : isLive steps grant = true := by decide
  have forgotten : (AllowlistState.after newURL steps).isApproved grant = false := by decide
  refine ⟨live, forgotten, ?_⟩
  intro remembers
  rw [remembers.isApproved, live] at forgotten
  cases forgotten

end Ancore.Approvals
