import Mathlib

/-! # Counting a quorum over a list

A threshold is checked by counting the places of a member list that hold an
approved member.  The count is one of distinct members exactly when the list has
no duplicate or the threshold is trivial: otherwise fewer members can reach it.
-/

namespace Ancore.Library

variable {α : Type*} {members : List α} {threshold : Nat}

/-- At least `threshold` distinct members are approved. -/
def AtLeastDistinct (threshold : Nat) (members : List α) (approved : α → Prop) : Prop :=
  ∃ approvers : List α, approvers.Nodup ∧ threshold ≤ approvers.length ∧
    ∀ approver ∈ approvers, approver ∈ members ∧ approved approver

theorem AtLeastDistinct.mono {approved granted : α → Prop}
    (distinct : AtLeastDistinct threshold members approved)
    (grants : ∀ member, approved member → granted member) :
    AtLeastDistinct threshold members granted := by
  obtain ⟨approvers, nodup, enough, listed⟩ := distinct
  exact ⟨approvers, nodup, enough, fun approver member =>
    ⟨(listed approver member).1, grants _ (listed approver member).2⟩⟩

/-- Counting the places of a list without duplicates counts members. -/
theorem atLeastDistinct_of_nodup {approved : α → Bool} (nodup : members.Nodup)
    (enough : threshold ≤ members.countP approved) :
    AtLeastDistinct threshold members (approved · = true) := by
  refine ⟨members.filter approved, nodup.filter _, ?_, fun approver member => ?_⟩
  · rwa [← List.countP_eq_length_filter]
  · exact List.mem_filter.mp member

/-- One approved place is one approved member. -/
theorem atLeastDistinct_of_le_one {approved : α → Bool} (trivial : threshold ≤ 1)
    (enough : threshold ≤ members.countP approved) :
    AtLeastDistinct threshold members (approved · = true) := by
  rcases Nat.le_one_iff_eq_zero_or_eq_one.mp trivial with rfl | rfl
  · exact ⟨[], List.nodup_nil, Nat.le_refl _, by simp⟩
  · obtain ⟨approver, member, approval⟩ := List.countP_pos_iff.mp enough
    exact ⟨[approver], List.nodup_singleton _, Nat.le_refl _, by simpa using ⟨member, approval⟩⟩

section Deceived

variable [DecidableEq α]

/-- A member listed twice is counted twice. -/
theorem countP_of_duplicate {member : α} {others : List α} (twice : 2 ≤ members.count member)
    (nodup : others.Nodup) (fresh : member ∉ others) (listed : ∀ other ∈ others, other ∈ members) :
    others.length + 2 ≤ members.countP (· ∈ member :: others) := by
  -- The list holds the doubled member and every other approver: compare multiplicities.
  have subperm : (member :: member :: others).Subperm members := by
    rw [List.subperm_ext_iff]
    intro counted counting
    by_cases same : counted = member
    · subst same
      simpa [List.count_eq_zero_of_not_mem fresh] using twice
    · have other : counted ∈ others := by simpa [same] using counting
      rw [List.count_cons_of_ne (Ne.symm same), List.count_cons_of_ne (Ne.symm same),
        List.count_eq_one_of_mem nodup other]
      exact List.count_pos_iff.mpr (listed counted other)
  have counted := subperm.countP_le (fun counted => decide (counted ∈ member :: others))
  have all : (member :: member :: others).countP
      (fun counted => decide (counted ∈ member :: others)) = others.length + 2 := by
    rw [List.countP_eq_length.mpr (by simp)]
    rfl
  rwa [all] at counted

/-- Where a member is listed twice, fewer members than a threshold of two or more reach it. -/
theorem exists_approvers_of_duplicate (duplicate : ¬ members.Nodup) (many : 2 ≤ threshold)
    (reachable : threshold ≤ members.length) :
    ∃ approvers : List α, approvers.length < threshold ∧
      (∀ approver ∈ approvers, approver ∈ members) ∧
      threshold ≤ members.countP (· ∈ approvers) := by
  by_cases few : members.dedup.length < threshold
  -- Too few different members: all of them approve, and every place counts.
  · refine ⟨members.dedup, few, fun _ => List.mem_dedup.mp, ?_⟩
    rwa [List.countP_eq_length.mpr (by simp)]
  · obtain ⟨member, twice⟩ : ∃ member, 2 ≤ members.count member := by
      simpa [List.nodup_iff_count_le_one, Nat.lt_iff_add_one_le] using duplicate
    -- Enough different members: the doubled one and `threshold - 2` others are one short of the
    -- threshold, but fill `threshold` places.
    have member_mem : member ∈ members := List.count_pos_iff.mp (by omega)
    have others_nodup := (members.nodup_dedup.erase member).sublist
      (List.take_sublist (threshold - 2) _)
    have others_length : ((members.dedup.erase member).take (threshold - 2)).length =
        threshold - 2 := by
      rw [List.length_take, List.length_erase_of_mem (List.mem_dedup.mpr member_mem)]
      omega
    have listed : ∀ other ∈ (members.dedup.erase member).take (threshold - 2), other ∈ members :=
      fun other found => List.mem_dedup.mp (List.mem_of_mem_erase (List.mem_of_mem_take found))
    have fresh : member ∉ (members.dedup.erase member).take (threshold - 2) := fun found =>
      members.nodup_dedup.not_mem_erase (List.mem_of_mem_take found)
    have counted := countP_of_duplicate twice others_nodup fresh listed
    rw [others_length] at counted
    refine ⟨member :: (members.dedup.erase member).take (threshold - 2), ?_, ?_, by omega⟩
    · rw [List.length_cons, others_length]
      omega
    · intro approver found
      rcases List.mem_cons.mp found with rfl | found
      · exact member_mem
      · exact listed approver found

end Deceived

/-- Distinct approved members are no more than those the approval is granted to. -/
theorem AtLeastDistinct.le_length {approved : List α}
    (distinct : AtLeastDistinct threshold members (· ∈ approved)) :
    threshold ≤ approved.length := by
  obtain ⟨approvers, nodup, enough, listed⟩ := distinct
  exact enough.trans (nodup.subperm fun _ member => (listed _ member).2).length_le

end Ancore.Library
