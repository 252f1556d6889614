import Mathlib

/-! # Merging entries into a table against a snapshot

Entries are merged one by one into a live table, but each is compared with the table as it was
before the first of them.  With several entries for one key the result depends on what the snapshot
had: the entries may as well be merged a second time exactly when they agree on every key
(`merged_merged_iff`).
-/

namespace Ancore.Library

variable {κ ν : Type} [DecidableEq κ] [DecidableEq ν]

/-- A value for a key of the snapshot is written where it is another one than the snapshot's, and a
value for any other key where there is none yet. -/
def writes (snapshot live : κ → Option ν) (entry : κ × ν) : Bool :=
  match snapshot entry.1 with
  | some value => value ≠ entry.2
  | none => (live entry.1).isNone

def mergeEntry (snapshot live : κ → Option ν) (entry : κ × ν) : κ → Option ν :=
  if writes snapshot live entry then Function.update live entry.1 (some entry.2) else live

def mergeEntries (snapshot live : κ → Option ν) (entries : List (κ × ν)) : κ → Option ν :=
  entries.foldl (mergeEntry snapshot) live

def merged (table : κ → Option ν) (entries : List (κ × ν)) : κ → Option ν :=
  mergeEntries table table entries

/-- No key has two values. -/
def Agree (entries : List (κ × ν)) : Prop :=
  ∀ entry ∈ entries, ∀ other ∈ entries, entry.1 = other.1 → entry.2 = other.2

variable {snapshot live table : κ → Option ν} {entry : κ × ν} {entries : List (κ × ν)} {k : κ}
  {value : ν}

omit [DecidableEq κ] in
theorem writes_of_known (known : snapshot entry.1 = some value) :
    writes snapshot live entry = true ↔ value ≠ entry.2 := by
  rw [writes, known]
  exact decide_eq_true_iff

omit [DecidableEq κ] in
theorem writes_of_unknown (unknown : snapshot entry.1 = none) :
    writes snapshot live entry = true ↔ live entry.1 = none := by
  rw [writes, unknown]
  exact Option.isNone_iff_eq_none

theorem mergeEntry_of_ne (other : entry.1 ≠ k) : mergeEntry snapshot live entry k = live k := by
  unfold mergeEntry
  split_ifs
  · exact Function.update_of_ne (Ne.symm other) _ _
  · rfl

/-- What an entry leaves under its own key. -/
theorem mergeEntry_self :
    mergeEntry snapshot live entry entry.1 =
      if writes snapshot live entry then some entry.2 else live entry.1 := by
  unfold mergeEntry
  split_ifs
  · exact Function.update_self _ _ _
  · rfl

/-- A key of an entry has a value afterwards. -/
theorem mergeEntries_ne_none (kept : snapshot k ≠ none → live k ≠ none)
    (named : live k ≠ none ∨ ∃ entry ∈ entries, entry.1 = k) :
    mergeEntries snapshot live entries k ≠ none := by
  induction entries generalizing live with
  | nil =>
    rcases named with present | ⟨entry, member, -⟩
    · exact present
    · exact absurd member List.not_mem_nil
  | cons entry entries ih =>
    by_cases here : entry.1 = k
    · subst here
      have present : mergeEntry snapshot live entry entry.1 ≠ none := by
        rw [mergeEntry_self]
        split_ifs with written
        · exact Option.some_ne_none _
        · cases before : snapshot entry.1 with
          | none => exact fun absent => written ((writes_of_unknown before).mpr absent)
          | some value => exact kept (before ▸ Option.some_ne_none _)
      exact ih (fun _ => present) (.inl present)
    · have same : mergeEntry snapshot live entry k = live k := mergeEntry_of_ne here
      refine ih (by rwa [same]) ?_
      rw [same]
      rcases named with present | ⟨other, member, named⟩
      · exact .inl present
      · rcases List.mem_cons.mp member with rfl | later
        · exact absurd named here
        · exact .inr ⟨other, later, named⟩

/-- With one entry that is not the snapshot's value, the key has another value afterwards. -/
theorem mergeEntries_ne_snapshot (known : snapshot k = some value)
    (changed : live k ≠ some value ∨ ∃ entry ∈ entries, entry.1 = k ∧ entry.2 ≠ value) :
    mergeEntries snapshot live entries k ≠ some value := by
  induction entries generalizing live with
  | nil =>
    rcases changed with already | ⟨entry, member, -⟩
    · exact already
    · exact absurd member List.not_mem_nil
  | cons entry entries ih =>
    refine ih ?_
    by_cases here : entry.1 = k
    · subst here
      rw [mergeEntry_self]
      split_ifs with written
      · rw [writes_of_known known] at written
        exact .inl fun same => written (Option.some.inj same).symm
      · rw [writes_of_known known, not_ne_iff] at written
        rcases changed with already | ⟨other, member, named, differs⟩
        · exact .inl already
        · rcases List.mem_cons.mp member with rfl | later
          · exact absurd written.symm differs
          · exact .inr ⟨other, later, named, differs⟩
    · rw [mergeEntry_of_ne here]
      rcases changed with already | ⟨other, member, named, differs⟩
      · exact .inl already
      · rcases List.mem_cons.mp member with rfl | later
        · exact absurd named here
        · exact .inr ⟨other, later, named, differs⟩

/-- Entries that agree on a key leave their value there. -/
theorem mergeEntries_of_agree (agree : ∀ entry ∈ entries, entry.1 = k → entry.2 = value)
    (start : live k = some value ∨
      live k = snapshot k ∧ ∃ entry ∈ entries, entry.1 = k) :
    mergeEntries snapshot live entries k = some value := by
  induction entries generalizing live with
  | nil =>
    rcases start with done | ⟨-, entry, member, -⟩
    · exact done
    · exact absurd member List.not_mem_nil
  | cons entry entries ih =>
    obtain ⟨first, rest⟩ := List.forall_mem_cons.mp agree
    refine ih rest ?_
    by_cases here : entry.1 = k
    · subst here
      refine .inl ?_
      rw [mergeEntry_self, first rfl]
      split_ifs with written
      · rfl
      · rcases start with done | ⟨same, -⟩
        · exact done
        · -- an entry that is not written has the value that is there
          cases before : snapshot entry.1 with
          | none => exact absurd ((writes_of_unknown before).mpr (same.trans before)) written
          | some old =>
            rw [writes_of_known before, not_ne_iff] at written
            rw [same, before, written, first rfl]
    · rw [mergeEntry_of_ne here]
      rcases start with done | ⟨same, other, member, named⟩
      · exact .inl done
      · rcases List.mem_cons.mp member with rfl | later
        · exact absurd named here
        · exact .inr ⟨same, other, later, named⟩

theorem mergeEntries_of_settled (settled : ∀ entry ∈ entries, snapshot entry.1 = some entry.2) :
    mergeEntries snapshot live entries = live := by
  induction entries generalizing live with
  | nil => rfl
  | cons entry entries ih =>
    obtain ⟨first, rest⟩ := List.forall_mem_cons.mp settled
    have unwritten : ¬ writes snapshot live entry = true := by
      rw [writes_of_known first]
      exact fun differs => differs rfl
    rw [mergeEntries, List.foldl_cons, mergeEntry, if_neg unwritten]
    exact ih rest

theorem merged_of_agree (agree : Agree entries) (member : entry ∈ entries) :
    merged table entries entry.1 = some entry.2 := by
  refine mergeEntries_of_agree (fun other isEntry same => ?_) (.inr ⟨rfl, entry, member, rfl⟩)
  exact agree other isEntry entry member same

/-- The entries can be merged again without an effect exactly when they agree. -/
theorem merged_merged_iff :
    merged (merged table entries) entries = merged table entries ↔ Agree entries := by
  constructor
  · intro again entry member other isEntry same
    have value : ∃ value, merged table entries entry.1 = some value :=
      Option.ne_none_iff_exists'.mp
        (mergeEntries_ne_none id (.inr ⟨entry, member, rfl⟩))
    obtain ⟨value, known⟩ := value
    -- an entry with another value would take its place
    have agrees (one : κ × ν) (isOne : one ∈ entries) (named : one.1 = entry.1) :
        one.2 = value := by
      by_contra differs
      have changed : merged (merged table entries) entries entry.1 ≠ some value :=
        mergeEntries_ne_snapshot known (.inr ⟨one, isOne, named, differs⟩)
      exact changed ((congrFun again entry.1).trans known)
    rw [agrees entry member rfl, agrees other isEntry same.symm]
  · intro agree
    exact mergeEntries_of_settled fun entry member => merged_of_agree agree member

end Ancore.Library
