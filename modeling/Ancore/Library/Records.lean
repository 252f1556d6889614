import Mathlib

/-! # Records by key

A record keeps one value for each of its keys; it is Mathlib's association list at
one type of values.  `sift` rewrites a record entry by entry and drops some; what is
looked up in the result is what becomes of the entry that was there (`lookup_sift`).
-/

namespace Ancore.Library

/-- A record of values of one type. -/
abbrev Record (κ β : Type) := AList fun _ : κ => β

namespace Record

variable {κ β γ : Type} [DecidableEq κ] {record : Record κ β} {k other : κ} {value : β}

theorem lookup_insert_eq :
    (record.insert k value).lookup other =
      if other = k then some value else record.lookup other := by
  split
  · rename_i same
    rw [same, AList.lookup_insert]
  · rename_i different
    rw [AList.lookup_insert_ne different]

theorem lookup_erase_eq :
    (record.erase k).lookup other = if other = k then none else record.lookup other := by
  split
  · rename_i same
    rw [same, AList.lookup_erase]
  · rename_i different
    rw [AList.lookup_erase_ne different]

/-- There is no entry. -/
def isEmpty (record : Record κ β) : Bool := record.entries.isEmpty

theorem isEmpty_iff : record.isEmpty = true ↔ ∀ k, record.lookup k = none := by
  rw [isEmpty, List.isEmpty_iff]
  constructor
  · intro empty k
    rw [AList.lookup, empty, List.dlookup_nil]
  · intro nothing
    by_contra full
    obtain ⟨⟨k, value⟩, member⟩ := List.exists_mem_of_ne_nil _ full
    have found := AList.mem_lookup_iff.mpr member
    rw [nothing k] at found
    cases found

/-- Rewrite every entry, or drop it. -/
def siftEntries (change : κ → β → Option γ) (entries : List (Σ _ : κ, β)) : List (Σ _ : κ, γ) :=
  entries.filterMap fun entry => (change entry.1 entry.2).map fun value => ⟨entry.1, value⟩

omit [DecidableEq κ] in
theorem keys_siftEntries (change : κ → β → Option γ) (entries : List (Σ _ : κ, β)) :
    (siftEntries change entries).keys.Sublist entries.keys := by
  induction entries with
  | nil => exact .slnil
  | cons entry entries inductionHypothesis =>
    unfold siftEntries at inductionHypothesis ⊢
    rw [List.filterMap_cons]
    cases change entry.1 entry.2 with
    | none => exact inductionHypothesis.cons _
    | some value => exact inductionHypothesis.cons_cons _

theorem dlookup_siftEntries (change : κ → β → Option γ) {entries : List (Σ _ : κ, β)}
    (distinct : entries.NodupKeys) :
    (siftEntries change entries).dlookup k = (entries.dlookup k).bind (change k) := by
  induction entries with
  | nil => rfl
  | cons entry entries inductionHypothesis =>
    obtain ⟨first, value⟩ := entry
    obtain ⟨absent, rest⟩ := List.nodupKeys_cons.mp distinct
    have later := inductionHypothesis rest
    unfold siftEntries at later ⊢
    rw [List.filterMap_cons]
    by_cases same : k = first
    · subst same
      rw [List.dlookup_cons_eq, Option.bind_some]
      cases change k value with
      | none =>
        -- a dropped key has no second entry
        rw [Option.map_none, later, List.dlookup_eq_none.mpr absent, Option.bind_none]
      | some changed => rw [Option.map_some, List.dlookup_cons_eq]
    · have skipped : (⟨first, value⟩ :: entries : List (Σ _ : κ, β)).dlookup k =
          entries.dlookup k := List.dlookup_cons_ne _ _ same
      rw [skipped]
      dsimp only
      cases change first value with
      | none => exact later
      | some changed => rw [Option.map_some, List.dlookup_cons_ne _ _ same, later]

def sift (change : κ → β → Option γ) (record : Record κ β) : Record κ γ where
  entries := siftEntries change record.entries
  nodupKeys := List.Nodup.sublist (keys_siftEntries change record.entries) record.nodupKeys

theorem lookup_sift (change : κ → β → Option γ) :
    (sift change record).lookup k = (record.lookup k).bind (change k) :=
  dlookup_siftEntries change record.nodupKeys

end Record

end Ancore.Library
