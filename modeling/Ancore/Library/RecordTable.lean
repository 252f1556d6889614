import Mathlib

/-! # Records that carry their key

A table of records is the list of its rows; the key of a row is one of its fields.
With different keys a row is found by its key (`rowOf_eq_some_iff`); a row that is
changed but for its key, or put in, is found so, and every other one as it was
(`rowOf_modifyRow`, `rowOf_putRow`).
-/

namespace Ancore.Library

variable {ρ κ : Type} [DecidableEq κ] {key : ρ → κ} {table : List ρ} {row : ρ} {k other : κ}
  {change : ρ → ρ}

variable (key) in
/-- The row with a key. -/
def rowOf (table : List ρ) (k : κ) : Option ρ := table.find? fun row => key row = k

variable (key) in
/-- Change the row with a key. -/
def modifyRow (table : List ρ) (k : κ) (change : ρ → ρ) : List ρ :=
  table.map fun row => if key row = k then change row else row

theorem rowOf_cons (first : ρ) :
    rowOf key (first :: table) k = if key first = k then some first else rowOf key table k := by
  unfold rowOf
  rw [List.find?_cons]
  by_cases found : key first = k
  · simp [found]
  · simp [found]

theorem mem_of_rowOf (found : rowOf key table k = some row) : row ∈ table ∧ key row = k :=
  ⟨List.mem_of_find?_eq_some found, by simpa using List.find?_some found⟩

/-- A key that is not there finds nothing. -/
theorem rowOf_eq_none_iff : rowOf key table k = none ↔ k ∉ table.map key := by
  simp [rowOf]

/-- With different keys, what is in the table is found. -/
theorem rowOf_eq_some_iff (distinct : (table.map key).Nodup) :
    rowOf key table k = some row ↔ row ∈ table ∧ key row = k := by
  refine ⟨mem_of_rowOf, ?_⟩
  rintro ⟨member, rfl⟩
  induction table with
  | nil => cases member
  | cons first table inductionHypothesis =>
    rw [List.map_cons, List.nodup_cons] at distinct
    rw [rowOf_cons]
    obtain rfl | later := List.mem_cons.mp member
    · exact if_pos rfl
    · have different : key first ≠ key row :=
        fun same => distinct.1 (List.mem_map.mpr ⟨row, later, same.symm⟩)
      rw [if_neg different]
      exact inductionHypothesis distinct.2 later

theorem rowOf_concat :
    rowOf key (table ++ [row]) k =
      (rowOf key table k).or (if key row = k then some row else none) := by
  induction table with
  | nil => simp [rowOf]
  | cons first table inductionHypothesis =>
    rw [List.cons_append, rowOf_cons, rowOf_cons, inductionHypothesis]
    split
    · rfl
    · rfl

/-! ## Changing a row -/

theorem map_key_modifyRow (keeps : ∀ row, key row = k → key (change row) = k) :
    (modifyRow key table k change).map key = table.map key := by
  unfold modifyRow
  rw [List.map_map]
  apply List.map_congr_left
  intro row _
  simp only [Function.comp_apply]
  split
  · rename_i changed
    rw [keeps row changed, changed]
  · rfl

theorem rowOf_modifyRow (keeps : ∀ row, key row = k → key (change row) = k) :
    rowOf key (modifyRow key table k change) other =
      if other = k then (rowOf key table k).map change else rowOf key table other := by
  unfold modifyRow
  induction table with
  | nil => simp [rowOf]
  | cons first table inductionHypothesis =>
    rw [List.map_cons, rowOf_cons, inductionHypothesis, rowOf_cons, rowOf_cons]
    by_cases changed : key first = k
    · rw [if_pos changed, if_pos changed, keeps first changed]
      by_cases same : other = k
      · rw [if_pos same, if_pos same.symm, if_pos same, Option.map_some]
      · rw [if_neg same, if_neg (Ne.symm same), if_neg same, changed, if_neg (Ne.symm same)]
    · rw [if_neg changed, if_neg changed]
      by_cases found : key first = other
      · have different : other ≠ k := found ▸ changed
        rw [if_pos found, if_neg different, if_pos found]
      · rw [if_neg found, if_neg found]

/-! ## Putting a row in -/

variable (key) in
/-- A row takes the place of the one with its key, or comes last. -/
def putRow (table : List ρ) (row : ρ) : List ρ :=
  if key row ∈ table.map key then modifyRow key table (key row) fun _ => row else table ++ [row]

omit [DecidableEq κ] in
theorem nodup_concat (distinct : (table.map key).Nodup) (absent : key row ∉ table.map key) :
    ((table ++ [row]).map key).Nodup := by
  rw [List.map_append, List.nodup_append]
  refine ⟨distinct, List.nodup_singleton (key row), ?_⟩
  intro k member other isRow same
  rw [List.mem_singleton.mp isRow] at same
  exact absent (same ▸ member)

theorem nodup_putRow (distinct : (table.map key).Nodup) :
    ((putRow key table row).map key).Nodup := by
  unfold putRow
  split
  · rw [map_key_modifyRow fun _ _ => rfl]
    exact distinct
  · exact nodup_concat distinct ‹_›

theorem rowOf_putRow :
    rowOf key (putRow key table row) other =
      if other = key row then some row else rowOf key table other := by
  unfold putRow
  split
  · rename_i present
    rw [rowOf_modifyRow fun _ _ => rfl]
    cases found : rowOf key table (key row) with
    | none => exact absurd present (rowOf_eq_none_iff.mp found)
    | some old => rfl
  · rename_i absent
    rw [rowOf_concat]
    by_cases same : other = key row
    · rw [same, rowOf_eq_none_iff.mpr absent, if_pos rfl, Option.none_or]
    · rw [if_neg (Ne.symm same), if_neg same, Option.or_none]

/-- Where a key tells the row, putting one in only adds it. -/
theorem mem_putRow (distinct : (table.map key).Nodup) {found : ρ}
    (told : ∀ old ∈ table, key old = key row → old = row) :
    found ∈ putRow key table row ↔ found = row ∨ found ∈ table := by
  have placed : found ∈ putRow key table row ↔
      rowOf key (putRow key table row) (key found) = some found := by
    rw [rowOf_eq_some_iff (nodup_putRow distinct), and_iff_left rfl]
  have stood : found ∈ table ↔ rowOf key table (key found) = some found := by
    rw [rowOf_eq_some_iff distinct, and_iff_left rfl]
  rw [placed, rowOf_putRow]
  by_cases same : key found = key row
  · rw [if_pos same, Option.some.injEq]
    constructor
    · exact fun equal => .inl equal.symm
    · rintro (equal | member)
      · exact equal.symm
      · exact (told found member same).symm
  · rw [if_neg same, ← stood]
    constructor
    · exact .inr
    · rintro (rfl | member)
      · exact absurd rfl same
      · exact member

end Ancore.Library
