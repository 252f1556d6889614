import Mathlib

/-! # Tables with a unique key

A table is the list of its rows in the order they were inserted.  A row whose key
is taken is not inserted again (`insertNew`): a taken key keeps its rows
(`filter_insertAll_of_mem`), a free one gets the first row that comes with it
(`filter_insertAll_of_not_mem`), and rows come in unchanged exactly when their keys
are new and different (`insertAll_eq_append_iff`).

A table that keeps one value for a key is the list of its entries; a value that is
written replaces the one that was there (`lookup_upsert`).
-/

namespace Ancore.Library

variable {ρ κ : Type} [DecidableEq κ] (key : ρ → κ)

/-- Insert a row unless its key is taken. -/
def insertNew (table : List ρ) (row : ρ) : List ρ :=
  if key row ∈ table.map key then table else table ++ [row]

/-- Insert rows one after the other. -/
def insertAll (table rows : List ρ) : List ρ := rows.foldl (insertNew key) table

variable {key} {table rows : List ρ} {row : ρ} {k : κ}

theorem insertNew_of_mem (taken : key row ∈ table.map key) : insertNew key table row = table :=
  if_pos taken

theorem insertNew_of_not_mem (free : key row ∉ table.map key) :
    insertNew key table row = table ++ [row] :=
  if_neg free

theorem insertNew_eq_self_iff : insertNew key table row = table ↔ key row ∈ table.map key := by
  by_cases taken : key row ∈ table.map key
  · simp [insertNew_of_mem taken, taken]
  · simp [insertNew_of_not_mem taken, taken]

@[simp] theorem insertAll_nil : insertAll key table [] = table := rfl

@[simp] theorem insertAll_cons :
    insertAll key table (row :: rows) = insertAll key (insertNew key table row) rows := rfl

theorem mem_keys_insertNew :
    k ∈ (insertNew key table row).map key ↔ k ∈ table.map key ∨ k = key row := by
  by_cases taken : key row ∈ table.map key
  · rw [insertNew_of_mem taken]
    constructor
    · exact Or.inl
    · rintro (member | rfl)
      · exact member
      · exact taken
  · simp [insertNew_of_not_mem taken]

theorem mem_keys_insertAll :
    k ∈ (insertAll key table rows).map key ↔ k ∈ table.map key ∨ k ∈ rows.map key := by
  induction rows generalizing table with
  | nil => simp
  | cons row rows inductionHypothesis =>
    rw [insertAll_cons, inductionHypothesis, mem_keys_insertNew, List.map_cons, List.mem_cons,
      or_assoc]

/-- A taken key keeps its rows. -/
theorem filter_insertAll_of_mem (taken : k ∈ table.map key) :
    (insertAll key table rows).filter (fun row => key row = k) =
      table.filter fun row => key row = k := by
  induction rows generalizing table with
  | nil => rfl
  | cons row rows inductionHypothesis =>
    rw [insertAll_cons, inductionHypothesis (mem_keys_insertNew.mpr (.inl taken))]
    by_cases rowTaken : key row ∈ table.map key
    · rw [insertNew_of_mem rowTaken]
    · have different : key row ≠ k := fun same => rowTaken (same ▸ taken)
      simp [insertNew_of_not_mem rowTaken, different]

/-- A free key gets the first row that comes with it. -/
theorem filter_insertAll_of_not_mem (free : k ∉ table.map key) :
    (insertAll key table rows).filter (fun row => key row = k) =
      (rows.find? fun row => key row = k).toList := by
  induction rows generalizing table with
  | nil =>
    apply List.filter_eq_nil_iff.mpr
    intro row member isKey
    exact free (of_decide_eq_true isKey ▸ List.mem_map_of_mem member)
  | cons row rows inductionHypothesis =>
    rw [insertAll_cons]
    by_cases same : key row = k
    · subst same
      rw [filter_insertAll_of_mem (mem_keys_insertNew.mpr (.inr rfl)), insertNew_of_not_mem free]
      have before : table.filter (fun other => key other = key row) = [] := by
        apply List.filter_eq_nil_iff.mpr
        intro other member isKey
        exact free (of_decide_eq_true isKey ▸ List.mem_map_of_mem member)
      simp [before]
    · have stillFree : k ∉ (insertNew key table row).map key := by
        rw [mem_keys_insertNew]
        rintro (taken | isRow)
        · exact free taken
        · exact same isRow.symm
      rw [inductionHypothesis stillFree, List.find?_cons_of_neg (by simpa using same)]

theorem length_insertAll_le : (insertAll key table rows).length ≤ table.length + rows.length := by
  induction rows generalizing table with
  | nil => simp
  | cons row rows inductionHypothesis =>
    have rest := @inductionHypothesis (insertNew key table row)
    have one : (insertNew key table row).length ≤ table.length + 1 := by
      unfold insertNew
      split <;> simp
    simp only [insertAll_cons, List.length_cons]
    omega

/-- Nothing is dropped exactly when the keys are new and different. -/
theorem insertAll_eq_append_iff :
    insertAll key table rows = table ++ rows ↔
      (rows.map key).Nodup ∧ ∀ row ∈ rows, key row ∉ table.map key := by
  induction rows generalizing table with
  | nil => simp
  | cons row rows inductionHypothesis =>
    rw [insertAll_cons]
    by_cases taken : key row ∈ table.map key
    · constructor
      · intro same
        have short : (insertAll key table rows).length ≤ table.length + rows.length :=
          length_insertAll_le
        rw [insertNew_of_mem taken] at same
        rw [same, List.length_append, List.length_cons] at short
        omega
      · rintro ⟨_, fresh⟩
        exact absurd taken (fresh row List.mem_cons_self)
    · have regroup : table ++ row :: rows = (table ++ [row]) ++ rows := by simp
      rw [insertNew_of_not_mem taken, regroup, inductionHypothesis]
      simp only [List.map_append, List.map_cons, List.map_nil, List.mem_append, List.mem_singleton,
        List.nodup_cons, List.forall_mem_cons, not_or, List.mem_map, not_exists, not_and]
      constructor
      · rintro ⟨nodup, fresh⟩
        exact ⟨⟨fun other member => (fresh other member).2, nodup⟩, by simpa using taken,
          fun other member => (fresh other member).1⟩
      · rintro ⟨⟨different, nodup⟩, _, fresh⟩
        exact ⟨nodup, fun other member => ⟨fresh other member, different other member⟩⟩

/-- A projection of the rows that keeps their keys commutes with insertion. -/
theorem map_insertNew {ρ' : Type} {key' : ρ' → κ} {view : ρ → ρ'}
    (keeps : ∀ row, key' (view row) = key row) :
    (insertNew key table row).map view = insertNew key' (table.map view) (view row) := by
  have keys : (table.map view).map key' = table.map key := by simp [keeps]
  unfold insertNew
  rw [keys, keeps]
  split <;> simp

/-! ## Values by key -/

section Values

variable {β : Type} {table : List (κ × β)} {k k' : κ} {value : β}

/-- Write the value of a key. -/
def upsert (table : List (κ × β)) (k : κ) (value : β) : List (κ × β) :=
  (k, value) :: table.filter fun entry => entry.1 ≠ k

/-- Remove the value of a key. -/
def remove (table : List (κ × β)) (k : κ) : List (κ × β) := table.filter fun entry => entry.1 ≠ k

theorem lookup_cons_of_ne (different : k' ≠ k) :
    ((k, value) :: table).lookup k' = table.lookup k' := by
  rw [List.lookup_cons, beq_false_of_ne different]

/-- Values that are seen through a view are looked up through it. -/
theorem lookup_map_snd {γ : Type} (view : β → γ) :
    (table.map (Prod.map id view)).lookup k = (table.lookup k).map view := by
  induction table with
  | nil => rfl
  | cons entry table inductionHypothesis =>
    obtain ⟨key, value⟩ := entry
    rw [List.map_cons, Prod.map_apply, id_eq]
    by_cases found : k = key
    · rw [found, List.lookup_cons_self, List.lookup_cons_self, Option.map_some]
    · rw [lookup_cons_of_ne found, lookup_cons_of_ne found, inductionHypothesis]

theorem map_remove {γ : Type} (view : β → γ) :
    (remove table k).map (Prod.map id view) = remove (table.map (Prod.map id view)) k := by
  unfold remove
  rw [List.filter_map]
  rfl

theorem map_upsert {γ : Type} (view : β → γ) :
    (upsert table k value).map (Prod.map id view) =
      upsert (table.map (Prod.map id view)) k (view value) :=
  congrArg (List.cons (k, view value)) (map_remove view)

theorem mem_of_lookup (found : table.lookup k = some value) : (k, value) ∈ table := by
  obtain ⟨before, after, rfl, -⟩ := List.lookup_eq_some_iff.mp found
  exact List.mem_append_right before List.mem_cons_self

theorem lookup_remove : (remove table k).lookup k' = if k' = k then none else table.lookup k' := by
  induction table with
  | nil => simp [remove]
  | cons entry table inductionHypothesis =>
    obtain ⟨key, value⟩ := entry
    unfold remove at *
    by_cases removed : key = k
    · subst removed
      rw [List.filter_cons_of_neg (by simp), inductionHypothesis]
      by_cases same : k' = key
      · rw [if_pos same, if_pos same]
      · rw [if_neg same, if_neg same, lookup_cons_of_ne same]
    · rw [List.filter_cons_of_pos (by simpa using removed)]
      by_cases same : k' = key
      · subst same
        rw [List.lookup_cons_self, List.lookup_cons_self, if_neg removed]
      · rw [lookup_cons_of_ne same, lookup_cons_of_ne same, inductionHypothesis]

theorem lookup_upsert :
    (upsert table k value).lookup k' = if k' = k then some value else table.lookup k' := by
  unfold upsert
  by_cases same : k' = k
  · rw [same, List.lookup_cons_self, if_pos rfl]
  · rw [lookup_cons_of_ne same, if_neg same]
    exact lookup_remove.trans (if_neg same)

end Values

end Ancore.Library
