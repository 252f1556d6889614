import Mathlib

/-! # Reading an ordered list behind a cursor

A reader that remembers a key, takes the first rows behind it and moves the key to
the highest it has taken (`traversal`).  When several rows may have one key, a batch
can end between two of them; then the rest is never read.  `traversal_spec` says
that this is the only way to lose a row.
-/

namespace Ancore.Library

variable {ρ κ : Type} [LinearOrder κ] (key : ρ → κ)

/-- The rows behind a cursor. -/
def behind (cursor : κ) (rows : List ρ) : List ρ := rows.filter fun row => cursor < key row

/-- The cursor after a batch. -/
def advance (cursor : κ) (batch : List ρ) : κ := (batch.map key).foldl max cursor

/-- Batches of at most `limit` rows until one is empty. -/
def traversal (limit : Nat) (rows : List ρ) : Nat → κ → List ρ
  | 0, _ => []
  | fuel + 1, cursor =>
    let batch := (behind key cursor rows).take limit
    if batch.isEmpty then []
    else batch ++ traversal limit rows fuel (advance key cursor batch)

/-- No batch ends between two rows of one key. -/
def KeysWhole (limit : Nat) (rows : List ρ) : Prop :=
  ∀ k, (k + 1) * limit < rows.length →
    (rows.map key)[(k + 1) * limit - 1]? ≠ (rows.map key)[(k + 1) * limit]?

variable {key} {limit fuel : Nat} {rows batch : List ρ} {cursor next : κ} {row : ρ}

theorem behind_behind (later : cursor ≤ next) :
    behind key next (behind key cursor rows) = behind key next rows := by
  rw [behind, behind, List.filter_filter]
  apply List.filter_congr
  intro row _
  by_cases isBehind : next < key row
  · simp [isBehind, later.trans_lt isBehind]
  · simp [isBehind]

theorem behind_sublist : (behind key cursor rows).Sublist rows := List.filter_sublist

theorem le_foldl_max (keys : List κ) : cursor ≤ keys.foldl max cursor := by
  induction keys generalizing cursor with
  | nil => exact le_rfl
  | cons first keys inductionHypothesis =>
    exact (le_max_left cursor first).trans inductionHypothesis

theorem le_advance : cursor ≤ advance key cursor batch := le_foldl_max _

theorem key_le_advance (member : row ∈ batch) : key row ≤ advance key cursor batch := by
  unfold advance
  induction batch generalizing cursor with
  | nil => cases member
  | cons first batch inductionHypothesis =>
    rw [List.map_cons, List.foldl_cons]
    cases member with
    | head => exact (le_max_right cursor (key row)).trans (le_foldl_max _)
    | tail _ later => exact inductionHypothesis later

/-- The cursor stands on a row of the batch. -/
theorem advance_mem (nonempty : batch ≠ []) (fresh : ∀ row ∈ batch, cursor < key row) :
    ∃ row ∈ batch, advance key cursor batch = key row := by
  have reached : advance key cursor batch = cursor ∨
      ∃ row ∈ batch, advance key cursor batch = key row := by
    clear nonempty fresh
    unfold advance
    induction batch generalizing cursor with
    | nil => exact .inl rfl
    | cons first batch inductionHypothesis =>
      rw [List.map_cons, List.foldl_cons]
      rcases @inductionHypothesis (max cursor (key first)) with stays | ⟨row, member, equal⟩
      · rcases max_choice cursor (key first) with isCursor | isFirst
        · exact .inl (stays.trans isCursor)
        · exact .inr ⟨first, List.mem_cons_self, stays.trans isFirst⟩
      · exact .inr ⟨row, List.mem_cons_of_mem _ member, equal⟩
  rcases reached with stays | found
  · -- The cursor moved, since the first row is behind it.
    obtain ⟨first, member⟩ := List.exists_mem_of_ne_nil batch nonempty
    have moved : cursor < advance key cursor batch :=
      (fresh first member).trans_le (key_le_advance member)
    exact absurd stays moved.ne'
  · exact found

/-! ## Ordered rows -/

section Ordered

variable (ordered : rows.Pairwise fun one other => key one ≤ key other)
  (fresh : ∀ row ∈ rows, cursor < key row)

/-- Nothing of a batch lies behind the cursor after it. -/
theorem behind_advance :
    behind key (advance key cursor (rows.take limit)) rows =
      behind key (advance key cursor (rows.take limit)) (rows.drop limit) := by
  generalize reached : advance key cursor (rows.take limit) = next
  have taken : behind key next (rows.take limit) = [] := by
    apply List.filter_eq_nil_iff.mpr
    intro row member isBehind
    rw [← reached] at isBehind
    exact absurd (key_le_advance member) (not_le.mpr (of_decide_eq_true isBehind))
  conv_lhs => rw [← List.take_append_drop limit rows, behind, List.filter_append]
  rw [behind] at taken
  rw [taken, List.nil_append, behind]

include ordered fresh in
/-- The cursor after a full batch is the key of its last row. -/
theorem advance_take (positive : 0 < limit) (more : limit < rows.length) :
    advance key cursor (rows.take limit) = key rows[limit - 1] := by
  have lastTaken : rows[limit - 1] ∈ rows.take limit := by
    rw [List.mem_take_iff_getElem]
    exact ⟨limit - 1, by omega, rfl⟩
  have nonempty : rows.take limit ≠ [] := List.ne_nil_of_mem lastTaken
  obtain ⟨row, member, reached⟩ :=
    advance_mem nonempty fun row member => fresh row (List.mem_of_mem_take member)
  apply le_antisymm
  · rw [reached]
    obtain ⟨i, bound, rfl⟩ := List.mem_take_iff_getElem.mp member
    rcases (show i ≤ limit - 1 by omega).lt_or_eq with earlier | rfl
    · exact List.pairwise_iff_getElem.mp ordered i (limit - 1) _ _ earlier
    · exact le_rfl
  · exact key_le_advance lastTaken

include ordered fresh in
/-- Everything after the first batch lies behind its cursor exactly when the batch does not end
between two rows of one key. -/
theorem drop_behind_iff (positive : 0 < limit) :
    behind key (advance key cursor (rows.take limit)) rows = rows.drop limit ↔
      (limit < rows.length → (rows.map key)[limit - 1]? ≠ (rows.map key)[limit]?) := by
  rw [behind_advance, behind, List.filter_eq_self]
  by_cases more : limit < rows.length
  · have before : limit - 1 < rows.length := by omega
    have inOrder : key rows[limit - 1] ≤ key rows[limit] :=
      List.pairwise_iff_getElem.mp ordered (limit - 1) limit before more (by omega)
    simp only [more, forall_const, List.getElem?_map, List.getElem?_eq_getElem before,
      List.getElem?_eq_getElem more, Option.map_some, ne_eq, Option.some.injEq, decide_eq_true_eq,
      advance_take ordered fresh positive more]
    constructor
    · intro allBehind
      have firstLeft : rows[limit] ∈ rows.drop limit :=
        List.mem_drop_iff_getElem.mpr ⟨0, by omega, by simp⟩
      exact (allBehind _ firstLeft).ne
    · intro different row member
      obtain ⟨i, bound, rfl⟩ := List.mem_drop_iff_getElem.mp member
      refine (lt_of_le_of_ne inOrder different).trans_le ?_
      cases i with
      | zero => exact le_rfl
      | succ i => exact List.pairwise_iff_getElem.mp ordered limit _ more _ (by omega)
  · have nothing : rows.drop limit = [] := List.drop_eq_nil_of_le (not_lt.mp more)
    simp [more, nothing]

end Ordered

/-! ## The whole traversal -/

omit [LinearOrder κ] in
/-- The batches of a list are its first one and those of the rest. -/
theorem keysWhole_iff (positive : 0 < limit) :
    KeysWhole key limit rows ↔
      (limit < rows.length → (rows.map key)[limit - 1]? ≠ (rows.map key)[limit]?) ∧
        KeysWhole key limit (rows.drop limit) := by
  have shift : ∀ k, (k + 1 + 1) * limit = limit + (k + 1) * limit := fun k => by ring
  have shiftLast : ∀ k, (k + 1 + 1) * limit - 1 = limit + ((k + 1) * limit - 1) := by
    intro k
    have := Nat.mul_le_mul_right limit (show 1 ≤ k + 1 by omega)
    rw [shift]
    omega
  constructor
  · intro whole
    constructor
    · simpa using whole 0
    · intro k bound
      have at_k := whole (k + 1)
      rw [List.length_drop] at bound
      rw [shiftLast, shift] at at_k
      rw [List.map_drop, List.getElem?_drop, List.getElem?_drop]
      exact at_k (by omega)
  · rintro ⟨first, rest⟩ k bound
    cases k with
    | zero => simpa using first (by simpa using bound)
    | succ k =>
      have at_k := rest k
      rw [List.map_drop, List.getElem?_drop, List.getElem?_drop, List.length_drop] at at_k
      rw [shiftLast, shift]
      rw [shift] at bound
      exact at_k (by omega)

theorem traversal_succ (more : (behind key cursor rows).take limit ≠ []) :
    traversal key limit rows (fuel + 1) cursor =
      (behind key cursor rows).take limit ++
        traversal key limit rows fuel
          (advance key cursor ((behind key cursor rows).take limit)) := by
  simp only [traversal, List.isEmpty_iff, if_neg more]

section Traverse

variable (positive : 0 < limit)
  (ordered : rows.Pairwise fun one other => key one ≤ key other)

include positive in
theorem length_behind_advance (more : behind key cursor rows ≠ []) :
    (behind key (advance key cursor ((behind key cursor rows).take limit)) rows).length <
      (behind key cursor rows).length := by
  have rest : behind key (advance key cursor ((behind key cursor rows).take limit)) rows =
      behind key (advance key cursor ((behind key cursor rows).take limit))
        ((behind key cursor rows).drop limit) := by
    rw [← behind_advance, behind_behind le_advance]
  have shorter : (behind key (advance key cursor ((behind key cursor rows).take limit))
      ((behind key cursor rows).drop limit)).length ≤
        ((behind key cursor rows).drop limit).length :=
    behind_sublist.length_le
  have some := List.length_pos_of_ne_nil more
  rw [List.length_drop] at shorter
  rw [rest]
  omega

include positive ordered in
/-- A traversal reads rows behind its cursor, in their order, and it reads all of them exactly when
no batch ends between two rows of one key. -/
theorem traversal_spec (enough : (behind key cursor rows).length < fuel) :
    (traversal key limit rows fuel cursor).Sublist (behind key cursor rows) ∧
      (traversal key limit rows fuel cursor = behind key cursor rows ↔
        KeysWhole key limit (behind key cursor rows)) := by
  induction fuel generalizing cursor with
  | zero => omega
  | succ fuel inductionHypothesis =>
    generalize remaining : behind key cursor rows = left at *
    by_cases done : left = []
    · subst done
      simp [traversal, remaining, KeysWhole]
    · have step : traversal key limit rows (fuel + 1) cursor =
          left.take limit ++
            traversal key limit rows fuel (advance key cursor (left.take limit)) := by
        have nonempty : (behind key cursor rows).take limit ≠ [] := by
          simp [remaining, done, positive.ne']
        rw [traversal_succ nonempty, remaining]
      have shorter := length_behind_advance positive (done ∘ remaining.symm.trans)
      have reached : behind key (advance key cursor (left.take limit)) left =
          behind key (advance key cursor (left.take limit)) rows := by
        rw [← remaining, behind_behind le_advance]
      have inside : (behind key (advance key cursor (left.take limit)) rows).Sublist
          (left.drop limit) := by
        rw [← reached, behind_advance]
        exact behind_sublist
      rw [remaining] at shorter
      obtain ⟨subset, complete⟩ :=
        @inductionHypothesis (advance key cursor (left.take limit)) (by omega)
      have orderedLeft : left.Pairwise fun one other => key one ≤ key other :=
        remaining ▸ ordered.sublist behind_sublist
      have freshLeft : ∀ row ∈ left, cursor < key row := by
        intro row member
        rw [← remaining] at member
        exact of_decide_eq_true (List.mem_filter.mp member).2
      rw [step]
      constructor
      · have whole := (List.Sublist.refl (left.take limit)).append (subset.trans inside)
        rwa [List.take_append_drop] at whole
      · rw [keysWhole_iff positive, ← drop_behind_iff orderedLeft freshLeft positive, reached]
        constructor
        · intro all
          have rest : traversal key limit rows fuel (advance key cursor (left.take limit)) =
              left.drop limit := by
            conv_rhs at all => rw [← List.take_append_drop limit left]
            exact List.append_cancel_left all
          rw [rest] at subset complete
          have equal := inside.antisymm subset
          refine ⟨equal, ?_⟩
          rw [equal] at complete
          exact complete.mp rfl
        · rintro ⟨equal, whole⟩
          rw [complete.mpr (equal ▸ whole), equal, List.take_append_drop]

end Traverse

end Ancore.Library
