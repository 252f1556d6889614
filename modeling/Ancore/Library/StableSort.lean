import Mathlib

/-! # The beginning of a stable sort

The first so many elements of a stable sort, by what stands before an element: one
that has only few elements before it is among them (`mem_take_of_few`), and one that
is among them has only few (`few_of_mem_take`).
-/

namespace Ancore.Library

variable {α : Type} {r : α → α → Prop} [DecidableRel r] {rows early : List α} {one other : α}
  {count : Nat}

/-- One element stands before the other, and no rule says otherwise. -/
def StandsBefore (r : α → α → Prop) (rows : List α) (one other : α) : Prop :=
  r one other ∧ [one, other].Sublist rows

theorem StandsBefore.sorted (before : StandsBefore r rows one other) :
    [one, other].Sublist (rows.insertionSort r) :=
  List.pair_sublist_insertionSort before.1 before.2

/-- What stands before an element at the beginning is at the beginning too. -/
theorem mem_take_of_pair (nodup : rows.Nodup) (inOrder : [one, other].Sublist rows)
    (taken : other ∈ rows.take count) : one ∈ rows.take count := by
  by_contra late
  rw [← List.take_append_drop count rows] at nodup inOrder
  obtain ⟨front, back, same, inFront, inBack⟩ := List.sublist_append_iff.mp inOrder
  cases front with
  | nil =>
    -- then the other one comes after the beginning as well
    rw [List.nil_append] at same
    have after : other ∈ rows.drop count := inBack.subset (same ▸ by simp)
    exact (List.disjoint_of_nodup_append nodup) taken after
  | cons first front =>
    obtain rfl : one = first := (List.cons.inj same).1
    exact late (inFront.subset List.mem_cons_self)

/-- All but the early ones stand behind the element, and these are few. -/
theorem mem_take_of_few (early : List α) (nodup : rows.Nodup) (member : one ∈ rows)
    (behind : ∀ row ∈ rows, row ≠ one → row ∉ early → StandsBefore r rows one row)
    (few : early.length < count) : one ∈ (rows.insertionSort r).take count := by
  by_contra late
  have sortedNodup : (rows.insertionSort r).Nodup :=
    (List.perm_insertionSort r rows).nodup_iff.mpr nodup
  have inSorted : one ∈ rows.insertionSort r := (List.mem_insertionSort r).mpr member
  -- only early elements can stand before it
  have isEarly : ∀ row ∈ (rows.insertionSort r).take count, row ∈ early := by
    intro row taken
    by_contra notEarly
    have isRow : row ∈ rows := (List.mem_insertionSort r).mp (List.mem_of_mem_take taken)
    have different : row ≠ one := by
      rintro rfl
      exact late taken
    exact late (mem_take_of_pair sortedNodup (behind row isRow different notEarly).sorted taken)
  have long : count ≤ (rows.insertionSort r).length := by
    by_contra short
    rw [List.take_of_length_le (by omega)] at late
    exact late inSorted
  have bound := ((sortedNodup.sublist (List.take_sublist _ _)).subperm isEarly).length_le
  rw [List.length_take, min_eq_left long] at bound
  omega

/-- What stands before an element at the beginning leaves room for it. -/
theorem few_of_mem_take (nodup : rows.Nodup) (different : early.Nodup)
    (before : ∀ row ∈ early, StandsBefore r rows row one) (absent : one ∉ early)
    (taken : one ∈ (rows.insertionSort r).take count) : early.length < count := by
  have sortedNodup : (rows.insertionSort r).Nodup :=
    (List.perm_insertionSort r rows).nodup_iff.mpr nodup
  have all : one :: early ⊆ (rows.insertionSort r).take count := by
    intro row member
    obtain rfl | isEarly := List.mem_cons.mp member
    · exact taken
    · exact mem_take_of_pair sortedNodup (before row isEarly).sorted taken
  have bound := ((List.nodup_cons.mpr ⟨absent, different⟩).subperm all).length_le
  rw [List.length_cons] at bound
  exact bound.trans (List.length_take_le _ _)

end Ancore.Library
