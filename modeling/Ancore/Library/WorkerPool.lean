import Mathlib

/-! # A pool of workers over one queue

Workers take the items of a list in its order, through a cursor that they share.
A worker holds one item at a time, and stops where the list is used up.  Whatever
order they go in, the items taken are those before the cursor, each of them in one
hand or put down (`Pool.Shared`), and a pool has a known number of steps left
(`Pool.remaining`).
-/

namespace Ancore.Library

inductive Worker (α : Type) where
  | idle
  | busy (item : α)
  | stopped
  deriving DecidableEq

namespace Worker

variable {α : Type}

def item? : Worker α → Option α
  | busy item => some item
  | _ => none

/-- The steps that a worker has left, next to those of the items nobody has taken. -/
def remaining : Worker α → Nat
  | idle => 1
  | busy _ => 2
  | stopped => 0

end Worker

structure Pool (α : Type) where
  items : List α
  cursor : Nat
  workers : List (Worker α)

namespace Pool

variable {α : Type} {pool next : Pool α} {worker : Nat} {item : α} {done : List α}

def start (items : List α) (count : Nat) : Pool α := ⟨items, 0, List.replicate count .idle⟩

/-- An idle worker takes the item at the cursor and moves it on, or stops. -/
def take (pool : Pool α) (worker : Nat) : Option (Option α × Pool α) :=
  match pool.workers[worker]? with
  | some .idle =>
    match pool.items[pool.cursor]? with
    | some item =>
      some (some item, ⟨pool.items, pool.cursor + 1, pool.workers.set worker (.busy item)⟩)
    | none => some (none, ⟨pool.items, pool.cursor + 1, pool.workers.set worker .stopped⟩)
  | _ => none

/-- A worker puts down the item that it holds. -/
def release (pool : Pool α) (worker : Nat) : Option (α × Pool α) :=
  match pool.workers[worker]? with
  | some (.busy item) =>
    some (item, ⟨pool.items, pool.cursor, pool.workers.set worker .idle⟩)
  | _ => none

/-- The items that are held. -/
def inHand (pool : Pool α) : List α := pool.workers.filterMap Worker.item?

def allStopped (pool : Pool α) : Prop := ∀ worker ∈ pool.workers, worker = .stopped

instance [DecidableEq α] (pool : Pool α) : Decidable pool.allStopped :=
  inferInstanceAs (Decidable (∀ _ ∈ _, _))

/-! ## Steps -/

/-- What a worker that takes an item does. -/
theorem take_eq_some (taken : pool.take worker = some (some item, next)) :
    pool.workers[worker]? = some .idle ∧ pool.items[pool.cursor]? = some item ∧
      next = ⟨pool.items, pool.cursor + 1, pool.workers.set worker (.busy item)⟩ := by
  unfold take at taken
  split at taken
  · rename_i idle
    split at taken
    · rename_i found
      cases taken
      exact ⟨idle, found, rfl⟩
    · cases taken
  · cases taken

/-- What a worker that finds no item does. -/
theorem take_eq_none (taken : pool.take worker = some (none, next)) :
    pool.workers[worker]? = some .idle ∧ pool.items.length ≤ pool.cursor ∧
      next = ⟨pool.items, pool.cursor + 1, pool.workers.set worker .stopped⟩ := by
  unfold take at taken
  split at taken
  · rename_i idle
    split at taken
    · cases taken
    · rename_i found
      cases taken
      exact ⟨idle, List.getElem?_eq_none_iff.mp found, rfl⟩
  · cases taken

theorem release_eq_some (released : pool.release worker = some (item, next)) :
    pool.workers[worker]? = some (.busy item) ∧
      next = ⟨pool.items, pool.cursor, pool.workers.set worker .idle⟩ := by
  unfold release at released
  split at released
  · rename_i busy
    cases released
    exact ⟨busy, rfl⟩
  · cases released

/-! ## What is held -/

/-- A worker that is replaced gives up what it held, for what it is replaced with. -/
theorem perm_filterMap_set {β γ : Type} (read : β → Option γ) {items : List β} {position : Nat}
    {old : β} (found : items[position]? = some old) (new : β) :
    ((read old).toList ++ (items.set position new).filterMap read).Perm
      ((read new).toList ++ items.filterMap read) := by
  induction items generalizing position with
  | nil => cases found
  | cons first items inductionHypothesis =>
    cases position with
    | zero =>
      cases found
      have split (value : β) :
          (value :: items).filterMap read = (read value).toList ++ items.filterMap read := by
        rw [List.filterMap_cons]
        cases read value <;> rfl
      rw [List.set_cons_zero, split, split]
      exact List.perm_append_comm_assoc ..
    | succ position =>
      rw [List.getElem?_cons_succ] at found
      have rest := inductionHypothesis found
      rw [List.set_cons_succ, List.filterMap_cons, List.filterMap_cons]
      cases read first with
      | none => exact rest
      | some value =>
        dsimp only
        refine List.perm_middle.trans ?_
        exact (rest.cons value).trans List.perm_middle.symm

theorem sum_map_set {β : Type} (weight : β → Nat) {items : List β} {position : Nat} {old : β}
    (found : items[position]? = some old) (new : β) :
    weight old + ((items.set position new).map weight).sum =
      weight new + (items.map weight).sum := by
  induction items generalizing position with
  | nil => cases found
  | cons first items inductionHypothesis =>
    cases position with
    | zero =>
      cases found
      simp only [List.set_cons_zero, List.map_cons, List.sum_cons]
      omega
    | succ position =>
      rw [List.getElem?_cons_succ] at found
      have rest := inductionHypothesis found
      simp only [List.set_cons_succ, List.map_cons, List.sum_cons]
      omega

theorem length_inHand_le (pool : Pool α) : pool.inHand.length ≤ pool.workers.length :=
  List.length_filterMap_le _ _

/-! ## The items -/

/-- The items before the cursor are held or put down, and no worker stops before the end. -/
structure Shared (pool : Pool α) (done : List α) : Prop where
  taken : (pool.inHand ++ done).Perm (pool.items.take pool.cursor)
  used : .stopped ∈ pool.workers → pool.items.length ≤ pool.cursor

theorem Shared.start (items : List α) (count : Nat) : (start items count).Shared [] where
  taken := by
    have nothing : (Pool.start items count).inHand = [] := by
      rw [inHand, Pool.start, List.filterMap_replicate_of_none rfl]
    rw [nothing]
    exact .refl _
  used stopped := by cases List.eq_of_mem_replicate stopped

theorem Shared.take_item (shared : pool.Shared done)
    (taken : pool.take worker = some (some item, next)) : next.Shared done := by
  obtain ⟨idle, found, rfl⟩ := take_eq_some taken
  have held := perm_filterMap_set Worker.item? idle (.busy item)
  have prefixed : pool.items.take (pool.cursor + 1) = pool.items.take pool.cursor ++ [item] := by
    rw [List.take_add_one, found]
    rfl
  constructor
  · rw [prefixed]
    refine (List.Perm.append_right done held).trans ?_
    exact (shared.taken.cons item).trans (List.perm_append_singleton item _).symm
  · intro stopped
    rcases List.mem_or_eq_of_mem_set stopped with before | same
    · exact (shared.used before).trans (Nat.le_succ _)
    · cases same

theorem Shared.take_none (shared : pool.Shared done)
    (taken : pool.take worker = some (none, next)) : next.Shared done := by
  obtain ⟨idle, used, rfl⟩ := take_eq_none taken
  have held := perm_filterMap_set Worker.item? idle .stopped
  constructor
  · have whole : pool.items.take (pool.cursor + 1) = pool.items.take pool.cursor := by
      rw [List.take_of_length_le used, List.take_of_length_le (used.trans (Nat.le_succ _))]
    rw [whole]
    exact (List.Perm.append_right done held).trans shared.taken
  · intro _
    exact used.trans (Nat.le_succ _)

theorem Shared.release (shared : pool.Shared done)
    (released : pool.release worker = some (item, next)) : next.Shared (item :: done) := by
  obtain ⟨busy, rfl⟩ := release_eq_some released
  have held := perm_filterMap_set Worker.item? busy .idle
  constructor
  · refine List.perm_middle.trans ?_
    exact (List.Perm.append_right done held).trans shared.taken
  · intro stopped
    rcases List.mem_or_eq_of_mem_set stopped with before | same
    · exact shared.used before
    · cases same

/-- An item that is taken is neither held nor put down. -/
theorem Shared.fresh (shared : pool.Shared done) (distinct : pool.items.Nodup)
    (taken : pool.take worker = some (some item, next)) :
    item ∉ pool.inHand ∧ item ∉ done := by
  obtain ⟨-, found, -⟩ := take_eq_some taken
  have later : item ∉ pool.items.take pool.cursor := by
    intro member
    obtain ⟨bound, same⟩ := List.getElem?_eq_some_iff.mp found
    obtain ⟨position, inside, equal⟩ := List.mem_take_iff_getElem.mp member
    have positions := (List.Nodup.getElem_inj_iff distinct).mp (equal.trans same.symm)
    omega
  rw [← shared.taken.mem_iff, List.mem_append, not_or] at later
  exact later

theorem Shared.nodup (shared : pool.Shared done) (distinct : pool.items.Nodup) :
    (pool.inHand ++ done).Nodup :=
  shared.taken.nodup_iff.mpr (distinct.sublist (List.take_sublist _ _))

/-- An item that is put down was held, and not put down before. -/
theorem Shared.held (shared : pool.Shared done) (distinct : pool.items.Nodup)
    (released : pool.release worker = some (item, next)) : item ∈ pool.items ∧ item ∉ done := by
  obtain ⟨busy, -⟩ := release_eq_some released
  have member : item ∈ pool.inHand :=
    List.mem_filterMap.mpr ⟨.busy item, List.mem_of_getElem? busy, rfl⟩
  have before := shared.taken.mem_iff.mp (List.mem_append_left done member)
  refine ⟨List.mem_of_mem_take before, fun again => ?_⟩
  exact (List.nodup_append.mp (shared.nodup distinct)).2.2 item member item again rfl

theorem Shared.used_of_allStopped (shared : pool.Shared done) (stopped : pool.allStopped)
    (some : pool.workers ≠ []) : pool.items.length ≤ pool.cursor := by
  obtain ⟨worker, member⟩ := List.exists_mem_of_ne_nil _ some
  exact shared.used (stopped worker member ▸ member)

/-- Where all workers have stopped, every item is put down. -/
theorem Shared.finished (shared : pool.Shared done) (stopped : pool.allStopped)
    (some : pool.workers ≠ []) : done.Perm pool.items := by
  have nothing : pool.inHand = [] := by
    rw [inHand, List.filterMap_eq_nil_iff]
    intro worker member
    rw [stopped worker member]
    rfl
  have taken := shared.taken
  rw [nothing, List.take_of_length_le (shared.used_of_allStopped stopped some)] at taken
  exact taken

/-! ## The steps left -/

/-- How many steps are left. -/
def remaining (pool : Pool α) : Nat :=
  2 * (pool.items.length - pool.cursor) + (pool.workers.map Worker.remaining).sum

theorem remaining_take {found : Option α} (taken : pool.take worker = some (found, next)) :
    next.remaining + 1 = pool.remaining := by
  cases found with
  | some item =>
    obtain ⟨idle, found, rfl⟩ := take_eq_some taken
    have bound := (List.getElem?_eq_some_iff.mp found).1
    have weighed := sum_map_set Worker.remaining idle (.busy item)
    simp only [Worker.remaining] at weighed
    simp only [remaining]
    omega
  | none =>
    obtain ⟨idle, used, rfl⟩ := take_eq_none taken
    have weighed := sum_map_set Worker.remaining idle .stopped
    simp only [Worker.remaining] at weighed
    simp only [remaining]
    omega

theorem remaining_release (released : pool.release worker = some (item, next)) :
    next.remaining + 1 = pool.remaining := by
  obtain ⟨busy, rfl⟩ := release_eq_some released
  have weighed := sum_map_set Worker.remaining busy .idle
  simp only [Worker.remaining] at weighed
  simp only [remaining]
  omega

/-- Where all workers have stopped, no step is left. -/
theorem Shared.remaining_eq_zero (shared : pool.Shared done) (stopped : pool.allStopped)
    (some : pool.workers ≠ []) : pool.remaining = 0 := by
  have nothing : (pool.workers.map Worker.remaining).sum = 0 := by
    rw [List.sum_eq_zero_iff]
    intro steps member
    obtain ⟨worker, working, rfl⟩ := List.mem_map.mp member
    rw [stopped worker working]
    rfl
  have used := shared.used_of_allStopped stopped some
  rw [remaining, nothing, Nat.sub_eq_zero_of_le used]

/-- A pool that is not finished goes on. -/
theorem exists_step (going : ¬pool.allStopped) :
    ∃ worker, (pool.take worker).isSome ∨ (pool.release worker).isSome := by
  unfold allStopped at going
  push Not at going
  obtain ⟨state, member, running⟩ := going
  obtain ⟨worker, found⟩ := List.mem_iff_getElem?.mp member
  refine ⟨worker, ?_⟩
  cases state with
  | idle =>
    left
    rw [take, found]
    dsimp only
    split
    · rfl
    · rfl
  | busy item =>
    right
    rw [release, found]
    rfl
  | stopped => exact absurd rfl running

end Pool

end Ancore.Library
