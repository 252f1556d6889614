import Mathlib

/-! # Keyed logs

A log whose items may each write one value under one key.  `entriesOf` reads the
values of one key, oldest first; `keysWith` reads the keys one value was written
under, with repetitions.
-/

namespace Ancore.Library

variable {τ κ α : Type*}

section Entries

variable [DecidableEq κ]

/-- What an item writes under the key. -/
def entryOf (label : τ → Option (κ × α)) (key : κ) (item : τ) : Option α :=
  (label item).bind fun (written, value) => if written = key then some value else none

/-- The values written under the key, oldest first. -/
def entriesOf (label : τ → Option (κ × α)) (key : κ) (log : List τ) : List α :=
  log.filterMap (entryOf label key)

variable {label : τ → Option (κ × α)} {key other : κ} {value : α} {item : τ}
  {log earlier later : List τ}

theorem entryOf_eq_some : entryOf label key item = some value ↔ label item = some (key, value) := by
  constructor
  · intro entry
    obtain ⟨⟨written, found⟩, labelled, entry⟩ := Option.bind_eq_some_iff.mp entry
    rw [Option.ite_none_right_eq_some, Option.some.injEq] at entry
    obtain ⟨rfl, rfl⟩ := entry
    exact labelled
  · intro labelled
    simp [entryOf, labelled]

theorem entryOf_other (labelled : label item = some (other, value)) (distinct : other ≠ key) :
    entryOf label key item = none := by
  simp [entryOf, labelled, distinct]

@[simp] theorem entriesOf_nil : entriesOf label key [] = [] := rfl

@[simp] theorem entriesOf_append :
    entriesOf label key (earlier ++ later) =
      entriesOf label key earlier ++ entriesOf label key later :=
  List.filterMap_append

@[simp] theorem entriesOf_singleton :
    entriesOf label key [item] = (entryOf label key item).toList := by
  cases entry : entryOf label key item <;> simp [entriesOf, entry]

theorem mem_entriesOf :
    value ∈ entriesOf label key log ↔ ∃ item ∈ log, label item = some (key, value) := by
  simp only [entriesOf, List.mem_filterMap, entryOf_eq_some]

end Entries

/-! ## The keys of one value -/

section Keys

variable [DecidableEq α] (label : τ → Option (κ × α)) (value : α)

/-- The key an item writes the value under. -/
def keyWith (item : τ) : Option κ :=
  (label item).bind fun (key, written) => if written = value then some key else none

/-- The keys the value was written under, oldest first. -/
def keysWith (log : List τ) : List κ := log.filterMap (keyWith label value)

variable {label value}

theorem keyWith_eq_some {key : κ} {item : τ} :
    keyWith label value item = some key ↔ label item = some (key, value) := by
  constructor
  · intro entry
    obtain ⟨⟨found, written⟩, labelled, entry⟩ := Option.bind_eq_some_iff.mp entry
    rw [Option.ite_none_right_eq_some, Option.some.injEq] at entry
    obtain ⟨rfl, rfl⟩ := entry
    exact labelled
  · intro labelled
    simp [keyWith, labelled]

/-- A key is read as often as the value was written under it. -/
theorem count_keysWith [DecidableEq κ] (key : κ) (log : List τ) :
    (keysWith label value log).count key = (entriesOf label key log).count value := by
  simp only [keysWith, entriesOf, List.count_filterMap]
  refine List.countP_congr fun item _ => ?_
  simp only [beq_iff_eq, keyWith_eq_some, entryOf_eq_some]

/-- Keys that each hold the value at most once are read without repetition. -/
theorem nodup_keysWith [DecidableEq κ] {log : List τ}
    (once : ∀ key, (entriesOf label key log).count value ≤ 1) :
    (keysWith label value log).Nodup := by
  rw [List.nodup_iff_count_le_one]
  intro key
  rw [count_keysWith]
  exact once key

end Keys

end Ancore.Library
