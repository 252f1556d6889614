import Mathlib

/-! # An agenda worked off under locks

Every key of an agenda has an entry: the time of its next occurrence, and whether
it is open.  A worker takes the lock of a key, performs the occurrence the entry
stands at, moves the entry on and gives the lock back.  As long as what is
performed is what the entry stands at, no occurrence is performed twice: while a
key is locked only the holder touches it, and when its lock is free every
occurrence performed for it lies behind its entry.
-/

namespace Ancore.Library

structure AgendaEntry (Time : Type) where
  time : Time
  isOpen : Bool

/-- The entries, what was performed so far and who holds which lock. -/
structure Agenda (Key Time Worker : Type) where
  entry : Key → Option (AgendaEntry Time)
  performed : List (Key × Time)
  holder : Key → Option Worker

variable {Key Time Worker : Type}

namespace Agenda

/-- The entry is open and stands at the time. -/
def Fresh (agenda : Agenda Key Time Worker) (key : Key) (time : Time) : Prop :=
  agenda.entry key = some ⟨time, true⟩

/-- An occurrence that was listed once: the entry still stands at it, or it was performed. -/
def Covered (agenda : Agenda Key Time Worker) (key : Key) (time : Time) : Prop :=
  agenda.Fresh key time ∨ (key, time) ∈ agenda.performed

/-- The worker holds no lock. -/
def Free (agenda : Agenda Key Time Worker) (worker : Worker) : Prop :=
  ∀ key, agenda.holder key ≠ some worker

/-- The worker holds this lock and no other. -/
structure Holding (agenda : Agenda Key Time Worker) (worker : Worker) (key : Key) : Prop where
  held : agenda.holder key = some worker
  only : ∀ other, other ≠ key → agenda.holder other ≠ some worker

/-- What a step of one worker leaves to the others: the keys they hold, their locks, and the
occurrences they have listed. -/
structure Spares (worker : Worker) (before after : Agenda Key Time Worker) : Prop where
  entry : ∀ key other, other ≠ worker → before.holder key = some other →
    after.entry key = before.entry key
  performed : ∀ key other, other ≠ worker → before.holder key = some other →
    ∀ time, (key, time) ∈ after.performed ↔ (key, time) ∈ before.performed
  holder : ∀ key other, other ≠ worker →
    (after.holder key = some other ↔ before.holder key = some other)
  covered : ∀ key time, before.Covered key time → after.Covered key time

variable {agenda after : Agenda Key Time Worker} {worker other : Worker} {key : Key} {time : Time}

theorem Spares.refl (worker : Worker) (agenda : Agenda Key Time Worker) :
    Spares worker agenda agenda where
  entry := fun _ _ _ _ => rfl
  performed := fun _ _ _ _ _ => Iff.rfl
  holder := fun _ _ _ => Iff.rfl
  covered := fun _ _ => id

/-! ## What another worker's step leaves true -/

theorem Free.of_spares (free : agenda.Free worker) (different : other ≠ worker)
    (spares : Spares other agenda after) : after.Free worker :=
  fun key held => free key ((spares.holder key worker (Ne.symm different)).mp held)

theorem Holding.of_spares (holding : agenda.Holding worker key) (different : other ≠ worker)
    (spares : Spares other agenda after) : after.Holding worker key where
  held := (spares.holder key worker (Ne.symm different)).mpr holding.held
  only := fun elsewhere distinct held =>
    holding.only elsewhere distinct ((spares.holder elsewhere worker (Ne.symm different)).mp held)

/-! ## The steps of a worker -/

section Steps

variable [DecidableEq Key]

/-- `worker` takes the lock of `key`. -/
def lock (agenda : Agenda Key Time Worker) (worker : Worker) (key : Key) :
    Agenda Key Time Worker :=
  { agenda with holder := Function.update agenda.holder key (some worker) }

/-- The lock of `key` is given back. -/
def unlock (agenda : Agenda Key Time Worker) (key : Key) : Agenda Key Time Worker :=
  { agenda with holder := Function.update agenda.holder key none }

/-- An occurrence of `key` is performed. -/
def note (agenda : Agenda Key Time Worker) (key : Key) (time : Time) : Agenda Key Time Worker :=
  { agenda with performed := (key, time) :: agenda.performed }

/-- The entry of `key` is moved. -/
def move (agenda : Agenda Key Time Worker) (key : Key) (entry : AgendaEntry Time) :
    Agenda Key Time Worker :=
  { agenda with entry := Function.update agenda.entry key (some entry) }

@[simp] theorem holder_lock_self (agenda : Agenda Key Time Worker) (worker : Worker)
    (key : Key) : (agenda.lock worker key).holder key = some worker :=
  Function.update_self ..

theorem holder_lock_of_ne (agenda : Agenda Key Time Worker) (worker : Worker) {key other : Key}
    (different : other ≠ key) : (agenda.lock worker key).holder other = agenda.holder other :=
  Function.update_of_ne different ..

@[simp] theorem holder_unlock_self (agenda : Agenda Key Time Worker) (key : Key) :
    (agenda.unlock key).holder key = none :=
  Function.update_self ..

theorem holder_unlock_of_ne (agenda : Agenda Key Time Worker) {key other : Key}
    (different : other ≠ key) : (agenda.unlock key).holder other = agenda.holder other :=
  Function.update_of_ne different ..

@[simp] theorem entry_move_self (agenda : Agenda Key Time Worker) (key : Key)
    (entry : AgendaEntry Time) : (agenda.move key entry).entry key = some entry :=
  Function.update_self ..

theorem entry_move_of_ne (agenda : Agenda Key Time Worker) {key other : Key}
    (entry : AgendaEntry Time) (different : other ≠ key) :
    (agenda.move key entry).entry other = agenda.entry other :=
  Function.update_of_ne different ..

end Steps

/-! ## The invariant -/

variable [LinearOrder Time]

/-- The entry has left the time behind. -/
def Past (agenda : Agenda Key Time Worker) (key : Key) (time : Time) : Prop :=
  ∃ entry, agenda.entry key = some entry ∧
    (time < entry.time ∨ time = entry.time ∧ entry.isOpen = false)

/-- Nothing performed for the key is still to come. -/
def Clear (agenda : Agenda Key Time Worker) (key : Key) : Prop :=
  ∀ time, (key, time) ∈ agenda.performed → agenda.Past key time

/-- The occurrence the entry stands at was performed, and the entry has not moved on yet. -/
structure Underway (agenda : Agenda Key Time Worker) (key : Key) (time : Time) : Prop where
  fresh : agenda.Fresh key time
  performed : (key, time) ∈ agenda.performed
  earlier : ∀ other, (key, other) ∈ agenda.performed → other = time ∨ agenda.Past key other

/-- The invariant of the agenda. -/
structure Tidy (agenda : Agenda Key Time Worker) : Prop where
  once : agenda.performed.Nodup
  clear : ∀ key, agenda.holder key = none → agenda.Clear key

theorem Past.not_fresh (past : agenda.Past key time) : ¬ agenda.Fresh key time := by
  intro fresh
  obtain ⟨entry, found, behind⟩ := past
  rw [Fresh, found, Option.some.injEq] at fresh
  subst fresh
  obtain later | ⟨-, closed⟩ := behind
  · exact lt_irrefl time later
  · cases closed

theorem Past.lt_of_fresh {current : Time} (past : agenda.Past key time)
    (fresh : agenda.Fresh key current) : time < current := by
  obtain ⟨entry, found, behind⟩ := past
  rw [Fresh, found, Option.some.injEq] at fresh
  subst fresh
  obtain later | ⟨-, closed⟩ := behind
  · exact later
  · cases closed

theorem Clear.of_spares (clear : agenda.Clear key) (holding : agenda.Holding worker key)
    (different : other ≠ worker) (spares : Spares other agenda after) : after.Clear key := by
  intro time performed
  have entry := spares.entry key worker (Ne.symm different) holding.held
  obtain ⟨found, same, behind⟩ := clear time
    ((spares.performed key worker (Ne.symm different) holding.held time).mp performed)
  exact ⟨found, entry.trans same, behind⟩

theorem Underway.of_spares (underway : agenda.Underway key time)
    (holding : agenda.Holding worker key) (different : other ≠ worker)
    (spares : Spares other agenda after) : after.Underway key time := by
  have entry := spares.entry key worker (Ne.symm different) holding.held
  have performed := spares.performed key worker (Ne.symm different) holding.held
  refine ⟨entry.trans underway.fresh, (performed time).mpr underway.performed, ?_⟩
  intro earlier member
  obtain same | ⟨found, same, behind⟩ := underway.earlier earlier ((performed earlier).mp member)
  · exact .inl same
  · exact .inr ⟨found, entry.trans same, behind⟩

/-! ## What the steps of a worker do -/

theorem note_spec (tidy : agenda.Tidy) (holding : agenda.Holding worker key)
    (clear : agenda.Clear key) (fresh : agenda.Fresh key time) :
    (agenda.note key time).Tidy ∧ Spares worker agenda (agenda.note key time) ∧
      (agenda.note key time).Holding worker key ∧ (agenda.note key time).Underway key time := by
  refine ⟨⟨?_, ?_⟩, ⟨fun _ _ _ _ => rfl, ?_, fun _ _ _ => Iff.rfl, ?_⟩,
    ⟨holding.held, holding.only⟩, ⟨fresh, List.mem_cons_self, ?_⟩⟩
  · exact List.nodup_cons.mpr ⟨fun twice => (clear time twice).not_fresh fresh, tidy.once⟩
  · intro elsewhere unheld earlier member
    obtain same | member := List.mem_cons.mp member
    · cases same
      exact absurd (unheld.symm.trans holding.held) (by simp)
    · exact tidy.clear elsewhere unheld earlier member
  · intro elsewhere other different held time'
    have distinct : elsewhere ≠ key := by
      rintro rfl
      exact different (Option.some.inj (held.symm.trans holding.held))
    simp [note, distinct]
  · intro elsewhere time' covered
    exact covered.imp id (List.mem_cons_of_mem _)
  · intro earlier member
    obtain same | member := List.mem_cons.mp member
    · cases same
      exact .inl rfl
    · exact .inr (clear earlier member)

variable [DecidableEq Key]

theorem lock_spec (tidy : agenda.Tidy) (free : agenda.Free worker)
    (unlocked : agenda.holder key = none) :
    (agenda.lock worker key).Tidy ∧ Spares worker agenda (agenda.lock worker key) ∧
      (agenda.lock worker key).Holding worker key ∧ (agenda.lock worker key).Clear key := by
  refine ⟨⟨tidy.once, ?_⟩, ⟨fun _ _ _ _ => rfl, fun _ _ _ _ _ => Iff.rfl, ?_, fun _ _ => id⟩,
    ⟨holder_lock_self .., ?_⟩, tidy.clear key unlocked⟩
  · intro elsewhere unheld
    apply tidy.clear elsewhere
    by_cases same : elsewhere = key
    · exact same ▸ unlocked
    · rwa [holder_lock_of_ne agenda worker same] at unheld
  · intro elsewhere other different
    by_cases same : elsewhere = key
    · subst same
      simp [unlocked, Ne.symm different]
    · rw [holder_lock_of_ne agenda worker same]
  · intro elsewhere distinct
    rw [holder_lock_of_ne agenda worker distinct]
    exact free elsewhere

/-- Moving on: to a later time, or closed at the same one. -/
theorem move_spec (entry : AgendaEntry Time) (tidy : agenda.Tidy)
    (holding : agenda.Holding worker key) (underway : agenda.Underway key time)
    (onwards : time < entry.time ∨ time = entry.time ∧ entry.isOpen = false) :
    (agenda.move key entry).Tidy ∧ Spares worker agenda (agenda.move key entry) ∧
      (agenda.move key entry).Holding worker key ∧ (agenda.move key entry).Clear key := by
  refine ⟨⟨tidy.once, ?_⟩, ⟨?_, fun _ _ _ _ _ => Iff.rfl, fun _ _ _ => Iff.rfl, ?_⟩,
    ⟨holding.held, holding.only⟩, ?_⟩
  · intro elsewhere unheld earlier member
    have distinct : elsewhere ≠ key := by
      rintro rfl
      exact absurd (unheld.symm.trans holding.held) (by simp)
    obtain ⟨found, same, behind⟩ := tidy.clear elsewhere unheld earlier member
    exact ⟨found, (entry_move_of_ne agenda entry distinct).trans same, behind⟩
  · intro elsewhere other different held
    apply entry_move_of_ne
    rintro rfl
    exact different (Option.some.inj (held.symm.trans holding.held))
  -- What stood at the old time was performed, so it stays covered.
  · rintro elsewhere time' (fresh | member)
    · by_cases same : elsewhere = key
      · subst same
        have sameTime : some (AgendaEntry.mk time' true) = some ⟨time, true⟩ :=
          fresh.symm.trans underway.fresh
        cases sameTime
        exact .inr underway.performed
      · exact .inl ((entry_move_of_ne agenda entry same).trans fresh)
    · exact .inr member
  · intro earlier member
    refine ⟨entry, entry_move_self .., ?_⟩
    obtain rfl | past := underway.earlier earlier member
    · exact onwards
    · have before := past.lt_of_fresh underway.fresh
      obtain later | ⟨same, -⟩ := onwards
      · exact .inl (before.trans later)
      · exact .inl (same ▸ before)

theorem unlock_spec (tidy : agenda.Tidy) (holding : agenda.Holding worker key)
    (clear : agenda.Clear key) :
    (agenda.unlock key).Tidy ∧ Spares worker agenda (agenda.unlock key) ∧
      (agenda.unlock key).Free worker := by
  refine ⟨⟨tidy.once, ?_⟩, ⟨fun _ _ _ _ => rfl, fun _ _ _ _ _ => Iff.rfl, ?_, fun _ _ => id⟩, ?_⟩
  · intro elsewhere unheld
    by_cases same : elsewhere = key
    · exact same ▸ clear
    · rw [holder_unlock_of_ne agenda same] at unheld
      exact tidy.clear elsewhere unheld
  · intro elsewhere other different
    by_cases same : elsewhere = key
    · subst same
      simp [holding.held, Ne.symm different]
    · rw [holder_unlock_of_ne agenda same]
  · intro elsewhere
    by_cases same : elsewhere = key
    · subst same
      simp
    · rw [holder_unlock_of_ne agenda same]
      exact holding.only elsewhere same

end Agenda

end Ancore.Library
