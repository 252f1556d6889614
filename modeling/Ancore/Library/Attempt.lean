import Mathlib

/-! # Attempts: computations that can stop halfway

An attempt changes a state and may fail; unlike a transaction it leaves behind
what it had written when it failed.  Over a store whose writes can fail
(`Faulty`), `Performs` says which writes an attempt makes: all of them when it
succeeds, and a proper part from the front when it does not.
-/

namespace Ancore.Library

/-- A computation that may fail and keeps the state it had reached. -/
def Attempt (ε σ α : Type) : Type := σ → Except ε α × σ

variable {ε ε' σ δ α β : Type}

namespace Attempt

def pure (value : α) : Attempt ε σ α := fun state => (.ok value, state)

def bind (action : Attempt ε σ α) (next : α → Attempt ε σ β) : Attempt ε σ β :=
  fun state =>
    match action state with
    | (.ok value, state) => next value state
    | (.error error, state) => (.error error, state)

instance : Monad (Attempt ε σ) where
  pure := Attempt.pure
  bind := Attempt.bind

/-- `action.map_err(..)` -/
def mapError (f : ε → ε') (action : Attempt ε σ α) : Attempt ε' σ α :=
  fun state =>
    match action state with
    | (.ok value, state) => (.ok value, state)
    | (.error error, state) => (.error (f error), state)

def throw (error : ε) : Attempt ε σ α := fun state => (.error error, state)

/-- `try { action } catch (error) { handler }` -/
def tryCatch (action : Attempt ε σ α) (handler : ε → Attempt ε' σ α) : Attempt ε' σ α :=
  fun state =>
    match action state with
    | (.ok value, state) => (.ok value, state)
    | (.error error, state) => handler error state

/-- `result?` -/
def ofExcept (result : Except ε α) : Attempt ε σ α := fun state => (result, state)

/-- `if condition { .. }` -/
def when (condition : Prop) [Decidable condition] (action : Attempt ε σ Unit) :
    Attempt ε σ Unit :=
  if condition then action else Pure.pure ()

/-- A loop over a list; the first failure ends it. -/
def forEach (body : α → Attempt ε σ Unit) : List α → Attempt ε σ Unit
  | [] => pure ()
  | item :: items => do
    body item
    forEach body items

section Inversion

variable {state after : σ} {action : Attempt ε σ α} {next : α → Attempt ε σ β} {b : β}

@[simp] theorem pure_apply (value : α) :
    (Pure.pure value : Attempt ε σ α) state = (.ok value, state) := rfl

theorem bind_of_ok {value : α} {middle : σ} (performed : action state = (.ok value, middle)) :
    (action >>= next) state = next value middle := by
  change Attempt.bind action next state = _
  simp [Attempt.bind, performed]

theorem bind_of_error {error : ε} {middle : σ} (failed : action state = (.error error, middle)) :
    (action >>= next) state = (.error error, middle) := by
  change Attempt.bind action next state = _
  simp [Attempt.bind, failed]

theorem tryCatch_of_ok {handler : ε → Attempt ε' σ α} {value : α}
    (performed : action state = (.ok value, after)) :
    action.tryCatch handler state = (.ok value, after) := by
  simp [tryCatch, performed]

theorem tryCatch_of_error {handler : ε → Attempt ε' σ α} {error : ε}
    (failed : action state = (.error error, after)) :
    action.tryCatch handler state = handler error after := by
  simp [tryCatch, failed]

theorem when_apply {action : Attempt ε σ Unit} {condition : Prop} [Decidable condition]
    {result : Except ε Unit × σ} (taken : condition → action state = result)
    (skipped : ¬ condition → result = (.ok (), state)) : when condition action state = result := by
  unfold when
  by_cases holds : condition
  · rw [if_pos holds, taken holds]
  · rw [if_neg holds, skipped holds, pure_apply]

theorem bind_eq_ok :
    (action >>= next) state = (.ok b, after) ↔
      ∃ value middle, action state = (.ok value, middle) ∧ next value middle = (.ok b, after) := by
  cases performed : action state with
  | mk result middle =>
    cases result with
    | ok value =>
      rw [bind_of_ok performed]
      simp
    | error error =>
      rw [bind_of_error performed]
      simp

end Inversion

/-- The state has a property afterwards, whether the attempt fails or not, when it had it
before. -/
def Preserves (holds : σ → Prop) (action : Attempt ε σ α) : Prop :=
  ∀ state, holds state → holds (action state).2

namespace Preserves

variable {holds : σ → Prop} {action : Attempt ε σ α}

protected theorem pure (value : α) : Preserves holds (Pure.pure value : Attempt ε σ α) :=
  fun _ held => held

protected theorem bind {next : α → Attempt ε σ β} (head : Preserves holds action)
    (tail : ∀ value, Preserves holds (next value)) : Preserves holds (action >>= next) := by
  intro state held
  have reached := head state held
  cases performed : action state with
  | mk result middle =>
    rw [performed] at reached
    cases result with
    | ok value =>
      rw [bind_of_ok performed]
      exact tail value middle reached
    | error error =>
      rw [bind_of_error performed]
      exact reached

protected theorem tryCatch {handler : ε → Attempt ε' σ α} (body : Preserves holds action)
    (caught : ∀ error, Preserves holds (handler error)) :
    Preserves holds (action.tryCatch handler) := by
  intro state held
  have reached := body state held
  cases performed : action state with
  | mk result middle =>
    rw [performed] at reached
    cases result with
    | ok value =>
      rw [tryCatch_of_ok performed]
      exact reached
    | error error =>
      rw [tryCatch_of_error performed]
      exact caught error middle reached

end Preserves

end Attempt

/-! ## Stores whose writes can fail -/

/-- A store with the failures that are still to come: one answer for every write, `true` for a
failure; no more failures once the list is used up. -/
structure Faulty (δ : Type) where
  store : δ
  faults : List Bool

/-- The number of failures still to come. -/
def Faulty.pending (state : Faulty δ) : Nat := state.faults.count true

/-- One atomic write.  It fails when its turn is a failure or when the store rejects it. -/
def write (error : ε) (op : δ → Option δ) : Attempt ε (Faulty δ) Unit := fun state =>
  if state.faults.headD false then (.error error, { state with faults := state.faults.tail })
  else
    match op state.store with
    | some store => (.ok (), { store := store, faults := state.faults.tail })
    | none => (.error error, { state with faults := state.faults.tail })

/-- Writes one after the other, all of them accepted. -/
def applyAll (ops : List (δ → Option δ)) (store : δ) : Option δ :=
  ops.foldlM (fun store op => op store) store

@[simp] theorem applyAll_nil (store : δ) : applyAll [] store = some store := rfl

@[simp] theorem applyAll_cons (op : δ → Option δ) (ops : List (δ → Option δ)) (store : δ) :
    applyAll (op :: ops) store = (op store).bind (applyAll ops) := rfl

theorem applyAll_append (first second : List (δ → Option δ)) (store : δ) :
    applyAll (first ++ second) store = (applyAll first store).bind (applyAll second) := by
  rw [applyAll, List.foldlM_append]
  rfl

/-! ## What an attempt writes

Seen through a view of the store, such as one that hides the time of a write. -/

section Performs

variable {γ : Type} (view : δ → γ)

/-- All writes were made. -/
structure Finished (ops : List (γ → Option γ)) (before after : Faulty δ) : Prop where
  applied : applyAll ops (view before.store) = some (view after.store)
  pending : after.pending ≤ before.pending

/-- Only a part of the writes was made, because of a failure or because the store rejects one of
them. -/
structure Stopped (ops : List (γ → Option γ)) (before after : Faulty δ) : Prop where
  written : ∃ done rest, ops = done ++ rest ∧ rest ≠ [] ∧
    applyAll done (view before.store) = some (view after.store)
  cause : after.pending < before.pending ∨ applyAll ops (view before.store) = none

/-- The attempt makes these writes in this order, and stops at the first one that fails. -/
structure Performs (ops : List (γ → Option γ)) (action : Attempt ε (Faulty δ) α) : Prop where
  finished : ∀ {before after value}, action before = (.ok value, after) →
    Finished view ops before after
  stopped : ∀ {before after error}, action before = (.error error, after) →
    Stopped view ops before after

namespace Performs

variable {view} {ops first second : List (γ → Option γ)} {action : Attempt ε (Faulty δ) α}
  {next : α → Attempt ε (Faulty δ) β}

protected theorem pure (value : α) :
    Performs view [] (Pure.pure value : Attempt ε (Faulty δ) α) where
  finished := by
    rintro before after value ⟨⟩
    exact ⟨rfl, le_rfl⟩
  stopped := by
    rintro before after error ⟨⟩

protected theorem write (error : ε) {op : δ → Option δ} {seen : γ → Option γ}
    (isSeen : ∀ store, seen (view store) = (op store).map view) :
    Performs view [seen] (write error op) where
  finished := by
    intro before after value performed
    simp only [Library.write] at performed
    split at performed
    · cases performed
    · split at performed
      · rename_i store accepted
        cases performed
        exact ⟨by simp [isSeen, accepted], (List.tail_sublist _).count_le true⟩
      · cases performed
  stopped := by
    intro before after error performed
    simp only [Library.write] at performed
    split at performed
    · rename_i failure
      cases performed
      refine ⟨⟨[], [seen], rfl, by simp, rfl⟩, .inl ?_⟩
      cases faults : before.faults with
      | nil => simp [faults] at failure
      | cons fault rest =>
        rw [faults] at failure
        cases failure
        simp [Faulty.pending, faults]
    · split at performed
      · cases performed
      · rename_i rejected
        cases performed
        exact ⟨⟨[], [seen], rfl, by simp, rfl⟩, .inr (by simp [isSeen, rejected])⟩

/-- The writes of a sequence are the writes of its parts. -/
protected theorem bind (head : Performs view first action)
    (tail : ∀ value, Performs view second (next value)) :
    Performs view (first ++ second) (action >>= next) where
  finished := by
    intro before after value performed
    obtain ⟨result, middle, performed, rest⟩ := Attempt.bind_eq_ok.mp performed
    obtain ⟨applied, pending⟩ := head.finished performed
    obtain ⟨appliedRest, pendingRest⟩ := (tail result).finished rest
    exact ⟨by rw [applyAll_append, applied]; exact appliedRest, pendingRest.trans pending⟩
  stopped := by
    intro before after error performed
    cases headResult : action before with
    | mk result middle =>
      cases result with
      | ok value =>
        rw [Attempt.bind_of_ok headResult] at performed
        obtain ⟨applied, pending⟩ := head.finished headResult
        obtain ⟨⟨done, rest, rfl, more, reached⟩, cause⟩ := (tail value).stopped performed
        refine ⟨⟨first ++ done, rest, by simp, more, ?_⟩, ?_⟩
        · rw [applyAll_append, applied]
          exact reached
        · rcases cause with fault | rejected
          · exact .inl (fault.trans_le pending)
          · refine .inr ?_
            rw [applyAll_append, applied]
            exact rejected
      | error failure =>
        rw [Attempt.bind_of_error headResult] at performed
        cases performed
        obtain ⟨⟨done, rest, rfl, more, reached⟩, cause⟩ := head.stopped headResult
        refine ⟨⟨done, rest ++ second, by simp, by simp [more], reached⟩, ?_⟩
        rcases cause with fault | rejected
        · exact .inl fault
        · refine .inr ?_
          rw [applyAll_append, rejected]
          rfl

protected theorem mapError (performs : Performs view ops action) (f : ε → ε') :
    Performs view ops (action.mapError f) where
  finished := by
    intro before after value performed
    unfold Attempt.mapError at performed
    split at performed
    · rename_i inner
      cases performed
      exact performs.finished inner
    · cases performed
  stopped := by
    intro before after error performed
    unfold Attempt.mapError at performed
    split at performed
    · cases performed
    · rename_i inner
      cases performed
      exact performs.stopped inner

protected theorem when {action : Attempt ε (Faulty δ) Unit} {condition : Prop}
    [Decidable condition] (performs : condition → Performs view ops action)
    (nothing : ¬ condition → ops = []) : Performs view ops (Attempt.when condition action) := by
  unfold Attempt.when
  by_cases holds : condition
  · rw [if_pos holds]
    exact performs holds
  · rw [if_neg holds, nothing holds]
    exact Performs.pure ()

protected theorem forEach {ι : Type} {body : ι → Attempt ε (Faulty δ) Unit}
    {opsOf : ι → List (γ → Option γ)} (each : ∀ item, Performs view (opsOf item) (body item))
    (items : List ι) : Performs view (items.flatMap opsOf) (Attempt.forEach body items) := by
  induction items with
  | nil => exact Performs.pure ()
  | cons item items inductionHypothesis =>
    exact (each item).bind fun _ => inductionHypothesis

/-- Without failures to come, accepted writes are made. -/
theorem of_calm {before : Faulty δ} {reached : γ} (performs : Performs view ops action)
    (calm : before.pending = 0) (accepted : applyAll ops (view before.store) = some reached) :
    ∃ value after, action before = (.ok value, after) ∧ view after.store = reached ∧
      after.pending = 0 := by
  cases performed : action before with
  | mk result after =>
    cases result with
    | ok value =>
      obtain ⟨applied, pending⟩ := performs.finished performed
      exact ⟨value, after, rfl, Option.some.inj (applied.symm.trans accepted), by omega⟩
    | error error =>
      rcases (performs.stopped performed).cause with fault | rejected
      · omega
      · rw [rejected] at accepted
        cases accepted

end Performs

end Performs

/-! ## Writing again -/

section Repeat

variable {ops done rest : List (δ → Option δ)} {store reached : δ}

/-- Writes that leave a store alone once it has seen them, whatever of them came in between. -/
structure Repeatable (ops : List (δ → Option δ)) : Prop where
  idempotent : ∀ op ∈ ops, ∀ {store after}, op store = some after → op after = some after
  stable : ∀ op ∈ ops, ∀ other ∈ ops, ∀ {store after}, op store = some store →
    other store = some after → op after = some after

theorem Repeatable.sublist (repeatable : Repeatable ops) (part : done ⊆ ops) :
    Repeatable done where
  idempotent op member := repeatable.idempotent op (part member)
  stable op member other also := repeatable.stable op (part member) other (part also)

/-- After its writes a store takes each of them for a second time. -/
theorem applyAll_settled (repeatable : Repeatable ops)
    (applied : applyAll ops store = some reached) :
    ∀ op ∈ ops, op reached = some reached := by
  induction ops using List.reverseRecOn generalizing reached with
  | nil => intro op member; cases member
  | append_singleton ops last inductionHypothesis =>
    rw [applyAll_append] at applied
    obtain ⟨middle, before, after⟩ := Option.bind_eq_some_iff.mp applied
    have lastApplied : last middle = some reached := by
      rw [applyAll_cons] at after
      obtain ⟨_, now, same⟩ := Option.bind_eq_some_iff.mp after
      cases same
      exact now
    have isLast : last ∈ ops ++ [last] := by simp
    intro op member
    rcases List.mem_append.mp member with earlier | now
    · have settled := inductionHypothesis
        (repeatable.sublist (List.subset_append_left _ _)) before op earlier
      exact repeatable.stable op member last isLast settled lastApplied
    · rw [List.mem_singleton.mp now]
      exact repeatable.idempotent last isLast lastApplied

theorem applyAll_of_settled (settled : ∀ op ∈ ops, op store = some store) :
    applyAll ops store = some store := by
  induction ops with
  | nil => rfl
  | cons op ops inductionHypothesis =>
    rw [List.forall_mem_cons] at settled
    rw [applyAll_cons, settled.1, Option.bind_some]
    exact inductionHypothesis settled.2

/-- Starting over from a half-written store ends as if nothing had happened. -/
theorem applyAll_resume (repeatable : Repeatable (done ++ rest))
    (applied : applyAll done store = some reached) :
    applyAll (done ++ rest) reached = applyAll (done ++ rest) store := by
  have settled := applyAll_of_settled (applyAll_settled
    (repeatable.sublist (List.subset_append_left done rest)) applied)
  rw [applyAll_append, applyAll_append, settled, applied]

end Repeat

end Ancore.Library
