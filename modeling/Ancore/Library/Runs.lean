import Mathlib

/-! # Runs of a state machine with rollback

A machine is a step function whose calls may fail.  A failed call is rolled
back: it has no output and the state stays as it was.  The history of a run
keeps one `Transition` for every call that succeeded, with the states around
it, so that a law about a run is a statement about its history.

`HistoryInvariant` packages the induction over runs once: a predicate on the
history so far and the current state that one transition preserves holds after
every run (`HistoryInvariant.holds_final`) and just before every transition of it
(`HistoryInvariant.holds_before`).
-/

namespace Ancore.Library

variable {σ ι ο κ : Type}

/-- One successful call, with the states before and after it. -/
structure Transition (σ ι ο : Type) where
  input : ι
  before : σ
  output : ο
  after : σ

/-- The step function really makes this transition. -/
def Transition.Performed (step : ι → σ → Option (ο × σ)) (transition : Transition σ ι ο) : Prop :=
  step transition.input transition.before = some (transition.output, transition.after)

/-- The state after a sequence of calls, each failed call rolled back. -/
def final (step : ι → σ → Option (ο × σ)) : σ → List ι → σ
  | state, [] => state
  | state, input :: inputs =>
    match step input state with
    | some (_, next) => final step next inputs
    | none => final step state inputs

/-- The successful calls of a sequence of calls, oldest first. -/
def history (step : ι → σ → Option (ο × σ)) : σ → List ι → List (Transition σ ι ο)
  | _, [] => []
  | state, input :: inputs =>
    match step input state with
    | some (output, next) => ⟨input, state, output, next⟩ :: history step next inputs
    | none => history step state inputs

section Runs

variable (step : ι → σ → Option (ο × σ))

@[simp] theorem final_nil (state : σ) : final step state [] = state := rfl

@[simp] theorem history_nil (state : σ) : history step state [] = [] := rfl

theorem history_of_performed {input : ι} {state next : σ} {output : ο}
    (performed : step input state = some (output, next)) (inputs : List ι) :
    history step state (input :: inputs) =
      ⟨input, state, output, next⟩ :: history step next inputs := by
  simp only [history, performed]

theorem final_append (state : σ) (first second : List ι) :
    final step state (first ++ second) = final step (final step state first) second := by
  induction first generalizing state with
  | nil => rfl
  | cons input first inductionHypothesis =>
    simp only [List.cons_append, final]
    split
    · exact inductionHypothesis _
    · exact inductionHypothesis _

theorem history_append (state : σ) (first second : List ι) :
    history step state (first ++ second) =
      history step state first ++ history step (final step state first) second := by
  induction first generalizing state with
  | nil => rfl
  | cons input first inductionHypothesis =>
    simp only [List.cons_append, history, final]
    split
    · simp only [List.cons_append, inductionHypothesis]
    · exact inductionHypothesis _

/-- The inputs of the history are the inputs of the calls that succeeded, in order. -/
theorem history_inputs_sublist (state : σ) (inputs : List ι) :
    ((history step state inputs).map Transition.input).Sublist inputs := by
  induction inputs generalizing state with
  | nil => exact .slnil
  | cons input inputs inductionHypothesis =>
    simp only [history]
    split
    · exact (inductionHypothesis _).cons_cons input
    · exact (inductionHypothesis _).cons input

/-- Every place in a history is reached by a run of the calls before it. -/
theorem history_eq_append_cons {state : σ} {inputs : List ι}
    {earlier later : List (Transition σ ι ο)} {transition : Transition σ ι ο}
    (located : history step state inputs = earlier ++ transition :: later) :
    ∃ first second, inputs = first ++ transition.input :: second ∧
      history step state first = earlier ∧ final step state first = transition.before ∧
      transition.Performed step ∧ history step transition.after second = later := by
  induction inputs generalizing state earlier with
  | nil => cases earlier <;> cases located
  | cons input inputs inductionHypothesis =>
    simp only [history] at located
    split at located
    · rename_i output next performed
      cases earlier with
      | nil =>
        simp only [List.nil_append, List.cons.injEq] at located
        -- The transition sought is the first one.
        obtain ⟨rfl, later⟩ := located
        exact ⟨[], inputs, rfl, rfl, rfl, performed, later⟩
      | cons head earlier =>
        simp only [List.cons_append, List.cons.injEq] at located
        obtain ⟨rfl, tail⟩ := located
        obtain ⟨first, second, rfl, before, reached, made, after⟩ := inductionHypothesis tail
        refine ⟨input :: first, second, rfl, ?_, ?_, made, after⟩
        · simp only [history, performed, before]
        · simp only [final, performed, reached]
    · rename_i failed
      obtain ⟨first, second, rfl, before, reached, made, after⟩ := inductionHypothesis located
      refine ⟨input :: first, second, rfl, ?_, ?_, made, after⟩
      · simp only [history, failed, before]
      · simp only [final, failed, reached]

theorem performed_of_mem_history {state : σ} {inputs : List ι} {transition : Transition σ ι ο}
    (member : transition ∈ history step state inputs) : transition.Performed step := by
  obtain ⟨earlier, later, located⟩ := List.append_of_mem member
  obtain ⟨_, _, _, _, _, performed, _⟩ := history_eq_append_cons step located
  exact performed

/-- What holds of a state and survives every transition made after it holds at the end. -/
theorem final_of_history {holds : σ → Prop} {state : σ} {inputs : List ι} (current : holds state)
    (kept : ∀ transition ∈ history step state inputs,
      holds transition.before → holds transition.after) :
    holds (final step state inputs) := by
  induction inputs generalizing state with
  | nil => exact current
  | cons input inputs inductionHypothesis =>
    simp only [final]
    split
    · rename_i output next performed
      simp only [history, performed, List.forall_mem_cons] at kept
      exact inductionHypothesis (kept.1 current) kept.2
    · rename_i failed
      simp only [history, failed] at kept
      exact inductionHypothesis current kept

/-- Where an invariant makes two statements about a transition equivalent, and the statements keep
it, a history of the one kind is of the other. -/
theorem history_forall_iff {invariant : σ → Prop} {holds meets : Transition σ ι ο → Prop}
    (agree : ∀ transition : Transition σ ι ο, transition.Performed step →
      invariant transition.before → (holds transition ↔ meets transition))
    (kept : ∀ transition : Transition σ ι ο, transition.Performed step →
      invariant transition.before → meets transition → invariant transition.after)
    {state : σ} (current : invariant state) (inputs : List ι) :
    (∀ transition ∈ history step state inputs, holds transition) ↔
      ∀ transition ∈ history step state inputs, meets transition := by
  induction inputs generalizing state with
  | nil => simp
  | cons input inputs inductionHypothesis =>
    simp only [history]
    split
    · rename_i output next performed
      rw [List.forall_mem_cons, List.forall_mem_cons,
        agree ⟨input, state, output, next⟩ performed current]
      exact and_congr_right fun met =>
        inductionHypothesis (kept ⟨input, state, output, next⟩ performed current met)
    · exact inductionHypothesis current

end Runs

/-! ## Invariants over the history -/

/-- `holds` relates the history so far to the current state: it is true at the
start and every transition preserves it. -/
structure HistoryInvariant (step : ι → σ → Option (ο × σ)) (start : σ)
    (holds : List (Transition σ ι ο) → σ → Prop) : Prop where
  init : holds [] start
  preserved : ∀ (past : List (Transition σ ι ο)) (transition : Transition σ ι ο),
    holds past transition.before → transition.Performed step →
      holds (past ++ [transition]) transition.after

namespace HistoryInvariant

variable {step : ι → σ → Option (ο × σ)} {start : σ} {holds : List (Transition σ ι ο) → σ → Prop}

/-- The induction over runs: one step preserves the predicate, so every run does. -/
theorem extend (invariant : HistoryInvariant step start holds) (past : List (Transition σ ι ο))
    (state : σ) (current : holds past state) (inputs : List ι) :
    holds (past ++ history step state inputs) (final step state inputs) := by
  induction inputs generalizing past state with
  | nil => simpa using current
  | cons input inputs inductionHypothesis =>
    simp only [history, final]
    split
    -- A successful call adds its transition; a failed one below changes nothing.
    · rename_i output next performed
      have next := invariant.preserved past ⟨input, state, output, next⟩ current performed
      simpa [List.append_assoc] using inductionHypothesis _ _ next
    · exact inductionHypothesis past state current

theorem holds_final (invariant : HistoryInvariant step start holds) (inputs : List ι) :
    holds (history step start inputs) (final step start inputs) := by
  simpa using invariant.extend [] start invariant.init inputs

/-- A machine that makes fewer transitions keeps the invariant. -/
theorem restrict {step' : ι → σ → Option (ο × σ)} (invariant : HistoryInvariant step start holds)
    (fewer : ∀ transition : Transition σ ι ο,
      transition.Performed step' → transition.Performed step) :
    HistoryInvariant step' start holds where
  init := invariant.init
  preserved := fun past transition current performed =>
    invariant.preserved past transition current (fewer transition performed)

theorem holds_before (invariant : HistoryInvariant step start holds) {inputs : List ι}
    {earlier later : List (Transition σ ι ο)} {transition : Transition σ ι ο}
    (located : history step start inputs = earlier ++ transition :: later) :
    holds earlier transition.before ∧ transition.Performed step := by
  obtain ⟨first, second, rfl, rfl, reached, performed, _⟩ := history_eq_append_cons step located
  exact ⟨reached ▸ invariant.holds_final first, performed⟩

end HistoryInvariant

/-- A predicate on states alone that every transition preserves is a history invariant. -/
theorem stateInvariant {step : ι → σ → Option (ο × σ)} {start : σ} {holds : σ → Prop}
    (init : holds start)
    (preserved : ∀ transition : Transition σ ι ο,
      holds transition.before → transition.Performed step → holds transition.after) :
    HistoryInvariant step start fun _ state => holds state where
  init := init
  preserved := fun _ transition current performed => preserved transition current performed

/-! ## Several instances of one machine

A family of instances, each with its own state, run by calls that name the
instance they go to.  What one instance sees of a run of the family is a run of
the single machine on the calls addressed to it. -/

section Instances

variable [DecidableEq κ]

/-- A call to one instance of the family leaves the others as they were. -/
def stepAt (step : κ → ι → σ → Option (ο × σ)) (call : κ × ι) (states : κ → σ) :
    Option (ο × (κ → σ)) :=
  (step call.1 call.2 (states call.1)).map fun (output, next) =>
    (output, Function.update states call.1 next)

/-- The calls of a run addressed to one instance. -/
def callsTo (instanceId : κ) (calls : List (κ × ι)) : List ι :=
  (calls.filter fun call => call.1 = instanceId).map Prod.snd

/-- A transition of the family as its instance sees it. -/
def Transition.atInstance (transition : Transition (κ → σ) (κ × ι) ο) : Transition σ ι ο where
  input := transition.input.2
  before := transition.before transition.input.1
  output := transition.output
  after := transition.after transition.input.1

variable (step : κ → ι → σ → Option (ο × σ))

theorem Transition.performed_atInstance {transition : Transition (κ → σ) (κ × ι) ο}
    (performed : transition.Performed (stepAt step)) :
    transition.atInstance.Performed (step transition.input.1) := by
  obtain ⟨⟨output, next⟩, answered, equal⟩ := Option.map_eq_some_iff.mp performed
  simp only [Prod.mk.injEq] at equal
  simp only [Transition.Performed, Transition.atInstance, answered, ← equal.1, ← equal.2,
    Function.update_self]

theorem history_stepAt (instanceId : κ) (states : κ → σ) (calls : List (κ × ι)) :
    ((history (stepAt step) states calls).filter
        fun transition => transition.input.1 = instanceId).map Transition.atInstance =
      history (step instanceId) (states instanceId) (callsTo instanceId calls) := by
  induction calls generalizing states with
  | nil => rfl
  | cons call calls inductionHypothesis =>
    obtain ⟨target, input⟩ := call
    by_cases same : target = instanceId
    · subst same
      cases performed : step target input (states target) with
      | none => simpa [history, stepAt, callsTo, performed] using inductionHypothesis states
      | some result =>
        have rest := inductionHypothesis (Function.update states target result.2)
        simpa [history, stepAt, callsTo, performed, Transition.atInstance] using rest
    -- A call to another instance is invisible to this one.
    · have other : (callsTo instanceId ((target, input) :: calls)) = callsTo instanceId calls := by
        simp [callsTo, same]
      rw [other]
      cases performed : step target input (states target) with
      | none => simpa [history, stepAt, performed] using inductionHypothesis states
      | some result =>
        have rest := inductionHypothesis (Function.update states target result.2)
        simpa [history, stepAt, performed, same,
          Function.update_of_ne (Ne.symm same)] using rest

end Instances

end Ancore.Library
