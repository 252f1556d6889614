import Ancore.Library.NumberTexts
import Ancore.Wallet.Sends

/-! # Reviews

The drafts of `useSendTransaction`: `goToReview` makes one of the form, its resolved recipient and
an estimated fee, and has it simulated in the background.  A simulation writes its fee into
whatever draft is there when it finishes, so that drafts stay of one piece as long as no
simulation of another one finishes while they are shown (`drafts_consistent_iff`).
-/

namespace Ancore.Wallet.Reviews

open Ancore.Library Ancore.Library.EcmaScript Ancore.Wallet.Sends

/-! ## Drafts -/

inductive FeeNetwork where
  | mainnet
  | testnet
  | futurenet
  | local
deriving DecidableEq

structure FeeEstimate where
  baseFee : String
  totalFee : String
  network : FeeNetwork
deriving DecidableEq

structure ResolvedHandle where
  handle : String
  accountAddress : String
  displayName : Option String
deriving DecidableEq

/-- What a fee and a simulation are asked for. -/
structure Subject where
  recipient : String
  amount : String
  note : String
deriving DecidableEq

section Hook

variable {Schedule ScheduleError ResourceLimits : Type}

structure Draft (Schedule : Type) extends SendTransactionDraft Schedule where
  fee : FeeEstimate
  total : String
  truncatedNote : Option String
  recipientInput : String
  resolvedHandle : Option ResolvedHandle

def subjectOf (values : SendFormValues Schedule) : Subject where
  recipient := values.recipient
  amount := values.amount
  note := values.note

/-- `(Number(amount) + Number(totalFee)).toFixed(7)` -/
def totalOf (amount totalFee : String) : String :=
  numberToFixed 7 (addNumbers (numberOfText amount) (numberOfText totalFee))

def truncateTransferNote (note : String) : String :=
  let trimmedNote := trim note
  if trimmedNote.toList.length ≤ maxNoteLength then trimmedNote
  else String.ofList (trimmedNote.toList.take (maxNoteLength - 3)) ++ "..."

structure UiSimulationResult (ResourceLimits : Type) where
  fee : String
  resourceLimits : ResourceLimits
  authEntries : List String
  footprint : String
  outcome : Option String
  error : Option String

inductive SimulationState (ResourceLimits : Type) where
  | loading
  | error (message : String)
  | success (simulatedFee outcome : String) (authEntries : List String) (footprint : String)
      (resourceLimits : ResourceLimits)

/-! ## The hook -/

/-- A call of `goToReview` that awaits the fee, and whether its service simulates. -/
structure PendingReview (Schedule : Type) where
  options : UseSendTransactionOptions
  values : SendFormValues Schedule
  simulates : Bool

structure ReviewState (Schedule ResourceLimits : Type) where
  step : SendStep := .form
  fee : Option FeeEstimate := none
  tx : Option (Draft Schedule) := none
  simulation : Option (SimulationState ResourceLimits) := none
  submitting : Bool := false
  reviewing : List (PendingReview Schedule) := []
  simulating : List (Draft Schedule) := []
  /-- What the fee and the simulation that are shown were asked for. -/
  feeSubject : Option Subject := none
  simulationSubject : Option Subject := none

/-- The answers to the awaits of `goToReview`. -/
structure ReviewAnswer where
  resolved : Option ResolvedHandle
  estimatedFee : FeeEstimate
  memoRequired : Bool

inductive Action (Schedule ResourceLimits : Type) where
  | goToReview (options : UseSendTransactionOptions) (now : Nat)
      (values : SendFormValues Schedule) (simulates : Bool)
  /-- The awaits of a call are answered, or one of them throws. -/
  | reviewed (index : Nat) (answer : Option ReviewAnswer)
  /-- A simulation resolves, or is rejected with a message. -/
  | simulated (index : Nat) (result : Except String (UiSimulationResult ResourceLimits))
  | back
  | requestConfirm

/-- The draft of a form, where the answers let it through. -/
def draftOf (review : PendingReview Schedule) (answer : ReviewAnswer) : Option (Draft Schedule) :=
  let recipientInput := trim review.values.recipient
  match resolvedRecipient recipientInput (answer.resolved.map (·.accountAddress)) with
  | none => none
  | some recipient =>
    if answer.estimatedFee.network = .mainnet ∧ trim review.values.note = "" ∧
        answer.memoRequired then none
    else some {
      Sends.review review.options review.values recipient with
      fee := answer.estimatedFee
      total := totalOf review.values.amount answer.estimatedFee.totalFee
      truncatedNote :=
        if review.values.note = "" then none else some (truncateTransferNote review.values.note)
      recipientInput
      resolvedHandle := if isHandleInput recipientInput then answer.resolved else none }

/-- The draft is reviewed, and simulated in the background. -/
def ReviewState.enterReview (state : ReviewState Schedule ResourceLimits) (draft : Draft Schedule)
    (simulates : Bool) : ReviewState Schedule ResourceLimits :=
  { state with
    step := .review
    fee := some draft.fee
    tx := some draft
    simulation := if simulates then some .loading else none
    simulating := if simulates then state.simulating ++ [draft] else state.simulating
    feeSubject := some (subjectOf draft.toSendFormValues)
    simulationSubject := if simulates then some (subjectOf draft.toSendFormValues) else none }

def ReviewState.showSimulation (state : ReviewState Schedule ResourceLimits)
    (draft : Draft Schedule) (simulation : SimulationState ResourceLimits) :
    ReviewState Schedule ResourceLimits :=
  { state with
    simulation := some simulation
    simulationSubject := some (subjectOf draft.toSendFormValues) }

/-- What a simulation of a draft leaves: its fee goes to the draft that is there. -/
def ReviewState.simulated (state : ReviewState Schedule ResourceLimits) (draft : Draft Schedule) :
    Except String (UiSimulationResult ResourceLimits) → ReviewState Schedule ResourceLimits
  | .error message => state.showSimulation draft (.error message)
  | .ok result =>
    match result.error.filter (· ≠ "") with
    | some message => state.showSimulation draft (.error message)
    | none =>
      let updatedFee := { draft.fee with totalFee := result.fee, baseFee := result.fee }
      { state.showSimulation draft (.success result.fee (result.outcome.getD "success")
          result.authEntries result.footprint result.resourceLimits) with
        fee := some updatedFee
        tx := state.tx.map fun current =>
          { current with fee := updatedFee, total := totalOf draft.amount result.fee }
        feeSubject := some (subjectOf draft.toSendFormValues) }

variable (validateSchedule : Nat → Option Schedule → Option ScheduleError)

def step (action : Action Schedule ResourceLimits) (state : ReviewState Schedule ResourceLimits) :
    Option (Unit × ReviewState Schedule ResourceLimits) :=
  match action with
  | .goToReview options now values simulates =>
    if (validateForm validateSchedule options now values).isEmpty then
      some ((), { state with
        submitting := true
        reviewing := state.reviewing ++ [⟨options, values, simulates⟩] })
    else some ((), state)
  | .reviewed index answer =>
    state.reviewing[index]?.map fun review =>
      let state := { state with reviewing := state.reviewing.eraseIdx index, submitting := false }
      match answer.bind (draftOf review) with
      | none => ((), state)
      | some draft => ((), state.enterReview draft review.simulates)
  | .simulated index result =>
    state.simulating[index]?.map fun draft =>
      ((), { state with simulating := state.simulating.eraseIdx index }.simulated draft result)
  | .back =>
    match state.step with
    | .review => some ((), { state with step := .form })
    | .confirm => some ((), { state with step := .review })
    | _ => none
  | .requestConfirm =>
    if state.step = .review then some ((), { state with step := .confirm }) else none

/-! ## Drafts of one piece -/

/-- The total, the fee and the simulation that are shown are those of the draft. -/
structure OfOnePiece (state : ReviewState Schedule ResourceLimits) (draft : Draft Schedule) :
    Prop where
  total : draft.total = totalOf draft.amount draft.fee.totalFee
  fee : state.fee = some draft.fee
  feeSubject : state.feeSubject = some (subjectOf draft.toSendFormValues)
  simulationSubject : state.simulation.isSome →
    state.simulationSubject = some (subjectOf draft.toSendFormValues)

/-- On the review and the confirm step there is a draft of one piece. -/
def Consistent (state : ReviewState Schedule ResourceLimits) : Prop :=
  state.step = .review ∨ state.step = .confirm → ∃ draft, state.tx = some draft ∧
    OfOnePiece state draft

/-- A simulation that finishes while a draft is shown was made for the recipient, the amount and
the note of this draft. -/
def SimulatedInTurn (transition : Transition (ReviewState Schedule ResourceLimits)
    (Action Schedule ResourceLimits) Unit) : Prop :=
  match transition.input with
  | .simulated index _ =>
    transition.before.step = .review ∨ transition.before.step = .confirm →
      ∀ draft, transition.before.simulating[index]? = some draft →
        ∀ current, transition.before.tx = some current →
          subjectOf draft.toSendFormValues = subjectOf current.toSendFormValues
  | _ => True

/-! ## One step -/

theorem consistent_start : Consistent ({} : ReviewState Schedule ResourceLimits) := by
  rintro (shown | shown)
  · cases shown
  · cases shown

variable {state : ReviewState Schedule ResourceLimits} {draft current : Draft Schedule}

theorem total_draftOf {review : PendingReview Schedule} {answer : ReviewAnswer}
    (made : draftOf review answer = some draft) :
    draft.total = totalOf draft.amount draft.fee.totalFee := by
  unfold draftOf at made
  dsimp only at made
  split at made
  · cases made
  · rename_i recipient _
    obtain ⟨-, made⟩ := Option.ite_none_left_eq_some.mp made
    have amount : (Sends.review review.options review.values recipient).amount =
      review.values.amount := rfl
    cases made
    dsimp only
    rw [amount]

/-- A review starts with a draft of one piece. -/
theorem consistent_enterReview (simulates : Bool)
    (total : draft.total = totalOf draft.amount draft.fee.totalFee) :
    Consistent (state.enterReview draft simulates) := by
  refine fun _ => ⟨draft, rfl, total, rfl, rfl, ?_⟩
  cases simulates with
  | true => exact fun _ => rfl
  | false => exact nofun

theorem Consistent.of_shown (consistent : Consistent state)
    {next : ReviewState Schedule ResourceLimits}
    (steps : next.step = .review ∨ next.step = .confirm →
      state.step = .review ∨ state.step = .confirm)
    (tx : next.tx = state.tx) (fee : next.fee = state.fee)
    (simulation : next.simulation = state.simulation)
    (feeSubject : next.feeSubject = state.feeSubject)
    (simulationSubject : next.simulationSubject = state.simulationSubject) : Consistent next := by
  intro shown
  obtain ⟨draft, some, piece⟩ := consistent (steps shown)
  exact ⟨draft, tx ▸ some, piece.total, fee ▸ piece.fee, feeSubject ▸ piece.feeSubject,
    simulation ▸ simulationSubject ▸ piece.simulationSubject⟩

@[simp] theorem step_simulated (result : Except String (UiSimulationResult ResourceLimits)) :
    (state.simulated draft result).step = state.step := by
  cases result with
  | error message => rfl
  | ok result =>
    dsimp only [ReviewState.simulated]
    split <;> rfl

theorem simulationSubject_simulated
    (result : Except String (UiSimulationResult ResourceLimits)) :
    (state.simulated draft result).simulation.isSome = true ∧
      (state.simulated draft result).simulationSubject =
        some (subjectOf draft.toSendFormValues) := by
  cases result with
  | error message => exact ⟨rfl, rfl⟩
  | ok result =>
    dsimp only [ReviewState.simulated]
    split <;> exact ⟨rfl, rfl⟩

theorem tx_simulated (result : Except String (UiSimulationResult ResourceLimits))
    (shown : state.tx = some current) :
    ∃ after, (state.simulated draft result).tx = some after ∧
      after.toSendFormValues = current.toSendFormValues := by
  cases result with
  | error message => exact ⟨current, shown, rfl⟩
  | ok result =>
    dsimp only [ReviewState.simulated]
    split
    · exact ⟨current, shown, rfl⟩
    · rw [shown]
      exact ⟨_, rfl, rfl⟩

/-- A simulation made for the draft that is shown leaves it of one piece. -/
theorem ofOnePiece_simulated (result : Except String (UiSimulationResult ResourceLimits))
    (shown : state.tx = some current) (piece : OfOnePiece state current)
    (own : subjectOf draft.toSendFormValues = subjectOf current.toSendFormValues) :
    ∃ after, (state.simulated draft result).tx = some after ∧
      OfOnePiece (state.simulated draft result) after := by
  have failed (message : String) :
      OfOnePiece (state.showSimulation draft (.error message)) current :=
    ⟨piece.total, piece.fee, piece.feeSubject, fun _ => congrArg some own⟩
  cases result with
  | error message => exact ⟨current, shown, failed message⟩
  | ok result =>
    dsimp only [ReviewState.simulated]
    split
    · exact ⟨current, shown, failed _⟩
    · have amount : draft.amount = current.amount := congrArg Subject.amount own
      rw [shown]
      refine ⟨_, rfl, ?_, rfl, congrArg some own, fun _ => congrArg some own⟩
      rw [amount]

/-- A step keeps drafts of one piece unless it is a simulation out of turn. -/
theorem consistent_after_iff {transition : Transition (ReviewState Schedule ResourceLimits)
      (Action Schedule ResourceLimits) Unit}
    (performed : transition.Performed (step validateSchedule))
    (consistent : Consistent transition.before) :
    Consistent transition.after ↔ SimulatedInTurn transition := by
  obtain ⟨action, before, output, after⟩ := transition
  change step validateSchedule action before = some (output, after) at performed
  cases action with
  | goToReview options now values simulates =>
    refine iff_of_true ?_ trivial
    unfold step at performed
    dsimp only at performed
    split at performed
    · cases performed
      exact consistent.of_shown id rfl rfl rfl rfl rfl
    · cases performed
      exact consistent
  | reviewed index answer =>
    refine iff_of_true ?_ trivial
    obtain ⟨review, -, made⟩ := Option.map_eq_some_iff.mp performed
    dsimp only at made
    split at made
    · cases made
      exact consistent.of_shown id rfl rfl rfl rfl rfl
    · rename_i draft drafted
      cases made
      obtain ⟨answer, -, drafted⟩ := Option.bind_eq_some_iff.mp drafted
      exact consistent_enterReview _ (total_draftOf drafted)
  | simulated index result =>
    obtain ⟨draft, found, made⟩ := Option.map_eq_some_iff.mp performed
    cases made
    constructor
    · intro kept shown other same current tx
      rw [found] at same
      cases same
      obtain ⟨now, here, piece⟩ := kept (by rwa [step_simulated])
      obtain ⟨there, subject⟩ := @simulationSubject_simulated _ _
        { before with simulating := before.simulating.eraseIdx index } draft result
      obtain ⟨after, afterwards, unchanged⟩ := @tx_simulated _ _
        { before with simulating := before.simulating.eraseIdx index } draft current result tx
      rw [afterwards] at here
      cases here
      have known := (subject.symm.trans (piece.simulationSubject there))
      rw [Option.some.injEq, unchanged] at known
      exact known
    · intro inTurn shown
      rw [step_simulated] at shown
      obtain ⟨current, tx, piece⟩ := consistent shown
      exact ofOnePiece_simulated result tx ⟨piece.total, piece.fee, piece.feeSubject,
        piece.simulationSubject⟩ (inTurn shown draft found current tx)
  | back =>
    refine iff_of_true ?_ trivial
    unfold step at performed
    dsimp only at performed
    split at performed
    · cases performed
      exact fun shown => nomatch shown
    · rename_i confirm
      cases performed
      exact consistent.of_shown (fun _ => .inr confirm) rfl rfl rfl rfl rfl
    · cases performed
  | requestConfirm =>
    refine iff_of_true ?_ trivial
    unfold step at performed
    dsimp only at performed
    split_ifs at performed with review
    cases performed
    exact consistent.of_shown (fun _ => .inl review) rfl rfl rfl rfl rfl

/-- In a run, what is shown on the review and confirm steps is of one piece exactly if each
simulation that finishes there was made for the draft that is shown. -/
theorem drafts_consistent_iff (validateSchedule : Nat → Option Schedule → Option ScheduleError)
    (actions : List (Action Schedule ResourceLimits)) :
    (∀ transition ∈ history (step validateSchedule) {} actions, Consistent transition.after) ↔
      ∀ transition ∈ history (step validateSchedule) {} actions, SimulatedInTurn transition :=
  history_forall_iff (step validateSchedule)
    (fun _ performed consistent => consistent_after_iff validateSchedule performed consistent)
    (fun _ performed consistent inTurn =>
      (consistent_after_iff validateSchedule performed consistent).mpr inTurn)
    consistent_start actions

end Hook

/-! ### A simulation of the draft before -/

def estimate : FeeEstimate where
  baseFee := "0.0000100"
  totalFee := "0.0000100"
  network := .testnet

/-- A form is filled in, and reviewed. -/
def reviewOf (amount : String) : List (Action Unit Unit) :=
  [.goToReview ⟨none, none, none, none, none⟩ 0 (plainForm amount) true,
    .reviewed 0 (some ⟨none, estimate, false⟩)]

/-- One is reviewed, and then two; the simulation of the first finishes last. -/
def lateSimulation : List (Action Unit Unit) :=
  reviewOf "1" ++ .back :: reviewOf "2" ++ [.simulated 0 (.ok ⟨"0.5", (), [], "", none, none⟩)]

/-- Two are shown with the fee of one, and a total of one and its fee. -/
theorem late_simulation_mixes_drafts :
    ((final (step anyTime) {} lateSimulation).step = .review ∧
      (final (step anyTime) {} lateSimulation).tx.map
        (fun draft => (draft.amount, draft.fee.totalFee, draft.total)) =
          some ("2", "0.5", "1.5000000")) ∧
      ¬ ∀ actions : List (Action Unit Unit), ∀ transition ∈ history (step anyTime) {} actions,
        Consistent transition.after := by
  have shown : (final (step anyTime) {} lateSimulation).step = .review := by decide +kernel
  have mixed : (final (step anyTime) {} lateSimulation).tx.map
      (fun draft => (draft.amount, draft.fee.totalFee, draft.total)) =
        some ("2", "0.5", "1.5000000") := by decide +kernel
  refine ⟨⟨shown, mixed⟩, fun always => ?_⟩
  have consistent : Consistent (final (step anyTime) {} lateSimulation) :=
    final_of_history _ consistent_start
      fun transition member _ => always lateSimulation transition member
  obtain ⟨draft, tx, piece⟩ := consistent (.inl shown)
  rw [tx, Option.map_some, Option.some.injEq, Prod.mk.injEq, Prod.mk.injEq] at mixed
  obtain ⟨amount, fee, total⟩ := mixed
  have own := piece.total
  rw [amount, fee, total] at own
  exact absurd own (by decide +kernel)

end Ancore.Wallet.Reviews
