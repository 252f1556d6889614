import Ancore.Library.Runs

/-! # The shutdown of the relayer

On the first signal the server and the background components are drained, all at once and
each under a timer; when all of them have settled, the resources are released with what is
left of the budget; and then the process exits.  A second signal exits at once.

Timers run at most `late` milliseconds behind the clock.
-/

namespace Ancore.Relayer.Shutdown

open Ancore.Library

/-! ## The state -/

structure ShutdownOptions where
  hasServer : Bool
  drainables : Nat
  closers : Nat
  timeoutMs : Nat

inductive Work where
  | server
  | drainable
  | closer
deriving DecidableEq

/-- How the promise of a piece of work settles. -/
inductive Completion where
  | resolved (value : Bool)
  | rejected

/-- What a piece of work counts as. -/
def Work.outcome : Work → Completion → Bool
  -- `server.close(() => finish(true))`, whatever the error
  | .server, _ => true
  | .drainable, .resolved value => value
  | .drainable, .rejected => false
  | .closer, .resolved _ => true
  | .closer, .rejected => false

/-- A promise under the deadline of its pass; the first of the two to settle it decides. -/
structure Slot where
  work : Work
  result : Option Bool

def Slot.settle (slot : Slot) (result : Bool) : Slot :=
  { slot with result := slot.result <|> some result }

/-- What runs concurrently, and when its timers are due. -/
structure Pass where
  slots : List Slot
  due : Nat

namespace Pass

def start (works : List Work) (due : Nat) : Pass where
  slots := works.map fun work => ⟨work, none⟩
  due := due

def works (pass : Pass) : List Work := pass.slots.map Slot.work

/-- `Promise.all` has resolved. -/
def settled (pass : Pass) : Bool := pass.slots.all fun slot => slot.result.isSome

/-- `results.every(Boolean)` -/
def clean (pass : Pass) : Bool := pass.slots.all fun slot => slot.result == some true

def set (pass : Pass) (index : Nat) (slot : Slot) : Pass :=
  { pass with slots := pass.slots.set index slot }

def complete (pass : Pass) (index : Nat) (completion : Completion) : Option Pass :=
  pass.slots[index]?.map fun slot =>
    pass.set index (slot.settle (slot.work.outcome completion))

/-- The timer of a piece of work fires. -/
def timeOut (pass : Pass) (now index : Nat) : Option Pass := do
  let slot ← pass.slots[index]?
  if slot.result.isNone ∧ pass.due ≤ now then some (pass.set index (slot.settle false)) else none

end Pass

inductive Phase where
  | serving
  | draining (startedAt : Nat) (pass : Pass)
  | releasing (startedAt : Nat) (drained : Bool) (pass : Pass)
  | exited (code : Nat)

def Phase.startedAt : Phase → Option Nat
  | .draining startedAt _ => some startedAt
  | .releasing startedAt _ _ => some startedAt
  | _ => none

structure State where
  now : Nat
  phase : Phase

/-- What the process asks of others. -/
inductive Effect where
  | closeServer
  | drain (index : Nat)
  | close (index : Nat)
  | exit (code : Nat)

/-! ## The steps -/

def drainWorks (options : ShutdownOptions) : List Work :=
  (if options.hasServer then [.server] else []) ++ List.replicate options.drainables .drainable

def closerWorks (options : ShutdownOptions) : List Work := List.replicate options.closers .closer

def drainEffects (options : ShutdownOptions) : List Effect :=
  (if options.hasServer then [.closeServer] else []) ++ (List.range options.drainables).map .drain

def closerEffects (options : ShutdownOptions) : List Effect :=
  (List.range options.closers).map .close

/-- `exit(clean ? 0 : 1)` -/
def conclude (clean : Bool) : List Effect × Phase :=
  let code := if clean then 0 else 1
  ([.exit code], .exited code)

/-- Resources are released with whatever is left of the budget, never a fresh one. -/
def release (options : ShutdownOptions) (now startedAt : Nat) (drained : Bool) :
    List Effect × Phase :=
  let remainingMs := options.timeoutMs - (now - startedAt)
  if options.closers = 0 then conclude drained
  -- no budget left to release resources
  else if remainingMs ≤ 10 then conclude false
  else (closerEffects options,
    .releasing startedAt drained (.start (closerWorks options) (now + remainingMs)))

def continueDraining (options : ShutdownOptions) (now startedAt : Nat) (pass : Pass) :
    List Effect × Phase :=
  if pass.settled then release options now startedAt pass.clean
  else ([], .draining startedAt pass)

def continueReleasing (startedAt : Nat) (drained : Bool) (pass : Pass) : List Effect × Phase :=
  if pass.settled then conclude (drained && pass.clean)
  else ([], .releasing startedAt drained pass)

inductive Task where
  | drain (index : Nat)
  | closer (index : Nat)

inductive Input where
  /-- SIGTERM or SIGINT -/
  | signal
  | completes (task : Task) (completion : Completion)
  | timesOut (task : Task)
  /-- a millisecond passes -/
  | tick

/-- `runShutdown` of `installShutdownHandlers`, in the phase that it is in. -/
def stepPhase (options : ShutdownOptions) (now : Nat) : Input → Phase → Option (List Effect × Phase)
  | .signal, .serving =>
    let (effects, phase) := continueDraining options now now
      (.start (drainWorks options) (now + options.timeoutMs))
    some (drainEffects options ++ effects, phase)
  -- a second signal: stop pretending to drain
  | .signal, .draining .. => some (conclude false)
  | .signal, .releasing .. => some (conclude false)
  | .completes (.drain index) completion, .draining startedAt pass =>
    (pass.complete index completion).map (continueDraining options now startedAt)
  | .completes (.closer index) completion, .releasing startedAt drained pass =>
    (pass.complete index completion).map (continueReleasing startedAt drained)
  | .timesOut (.drain index), .draining startedAt pass =>
    (pass.timeOut now index).map (continueDraining options now startedAt)
  | .timesOut (.closer index), .releasing startedAt drained pass =>
    (pass.timeOut now index).map (continueReleasing startedAt drained)
  | _, _ => none

/-- A timer that is due is not left out for longer than `late`. -/
def mayWait (late now : Nat) : Phase → Bool
  | .serving => true
  | .draining _ pass => now < pass.due + late
  | .releasing _ _ pass => now < pass.due + late
  | .exited _ => false

def step (options : ShutdownOptions) (late : Nat) (input : Input) (state : State) :
    Option (List Effect × State) :=
  match input with
  | .tick =>
    if mayWait late state.now state.phase then some ([], { state with now := state.now + 1 })
    else none
  | input =>
    (stepPhase options state.now input state.phase).map fun (effects, phase) =>
      (effects, { state with phase := phase })

def initial (now : Nat) : State := ⟨now, .serving⟩

abbrev ShutdownTransition := Transition State Input (List Effect)

/-! ## What a step can do -/

/-- The input settles the task, if nothing has before. -/
inductive Settles (now due : Nat) (task : Task) (slot : Slot) : Bool → Input → Prop
  | completes (completion : Completion) :
      Settles now due task slot (slot.work.outcome completion) (.completes task completion)
  | timesOut (pending : slot.result = none) (elapsed : due ≤ now) :
      Settles now due task slot false (.timesOut task)

inductive PhaseStep (options : ShutdownOptions) (now : Nat) :
    Input → Phase → List Effect × Phase → Prop
  | begins : PhaseStep options now .signal .serving
      (drainEffects options ++ (continueDraining options now now
          (.start (drainWorks options) (now + options.timeoutMs))).1,
        (continueDraining options now now
          (.start (drainWorks options) (now + options.timeoutMs))).2)
  | again {phase : Phase} (going : phase.startedAt ≠ none) :
      PhaseStep options now .signal phase (conclude false)
  | drains {input : Input} {startedAt index : Nat} {pass : Pass} {slot : Slot} {result : Bool}
      (found : pass.slots[index]? = some slot)
      (settles : Settles now pass.due (.drain index) slot result input) :
      PhaseStep options now input (.draining startedAt pass)
        (continueDraining options now startedAt (pass.set index (slot.settle result)))
  | releases {input : Input} {startedAt index : Nat} {drained : Bool} {pass : Pass} {slot : Slot}
      {result : Bool} (found : pass.slots[index]? = some slot)
      (settles : Settles now pass.due (.closer index) slot result input) :
      PhaseStep options now input (.releasing startedAt drained pass)
        (continueReleasing startedAt drained (pass.set index (slot.settle result)))

section Inversion

variable {options : ShutdownOptions} {now : Nat} {pass next : Pass} {index : Nat}
  {completion : Completion}

theorem Pass.complete_eq_some : pass.complete index completion = some next ↔
    ∃ slot, pass.slots[index]? = some slot ∧
      pass.set index (slot.settle (slot.work.outcome completion)) = next := by
  simp [Pass.complete, Option.map_eq_some_iff]

theorem Pass.timeOut_eq_some : pass.timeOut now index = some next ↔
    ∃ slot, pass.slots[index]? = some slot ∧ slot.result = none ∧ pass.due ≤ now ∧
      pass.set index (slot.settle false) = next := by
  simp [Pass.timeOut, Option.bind_eq_some_iff, and_assoc]

theorem stepPhase_cases {input : Input} {phase : Phase} {result : List Effect × Phase}
    (performed : stepPhase options now input phase = some result) :
    PhaseStep options now input phase result := by
  unfold stepPhase at performed
  split at performed
  · cases performed
    exact .begins
  · cases performed
    exact .again (by simp [Phase.startedAt])
  · cases performed
    exact .again (by simp [Phase.startedAt])
  · obtain ⟨next, completed, rfl⟩ := Option.map_eq_some_iff.mp performed
    obtain ⟨slot, found, rfl⟩ := Pass.complete_eq_some.mp completed
    exact .drains found (.completes _)
  · obtain ⟨next, completed, rfl⟩ := Option.map_eq_some_iff.mp performed
    obtain ⟨slot, found, rfl⟩ := Pass.complete_eq_some.mp completed
    exact .releases found (.completes _)
  · obtain ⟨next, fired, rfl⟩ := Option.map_eq_some_iff.mp performed
    obtain ⟨slot, found, pending, elapsed, rfl⟩ := Pass.timeOut_eq_some.mp fired
    exact .drains found (.timesOut pending elapsed)
  · obtain ⟨next, fired, rfl⟩ := Option.map_eq_some_iff.mp performed
    obtain ⟨slot, found, pending, elapsed, rfl⟩ := Pass.timeOut_eq_some.mp fired
    exact .releases found (.timesOut pending elapsed)
  · cases performed

/-- A step lets a millisecond pass or moves the phase. -/
theorem step_cases {late : Nat} {input : Input} {before after : State} {effects : List Effect}
    (performed : step options late input before = some (effects, after)) :
    (input = .tick ∧ mayWait late before.now before.phase = true ∧ effects = [] ∧
        after = { before with now := before.now + 1 }) ∨
      (after.now = before.now ∧
        PhaseStep options before.now input before.phase (effects, after.phase)) := by
  unfold step at performed
  split at performed
  · split at performed
    · rename_i waits
      cases performed
      exact .inl ⟨rfl, waits, rfl, rfl⟩
    · cases performed
  · obtain ⟨⟨effects, phase⟩, moved, equal⟩ := Option.map_eq_some_iff.mp performed
    cases equal
    exact .inr ⟨rfl, stepPhase_cases moved⟩

end Inversion

/-! ## The budget -/

/-- A pass that goes on is within the budget of the whole shutdown. -/
def Within (options : ShutdownOptions) (late now : Nat) : Phase → Prop
  | .draining startedAt pass | .releasing startedAt _ pass =>
    pass.due = startedAt + options.timeoutMs ∧ startedAt ≤ now ∧ now ≤ pass.due + late ∧
      pass.settled = false
  | _ => True

section Budget

variable {options : ShutdownOptions} {late now startedAt : Nat} {pass : Pass} {drained : Bool}
  {phase : Phase} {input : Input} {result : List Effect × Phase}

theorem within_conclude (clean : Bool) : Within options late now (conclude clean).2 := trivial

/-- The closers get what is left, so their timers are due when the drains' were. -/
theorem within_release (begun : startedAt ≤ now) :
    Within options late now (release options now startedAt drained).2 := by
  simp only [release]
  split
  · exact within_conclude drained
  · rename_i several
    split
    · exact within_conclude false
    · rename_i enough
      refine ⟨?_, begun, by simp only [Pass.start]; omega, ?_⟩
      · simp only [Pass.start]
        omega
      · simp [Pass.settled, Pass.start, closerWorks, several]

theorem within_continueDraining (due : pass.due = startedAt + options.timeoutMs)
    (begun : startedAt ≤ now) (inTime : now ≤ pass.due + late) :
    Within options late now (continueDraining options now startedAt pass).2 := by
  simp only [continueDraining]
  split
  · exact within_release begun
  · rename_i pending
    exact ⟨due, begun, inTime, Bool.eq_false_iff.mpr pending⟩

theorem within_continueReleasing (due : pass.due = startedAt + options.timeoutMs)
    (begun : startedAt ≤ now) (inTime : now ≤ pass.due + late) :
    Within options late now (continueReleasing startedAt drained pass).2 := by
  simp only [continueReleasing]
  split
  · exact within_conclude _
  · rename_i pending
    exact ⟨due, begun, inTime, Bool.eq_false_iff.mpr pending⟩

theorem within_phaseStep (within : Within options late now phase)
    (moved : PhaseStep options now input phase result) : Within options late now result.2 := by
  cases moved with
  | begins =>
    exact within_continueDraining rfl (Nat.le_refl now) (by simp only [Pass.start]; omega)
  | again => exact within_conclude false
  | drains =>
    obtain ⟨due, begun, inTime, -⟩ := within
    exact within_continueDraining due begun inTime
  | releases =>
    obtain ⟨due, begun, inTime, -⟩ := within
    exact within_continueReleasing due begun inTime

theorem within_step {before after : State} {effects : List Effect}
    (within : Within options late before.now before.phase)
    (performed : step options late input before = some (effects, after)) :
    Within options late after.now after.phase := by
  obtain ⟨-, waits, -, rfl⟩ | ⟨same, moved⟩ := step_cases performed
  · obtain ⟨now, phase⟩ := before
    -- a pass waits only while no timer is overdue by more than `late`
    cases phase with
    | draining startedAt pass | releasing startedAt _ pass =>
      obtain ⟨due, begun, -, pending⟩ := within
      have earlier : now < pass.due + late := of_decide_eq_true waits
      exact ⟨due, Nat.le_succ_of_le begun, earlier, pending⟩
    | serving | exited => trivial
  · rw [same]
    exact within_phaseStep within moved

theorem within_invariant (options : ShutdownOptions) (late start : Nat) :
    HistoryInvariant (step options late) (initial start) fun _ state =>
      Within options late state.now state.phase :=
  stateInvariant trivial fun _ within performed => within_step within performed

end Budget

/-! ## The exit without anyone's help -/

/-- Time passes, or a timer that is due fires. -/
def Forced (input : Input) : Prop := input = .tick ∨ ∃ task, input = .timesOut task

def Pass.pending (pass : Pass) : Nat := pass.slots.countP fun slot => slot.result.isNone

/-- The milliseconds until the timers, and the timers. -/
def toGo (now : Nat) : Phase → Nat
  | .draining _ pass => (pass.due - now) + pass.pending + 1
  | .releasing _ _ pass => (pass.due - now) + pass.pending + 1
  | _ => 0

section Liveness

variable {options : ShutdownOptions} {late now startedAt : Nat} {pass : Pass} {drained : Bool}

theorem Pass.exists_pending (unsettled : pass.settled = false) :
    ∃ (index : Nat) (slot : Slot), pass.slots[index]? = some slot ∧ slot.result = none := by
  obtain ⟨slot, member, pending⟩ := List.all_eq_false.mp unsettled
  obtain ⟨index, found⟩ := List.mem_iff_getElem?.mp member
  exact ⟨index, slot, found, by simpa using pending⟩

theorem Pass.pending_set {index : Nat} {slot : Slot} (found : pass.slots[index]? = some slot)
    (pending : slot.result = none) (result : Bool) :
    (pass.set index (slot.settle result)).pending + 1 = pass.pending := by
  obtain ⟨bound, same⟩ := List.getElem?_eq_some_iff.mp found
  have counted : 0 < pass.slots.countP fun (slot : Slot) => slot.result.isNone :=
    List.countP_pos_iff.mpr ⟨slot, List.mem_of_getElem? found, by simp [pending]⟩
  have settled : (slot.settle result).result.isNone = false := by simp [Slot.settle, pending]
  simp only [Pass.pending, Pass.set, List.countP_set bound, same, settled, pending,
    Option.isNone_none, Bool.false_eq_true, if_true, if_false]
  omega

/-- Once the timers are due there is no budget left, and so no closer is begun. -/
theorem toGo_continueDraining (elapsed : startedAt + options.timeoutMs ≤ now) :
    toGo now (continueDraining options now startedAt pass).2 ≤ pass.due - now + pass.pending + 1 ∧
      (continueDraining options now startedAt pass).2 ≠ .serving := by
  simp only [continueDraining]
  split
  · have empty : options.timeoutMs - (now - startedAt) ≤ 10 := by omega
    simp only [release, empty, if_true]
    split <;> simp [conclude, toGo]
  · simp [toGo]

theorem toGo_continueReleasing :
    toGo now (continueReleasing startedAt drained pass).2 ≤ pass.due - now + pass.pending + 1 ∧
      (continueReleasing startedAt drained pass).2 ≠ .serving := by
  simp only [continueReleasing]
  split
  · simp [conclude, toGo]
  · simp [toGo]

theorem step_tick {state : State} (waits : mayWait late state.now state.phase = true) :
    step options late .tick state = some ([], { state with now := state.now + 1 }) := by
  rw [step, if_pos waits]

/-- When the timers of a pass are due, one of them can fire, and leaves one fewer. -/
theorem Pass.exists_timeOut (unsettled : pass.settled = false) (elapsed : pass.due ≤ now) :
    ∃ index next, pass.timeOut now index = some next ∧ next.due = pass.due ∧
      next.pending + 1 = pass.pending := by
  obtain ⟨index, slot, found, pending⟩ := Pass.exists_pending unsettled
  exact ⟨index, pass.set index (slot.settle false),
    Pass.timeOut_eq_some.mpr ⟨slot, found, pending, elapsed, rfl⟩, rfl,
    Pass.pending_set found pending false⟩

/-- There is always a step nearer to the exit that nobody has to help with. -/
theorem exists_forced {state : State} (within : Within options late state.now state.phase)
    (going : state.phase.startedAt ≠ none) :
    ∃ input effects next, Forced input ∧ step options late input state = some (effects, next) ∧
      toGo next.now next.phase < toGo state.now state.phase ∧ next.phase ≠ .serving := by
  obtain ⟨now, phase⟩ := state
  cases phase with
  | serving => exact absurd rfl going
  | exited code => exact absurd rfl going
  | draining startedAt pass =>
    obtain ⟨due, begun, -, unsettled⟩ := within
    by_cases elapsed : pass.due ≤ now
    · obtain ⟨index, next, fired, sameDue, fewer⟩ := Pass.exists_timeOut unsettled elapsed
      obtain ⟨nearer, notServing⟩ :=
        @toGo_continueDraining options now startedAt next (due ▸ elapsed)
      refine ⟨.timesOut (.drain index), (continueDraining options now startedAt next).1,
        ⟨now, (continueDraining options now startedAt next).2⟩, .inr ⟨_, rfl⟩, ?_, ?_, notServing⟩
      · simp only [step, stepPhase, fired, Option.map_some]
      · show toGo now (continueDraining options now startedAt next).2 <
          pass.due - now + pass.pending + 1
        omega
    · have earlier : now < pass.due + late := by omega
      refine ⟨.tick, _, _, .inl rfl, step_tick (decide_eq_true earlier), ?_, nofun⟩
      simp only [toGo]
      omega
  | releasing startedAt drained pass =>
    obtain ⟨due, begun, -, unsettled⟩ := within
    by_cases elapsed : pass.due ≤ now
    · obtain ⟨index, next, fired, sameDue, fewer⟩ := Pass.exists_timeOut unsettled elapsed
      obtain ⟨nearer, notServing⟩ := @toGo_continueReleasing now startedAt next drained
      refine ⟨.timesOut (.closer index), (continueReleasing startedAt drained next).1,
        ⟨now, (continueReleasing startedAt drained next).2⟩, .inr ⟨_, rfl⟩, ?_, ?_, notServing⟩
      · simp only [step, stepPhase, fired, Option.map_some]
      · show toGo now (continueReleasing startedAt drained next).2 <
          pass.due - now + pass.pending + 1
        omega
    · have earlier : now < pass.due + late := by omega
      refine ⟨.tick, _, _, .inl rfl, step_tick (decide_eq_true earlier), ?_, nofun⟩
      simp only [toGo]
      omega

theorem forced_exit {state : State} (within : Within options late state.now state.phase)
    (begun : state.phase ≠ .serving) :
    ∃ inputs, (∀ input ∈ inputs, Forced input) ∧
      ∃ code, (final (step options late) state inputs).phase = .exited code := by
  induction measured : toGo state.now state.phase using Nat.strong_induction_on
    generalizing state with
  | _ bound inductionHypothesis =>
    subst measured
    by_cases going : state.phase.startedAt = none
    · refine ⟨[], List.forall_mem_nil _, ?_⟩
      obtain ⟨now, phase⟩ := state
      cases phase with
      | serving => exact absurd rfl begun
      | exited code => exact ⟨code, rfl⟩
      | draining | releasing => cases going
    · obtain ⟨input, effects, next, forced, performed, nearer, notServing⟩ :=
        exists_forced within going
      obtain ⟨inputs, allForced, code, exits⟩ :=
        inductionHypothesis _ nearer (within_step within performed) notServing rfl
      refine ⟨input :: inputs, List.forall_mem_cons.mpr ⟨forced, allForced⟩, code, ?_⟩
      simpa [final, performed] using exits

end Liveness

/-- A shutdown never outlasts its budget by more than the lateness of one timer, and from every
state of it the process exits by itself, even if no work ever settles. -/
theorem shutdown_within_budget (options : ShutdownOptions) (late start : Nat)
    (inputs : List Input) :
    (∀ transition ∈ history (step options late) (initial start) inputs, ∀ startedAt,
      transition.before.phase.startedAt = some startedAt →
        transition.before.now ≤ startedAt + options.timeoutMs + late) ∧
      ((final (step options late) (initial start) inputs).phase ≠ .serving →
        ∃ forced, (∀ input ∈ forced, Forced input) ∧ ∃ code,
          (final (step options late) (final (step options late) (initial start) inputs)
            forced).phase = .exited code) := by
  constructor
  · intro transition member startedAt going
    obtain ⟨earlier, later, located⟩ := List.append_of_mem member
    obtain ⟨within, -⟩ := (within_invariant options late start).holds_before located
    revert within going
    cases transition.before.phase with
    | draining begun pass | releasing begun _ pass =>
      intro going within
      obtain ⟨due, -, inTime, -⟩ := within
      cases going
      exact due ▸ inTime
    | serving | exited => exact fun going _ => nomatch going
  · exact forced_exit ((within_invariant options late start).holds_final inputs)

/-! ## What has happened at the exit -/

def requested (past : List ShutdownTransition) : List Effect := past.flatMap Transition.output

def Input.isSignal : Input → Bool
  | .signal => true
  | _ => false

def signals (past : List ShutdownTransition) : Nat :=
  past.countP fun transition => transition.input.isSignal

/-- The work of a task came to the result, or ran out of time. -/
def Settled (past : List ShutdownTransition) (task : Task) (work : Work) (result : Bool) : Prop :=
  ∃ transition ∈ past, (transition.input = .timesOut task ∧ result = false) ∨
    ∃ completion, transition.input = .completes task completion ∧ work.outcome completion = result

/-- All the work has settled, and well if it is clean. -/
def AllSettled (past : List ShutdownTransition) (task : Nat → Task) (works : List Work)
    (clean : Bool) : Prop :=
  ∀ index work, works[index]? = some work →
    ∃ result, (clean = true → result = true) ∧ Settled past (task index) work result

/-- The results of a pass are those of the run. -/
structure Accounted (past : List ShutdownTransition) (task : Nat → Task) (works : List Work)
    (pass : Pass) : Prop where
  works : pass.works = works
  settled : ∀ index slot result, pass.slots[index]? = some slot → slot.result = some result →
    Settled past (task index) slot.work result

section Accounting

variable {past : List ShutdownTransition} {transition : ShutdownTransition}
  {task : Nat → Task} {works : List Work} {pass : Pass} {now due index : Nat} {slot : Slot}
  {result : Bool}

@[simp] theorem requested_append (later : List ShutdownTransition) :
    requested (past ++ later) = requested past ++ requested later :=
  List.flatMap_append

theorem signals_append (later : List ShutdownTransition) :
    signals (past ++ later) = signals past + signals later :=
  List.countP_append

theorem Settled.append {task : Task} {work : Work} (settled : Settled past task work result)
    (later : List ShutdownTransition) : Settled (past ++ later) task work result := by
  obtain ⟨transition, member, cause⟩ := settled
  exact ⟨transition, List.mem_append_left _ member, cause⟩

theorem AllSettled.append {clean : Bool} (settled : AllSettled past task works clean)
    (later : List ShutdownTransition) : AllSettled (past ++ later) task works clean := by
  intro index work found
  obtain ⟨result, well, cause⟩ := settled index work found
  exact ⟨result, well, cause.append later⟩

theorem settled_of_settles {task : Task}
    (settles : Settles now due task slot result transition.input) :
    Settled (past ++ [transition]) task slot.work result := by
  refine ⟨transition, by simp, ?_⟩
  generalize transition.input = input at settles
  cases settles with
  | completes completion => exact .inr ⟨completion, rfl, rfl⟩
  | timesOut => exact .inl ⟨rfl, rfl⟩

theorem Accounted.append (accounted : Accounted past task works pass)
    (later : List ShutdownTransition) : Accounted (past ++ later) task works pass where
  works := accounted.works
  settled index slot result found known :=
    (accounted.settled index slot result found known).append later

theorem Accounted.start (works : List Work) : Accounted past task works (.start works due) where
  works := by simp [Pass.works, Pass.start, Function.comp_def]
  settled := by
    intro index slot result found settled
    obtain ⟨work, -, rfl⟩ := List.mem_map.mp (List.mem_of_getElem? found)
    cases settled

/-- A task that has settled keeps its result. -/
theorem Accounted.set (accounted : Accounted past task works pass)
    (found : pass.slots[index]? = some slot)
    (settles : Settles now due (task index) slot result transition.input) :
    Accounted (past ++ [transition]) task works (pass.set index (slot.settle result)) where
  works := by
    obtain ⟨bound, same⟩ := List.getElem?_eq_some_iff.mp found
    rw [← accounted.works, Pass.works, Pass.works, Pass.set, List.map_set]
    refine List.ext_getElem? fun other => ?_
    by_cases here : index = other
    · subst here
      rw [List.getElem?_set_self (by simpa using bound), List.getElem?_map, found]
      rfl
    · rw [List.getElem?_set_ne here]
  settled := by
    intro other slot' result' found' settled
    by_cases here : index = other
    · subst here
      obtain ⟨bound, -⟩ := List.getElem?_eq_some_iff.mp found
      rw [Pass.set, List.getElem?_set_self bound] at found'
      cases found'
      cases known : slot.result with
      | none =>
        have same : result = result' := by simpa [Slot.settle, known] using settled
        have decided : Settled (past ++ [transition]) (task index) slot.work result :=
          settled_of_settles settles
        exact same ▸ decided
      | some old =>
        have same : old = result' := by simpa [Slot.settle, known] using settled
        exact same ▸ (accounted.settled index slot old found known).append _
    · rw [Pass.set, List.getElem?_set_ne here] at found'
      exact (accounted.settled other slot' result' found' settled).append _

theorem Accounted.allSettled (accounted : Accounted past task works pass)
    (settled : pass.settled = true) : AllSettled past task works pass.clean := by
  intro index work found
  rw [← accounted.works, Pass.works, List.getElem?_map, Option.map_eq_some_iff] at found
  obtain ⟨slot, found, rfl⟩ := found
  have member := List.mem_of_getElem? found
  obtain ⟨result, known⟩ := Option.isSome_iff_exists.mp (List.all_eq_true.mp settled slot member)
  refine ⟨result, fun clean => ?_, accounted.settled index slot result found known⟩
  have well := List.all_eq_true.mp clean slot member
  rw [known] at well
  simpa using well

end Accounting

/-- How far the run has come in each phase. -/
def Traced (options : ShutdownOptions) (past : List ShutdownTransition) : Phase → Prop
  | .serving => requested past = [] ∧ signals past = 0
  | .draining _ pass => requested past = drainEffects options ∧ signals past = 1 ∧
      Accounted past .drain (drainWorks options) pass
  | .releasing _ drained pass =>
    requested past = drainEffects options ++ closerEffects options ∧ signals past = 1 ∧
      AllSettled past .drain (drainWorks options) drained ∧
      Accounted past .closer (closerWorks options) pass
  | .exited code =>
    (requested past = drainEffects options ++ [.exit code] ∨
        requested past = drainEffects options ++ closerEffects options ++ [.exit code]) ∧
      (code = 0 → signals past = 1 ∧ AllSettled past .drain (drainWorks options) true ∧
        AllSettled past .closer (closerWorks options) true)

section Tracing

variable {options : ShutdownOptions} {past : List ShutdownTransition} {now startedAt : Nat}
  {pass : Pass} {drained : Bool}

theorem traced_release (once : signals past = 1)
    (settled : AllSettled past .drain (drainWorks options) drained)
    (trace : requested past = drainEffects options ++ (release options now startedAt drained).1) :
    Traced options past (release options now startedAt drained).2 := by
  revert trace
  simp only [release]
  split
  · rename_i noClosers
    intro trace
    refine ⟨.inl trace, fun zero => ⟨once, ?_, ?_⟩⟩
    · cases drained with
      | true => exact settled
      | false => cases zero
    · intro index work found
      simp [closerWorks, noClosers] at found
  · split
    · exact fun trace => ⟨.inl trace, nofun⟩
    · exact fun trace => ⟨trace, once, settled, .start _⟩

theorem traced_continueDraining (once : signals past = 1)
    (accounted : Accounted past .drain (drainWorks options) pass)
    (trace : requested past =
      drainEffects options ++ (continueDraining options now startedAt pass).1) :
    Traced options past (continueDraining options now startedAt pass).2 := by
  revert trace
  simp only [continueDraining]
  split
  · rename_i settled
    exact traced_release once (accounted.allSettled settled)
  · intro trace
    exact ⟨trace.trans (List.append_nil _), once, accounted⟩

theorem traced_continueReleasing (once : signals past = 1)
    (settled : AllSettled past .drain (drainWorks options) drained)
    (accounted : Accounted past .closer (closerWorks options) pass)
    (trace : requested past = drainEffects options ++ closerEffects options ++
      (continueReleasing startedAt drained pass).1) :
    Traced options past (continueReleasing startedAt drained pass).2 := by
  revert trace
  simp only [continueReleasing]
  split
  · rename_i released
    intro trace
    refine ⟨.inr trace, fun zero => ?_⟩
    have clean : drained = true ∧ pass.clean = true := by
      rw [← Bool.and_eq_true, ← Bool.not_eq_false]
      intro unclean
      rw [unclean] at zero
      cases zero
    have closed := accounted.allSettled released
    rw [clean.2] at closed
    exact ⟨once, clean.1 ▸ settled, closed⟩
  · intro trace
    exact ⟨trace.trans (List.append_nil _), once, settled, accounted⟩

theorem signals_singleton_of_settles {transition : ShutdownTransition} {due : Nat} {task : Task}
    {slot : Slot} {result : Bool} (settles : Settles now due task slot result transition.input) :
    signals [transition] = 0 := by
  simp only [signals, List.countP_singleton]
  generalize transition.input = input at settles
  cases settles <;> rfl

theorem requested_singleton (transition : ShutdownTransition) :
    requested [transition] = transition.output := by
  simp [requested]

/-- A millisecond that passes changes nothing that the run has come to. -/
theorem traced_of_quiet {transition : ShutdownTransition} {phase : Phase}
    (traced : Traced options past phase) (quiet : transition.output = [])
    (unsignalled : signals [transition] = 0) : Traced options (past ++ [transition]) phase := by
  have trace : requested (past ++ [transition]) = requested past := by
    rw [requested_append, requested_singleton, quiet, List.append_nil]
  have once : signals (past ++ [transition]) = signals past := by
    rw [signals_append, unsignalled, Nat.add_zero]
  cases phase with
  | serving => exact ⟨trace.trans traced.1, once.trans traced.2⟩
  | draining startedAt pass =>
    exact ⟨trace.trans traced.1, once.trans traced.2.1, traced.2.2.append _⟩
  | releasing startedAt drained pass =>
    obtain ⟨requests, first, drains, accounted⟩ := traced
    exact ⟨trace.trans requests, once.trans first, drains.append _, accounted.append _⟩
  | exited code =>
    refine ⟨traced.1.imp trace.trans trace.trans, fun zero => ?_⟩
    obtain ⟨first, drains, closers⟩ := traced.2 zero
    exact ⟨once.trans first, drains.append _, closers.append _⟩

theorem traced_phaseStep {transition : ShutdownTransition} {input : Input} {phase : Phase}
    {result : List Effect × Phase} (traced : Traced options past phase)
    (moved : PhaseStep options now input phase result) (made : transition.input = input)
    (asked : transition.output = result.1) :
    Traced options (past ++ [transition]) result.2 := by
  have trace : requested (past ++ [transition]) = requested past ++ result.1 := by
    rw [requested_append, requested_singleton, asked]
  have unsignalled {due : Nat} {task : Task} {slot : Slot} {value : Bool}
      (settles : Settles now due task slot value input) :
      signals (past ++ [transition]) = signals past := by
    rw [signals_append, signals_singleton_of_settles (made ▸ settles), Nat.add_zero]
  cases moved with
  | begins =>
    have once : signals (past ++ [transition]) = 1 := by
      rw [signals_append, traced.2]
      simp [signals, made, Input.isSignal]
    exact traced_continueDraining once (.start _) (by rw [trace, traced.1, List.nil_append])
  | again going =>
    cases phase with
    | serving => exact absurd rfl going
    | exited code => exact absurd rfl going
    | draining startedAt pass => exact ⟨.inl (by rw [trace, traced.1]; rfl), nofun⟩
    | releasing startedAt drained pass => exact ⟨.inr (by rw [trace, traced.1]; rfl), nofun⟩
  | drains found settles =>
    obtain ⟨requests, once, accounted⟩ := traced
    exact traced_continueDraining ((unsignalled settles).trans once)
      (accounted.set found (made ▸ settles)) (by rw [trace, requests])
  | releases found settles =>
    obtain ⟨requests, once, drains, accounted⟩ := traced
    exact traced_continueReleasing ((unsignalled settles).trans once) (drains.append _)
      (accounted.set found (made ▸ settles)) (by rw [trace, requests])

theorem traced_invariant (options : ShutdownOptions) (late start : Nat) :
    HistoryInvariant (step options late) (initial start) fun past state =>
      Traced options past state.phase where
  init := ⟨rfl, rfl⟩
  preserved := by
    intro past transition traced performed
    obtain ⟨ticks, -, quiet, after⟩ | ⟨-, moved⟩ := step_cases performed
    · have same : transition.after.phase = transition.before.phase := by rw [after]
      rw [same]
      exact traced_of_quiet traced quiet (by simp [signals, ticks, Input.isSignal])
    · exact traced_phaseStep traced moved rfl rfl

theorem not_close_of_conclude (clean : Bool) (index : Nat) :
    .close index ∉ (conclude clean).1 := by
  simp [conclude]

theorem releasing_of_release {index : Nat}
    (closes : .close index ∈ (release options now startedAt drained).1) :
    ∃ pass, (release options now startedAt drained).2 = .releasing startedAt drained pass := by
  simp only [release] at closes ⊢
  split at closes
  · exact absurd closes (not_close_of_conclude _ index)
  · rename_i several
    split at closes
    · exact absurd closes (not_close_of_conclude _ index)
    · rename_i enough
      rw [if_neg several, if_neg enough]
      exact ⟨_, rfl⟩

theorem releasing_of_continueDraining {index : Nat}
    (closes : .close index ∈ (continueDraining options now startedAt pass).1) :
    ∃ drained next, (continueDraining options now startedAt pass).2 =
      .releasing startedAt drained next := by
  simp only [continueDraining] at closes ⊢
  split at closes
  · rename_i settled
    rw [if_pos settled]
    exact ⟨_, releasing_of_release closes⟩
  · cases closes

/-- The closers are begun where the drains have all settled. -/
theorem releasing_of_close {input : Input} {phase : Phase} {result : List Effect × Phase}
    {index : Nat} (moved : PhaseStep options now input phase result)
    (closes : .close index ∈ result.1) :
    ∃ startedAt drained pass, result.2 = .releasing startedAt drained pass := by
  cases moved with
  | begins =>
    obtain drains | closes := List.mem_append.mp closes
    · simp only [drainEffects, List.mem_append, List.mem_map, reduceCtorEq, and_false,
        exists_false, or_false] at drains
      split at drains <;> simp at drains
    · exact ⟨_, releasing_of_continueDraining closes⟩
  | again => exact absurd closes (not_close_of_conclude _ index)
  | drains => exact ⟨_, releasing_of_continueDraining closes⟩
  | releases =>
    simp only [continueReleasing] at closes
    split at closes
    · exact absurd closes (not_close_of_conclude _ index)
    · cases closes

end Tracing

/-- A closer is begun only after every drain has settled; at the exit everything has been asked
once and in order, and a clean exit takes one signal, and all drains and closers to settle well. -/
theorem clean_exit_accounts_for_work (options : ShutdownOptions) (late start : Nat)
    (inputs : List Input) :
    (∀ earlier transition later,
      history (step options late) (initial start) inputs = earlier ++ transition :: later →
        ∀ index, .close index ∈ transition.output →
          ∃ clean, AllSettled (earlier ++ [transition]) .drain (drainWorks options) clean) ∧
      ∀ code, (final (step options late) (initial start) inputs).phase = .exited code →
        (requested (history (step options late) (initial start) inputs) =
            drainEffects options ++ [.exit code] ∨
          requested (history (step options late) (initial start) inputs) =
            drainEffects options ++ closerEffects options ++ [.exit code]) ∧
        (code = 0 → signals (history (step options late) (initial start) inputs) = 1 ∧
          AllSettled (history (step options late) (initial start) inputs) .drain
            (drainWorks options) true ∧
          AllSettled (history (step options late) (initial start) inputs) .closer
            (closerWorks options) true) := by
  have invariant := traced_invariant options late start
  constructor
  · intro earlier transition later located index closes
    obtain ⟨traced, performed⟩ := invariant.holds_before located
    have afterwards := invariant.preserved earlier transition traced performed
    obtain ⟨-, -, quiet, -⟩ | ⟨-, moved⟩ := step_cases performed
    · rw [quiet] at closes
      cases closes
    · obtain ⟨startedAt, drained, pass, releasing⟩ := releasing_of_close moved closes
      have phase : transition.after.phase = .releasing startedAt drained pass := releasing
      rw [phase] at afterwards
      exact ⟨drained, afterwards.2.2.1⟩
  · intro code exited
    have traced := invariant.holds_final inputs
    rw [exited] at traced
    exact traced

end Ancore.Relayer.Shutdown
