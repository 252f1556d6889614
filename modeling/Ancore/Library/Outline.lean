import Ancore.Library.Interleaving

/-! # Outlines of interleaved programs

An outline says once what a program can do: from which stage it makes which call
and, by the answer, at which stage it goes on.  That a program follows an outline
is a fact about the program alone.  `invariant_of_outline` is the rule for a run
of workers that follow one: an assertion at each stage that the worker's own call
carries to its next stage, and that the calls of the others leave true, holds
throughout, together with the invariant these calls keep.

What a run owes is often owed only under conditions on its calls; such a
condition may look at the calls made before (`Historically`).
-/

namespace Ancore.Library

/-! ## Logs, the latest entry first -/

section Logs

variable {α : Type} {holds weak : α → List α → Prop}

/-- Every entry of the log stands to the entries before it as stated. -/
def Historically (holds : α → List α → Prop) : List α → Prop
  | [] => True
  | entry :: earlier => holds entry earlier ∧ Historically holds earlier

instance historicallyDecidable [∀ entry earlier, Decidable (holds entry earlier)] :
    (log : List α) → Decidable (Historically holds log)
  | [] => isTrue trivial
  | _ :: earlier =>
    have : Decidable (Historically holds earlier) := historicallyDecidable earlier
    inferInstanceAs (Decidable (_ ∧ _))

theorem Historically.mono {log : List α} (history : Historically holds log)
    (weaker : ∀ entry earlier, holds entry earlier → weak entry earlier) :
    Historically weak log := by
  induction log with
  | nil => trivial
  | cons entry earlier inductionHypothesis =>
    exact ⟨weaker _ _ history.1, inductionHypothesis history.2⟩

theorem historically_and {also : α → List α → Prop} {log : List α}
    (history : Historically holds log) (further : Historically also log) :
    Historically (fun entry earlier => holds entry earlier ∧ also entry earlier) log := by
  induction log with
  | nil => trivial
  | cons entry earlier inductionHypothesis =>
    exact ⟨⟨history.1, further.1⟩, inductionHypothesis history.2 further.2⟩

/-- The place of an entry in the log. -/
theorem historically_iff {log : List α} :
    Historically holds log ↔
      ∀ later entry earlier, log = later ++ entry :: earlier → holds entry earlier := by
  induction log with
  | nil => simp [Historically]
  | cons first log inductionHypothesis =>
    rw [Historically, inductionHypothesis]
    constructor
    · rintro ⟨current, past⟩ later entry earlier located
      cases later with
      | nil =>
        obtain ⟨rfl, rfl⟩ := List.cons.inj located
        exact current
      | cons _ later => exact past later entry earlier (List.cons.inj located).2
    · intro everywhere
      exact ⟨everywhere [] first log rfl, fun later entry earlier located =>
        everywhere (first :: later) entry earlier (by rw [located, List.cons_append])⟩

theorem historically_of_forall {log : List α}
    (all : ∀ entry ∈ log, ∀ earlier, holds entry earlier) :
    Historically holds log :=
  historically_iff.mpr fun later entry earlier located =>
    all entry (located ▸ List.mem_append_right later List.mem_cons_self) earlier

/-- Where the log is known to be as stated, two statements that then agree agree throughout. -/
theorem historically_congr {known : α → List α → Prop} {log : List α}
    (history : Historically known log)
    (agree : ∀ entry earlier, known entry earlier → (holds entry earlier ↔ weak entry earlier)) :
    Historically holds log ↔ Historically weak log := by
  induction log with
  | nil => exact Iff.rfl
  | cons entry earlier inductionHypothesis =>
    exact and_congr (agree _ _ history.1) (inductionHypothesis history.2)

theorem historically_filterMap {β : Type} {holds : β → List β → Prop} (view : α → Option β)
    (log : List α) :
    Historically holds (log.filterMap view) ↔
      Historically (fun entry earlier =>
        ∀ viewed ∈ view entry, holds viewed (earlier.filterMap view)) log := by
  induction log with
  | nil => exact Iff.rfl
  | cons entry earlier inductionHypothesis =>
    cases viewed : view entry with
    | none =>
      rw [List.filterMap_cons_none viewed, inductionHypothesis]
      simp [Historically, viewed]
    | some value =>
      rw [List.filterMap_cons_some viewed]
      simp only [Historically, viewed, inductionHypothesis, Option.mem_def, Option.some.injEq,
        forall_eq']

/-- Numbers, the latest first, that count up from a start. -/
theorem historically_counts_iff {log : List Nat} {start : Nat} :
    Historically (fun number earlier => number = start + earlier.length) log ↔
      ∀ k number, log.reverse[k]? = some number → number = start + k := by
  induction log with
  | nil => simp [Historically]
  | cons first log inductionHypothesis =>
    rw [Historically, inductionHypothesis, List.reverse_cons]
    constructor
    · rintro ⟨current, past⟩ k number found
      obtain before | same | beyond := lt_trichotomy k log.reverse.length
      · exact past k number (by rwa [List.getElem?_append_left before] at found)
      · subst same
        simp only [List.getElem?_concat_length, Option.some.injEq] at found
        rw [← found, current, List.length_reverse]
      · rw [List.getElem?_eq_none (by simpa using beyond)] at found
        cases found
    · intro counts
      refine ⟨counts log.length first ?_, fun k number found => counts k number ?_⟩
      · rw [← List.length_reverse, List.getElem?_concat_length]
      · obtain ⟨before, -⟩ := List.getElem?_eq_some_iff.mp found
        rwa [List.getElem?_append_left before]

/-- Numbers that count up do not repeat. -/
theorem nodup_of_counts {log : List Nat} {start : Nat}
    (counts : Historically (fun number earlier => number = start + earlier.length) log) :
    log.Nodup ∧ ∀ number ∈ log, number < start + log.length := by
  induction log with
  | nil => exact ⟨List.nodup_nil, fun _ member => absurd member List.not_mem_nil⟩
  | cons first log inductionHypothesis =>
    obtain ⟨nodup, below⟩ := inductionHypothesis counts.2
    have current : first = start + log.length := counts.1
    refine ⟨List.nodup_cons.mpr ⟨fun member => ?_, nodup⟩, ?_⟩
    · exact absurd (below first member) (by omega)
    · rintro number (_ | member)
      · simp only [List.length_cons]
        omega
      · have := below number ‹_›
        simp only [List.length_cons]
        omega

end Logs

/-! ## Outlines -/

variable {Worker Task Call Circumstance State Stage : Type} {Answer : Call → Type} {α β : Type}

/-- From a stage, a call and its answer, the stage to go on from. -/
abbrev Outline (Stage : Type) {Call : Type} (Answer : Call → Type) : Type :=
  Stage → (request : Call) → Answer request → Stage → Prop

namespace Program

variable {next : Outline Stage Answer}

/-- The calls of the program are those of the outline, and it ends at a stage as stated. -/
def Follows (next : Outline Stage Answer) (ends : α → Stage → Prop) :
    Program Answer α → Stage → Prop
  | .done result, stage => ends result stage
  | .call request resume, stage => ∀ answer, ∃ onward, next stage request answer onward ∧
      (resume answer).Follows next ends onward

theorem Follows.mono {strong weak : α → Stage → Prop} {program : Program Answer α} {stage : Stage}
    (follows : program.Follows next strong stage)
    (weaker : ∀ result stage, strong result stage → weak result stage) :
    program.Follows next weak stage := by
  induction program generalizing stage with
  | done result => exact weaker result stage follows
  | call request resume inductionHypothesis =>
    intro answer
    obtain ⟨onward, made, rest⟩ := follows answer
    exact ⟨onward, made, inductionHypothesis answer rest⟩

theorem Follows.outline_mono {next' : Outline Stage Answer} {ends : α → Stage → Prop}
    {program : Program Answer α} {stage : Stage} (follows : program.Follows next ends stage)
    (wider : ∀ stage request answer onward, next stage request answer onward →
      next' stage request answer onward) :
    program.Follows next' ends stage := by
  induction program generalizing stage with
  | done result => exact follows
  | call request resume inductionHypothesis =>
    intro answer
    obtain ⟨onward, made, rest⟩ := follows answer
    exact ⟨onward, wider _ _ _ _ made, inductionHypothesis answer rest⟩

theorem Follows.bind {program : Program Answer α} {rest : α → Program Answer β}
    {ends : β → Stage → Prop} {stage : Stage}
    (follows : program.Follows next (fun result => (rest result).Follows next ends) stage) :
    (program >>= rest).Follows next ends stage := by
  induction program generalizing stage with
  | done result => exact follows
  | call request resume inductionHypothesis =>
    intro answer
    obtain ⟨onward, made, later⟩ := follows answer
    exact ⟨onward, made, inductionHypothesis answer later⟩

end Program

/-! ### Programs that may reject -/

section Rejecting

variable {ε : Type} {next : Outline Stage Answer} {returns : α → Stage → Prop}
  {rejects : Stage → Prop} {stage : Stage}

/-- The stages at which the code returns, and at which it rejects. -/
def Ends (returns : α → Stage → Prop) (rejects : Stage → Prop) : Except ε α → Stage → Prop
  | .ok value => returns value
  | .error _ => rejects

/-- The code follows the outline to where it returns or rejects. -/
def Tracks (next : Outline Stage Answer) (returns : α → Stage → Prop) (rejects : Stage → Prop)
    (code : ExceptT ε (Program Answer) α) (stage : Stage) : Prop :=
  Program.Follows next (Ends returns rejects) code.run stage

theorem Tracks.pure {value : α} (returned : returns value stage) :
    Tracks next returns rejects (pure value : ExceptT ε (Program Answer) α) stage :=
  returned

theorem Tracks.bind {returns' : β → Stage → Prop} {code : ExceptT ε (Program Answer) α}
    {rest : α → ExceptT ε (Program Answer) β} (first : Tracks next returns rejects code stage)
    (second : ∀ value stage, returns value stage →
      Tracks next returns' rejects (rest value) stage) :
    Tracks next returns' rejects (code >>= rest) stage := by
  refine Program.Follows.bind (first.mono ?_)
  intro result stage ended
  cases result with
  | ok value => exact second value stage ended
  | error _ => exact ended

theorem Tracks.mono {weakReturns : α → Stage → Prop} {weakRejects : Stage → Prop}
    {code : ExceptT ε (Program Answer) α} (tracks : Tracks next returns rejects code stage)
    (returned : ∀ value stage, returns value stage → weakReturns value stage)
    (rejected : ∀ stage, rejects stage → weakRejects stage) :
    Tracks next weakReturns weakRejects code stage := by
  refine Program.Follows.mono tracks ?_
  intro result stage ended
  cases result with
  | ok value => exact returned value stage ended
  | error _ => exact rejected stage ended

/-- A program that rejects nothing, among code that may. -/
theorem Tracks.lift {program : Program Answer α}
    (follows : program.Follows next returns stage) :
    Tracks next returns rejects (ExceptT.lift program : ExceptT ε (Program Answer) α) stage :=
  Program.Follows.bind (follows.mono fun _ _ ended => ended)

/-- A rejection that is caught becomes a value. -/
theorem Tracks.observe {between : Stage → Prop} {code : ExceptT ε (Program Answer) α}
    (tracks : Tracks next (fun _ => between) between code stage) :
    Tracks next (fun _ => between) rejects
      (ExceptT.lift code.run : ExceptT ε (Program Answer) (Except ε α)) stage := by
  refine Program.Follows.bind (Program.Follows.mono tracks ?_)
  intro result stage ended
  cases result with
  | ok _ => exact ended
  | error _ => exact ended

end Rejecting

/-! ### Programs over some of the calls -/

section Sums

variable {Further : Type} {AnswerFurther : Further → Type}

/-- The program among programs that make further calls. -/
def Program.left : Program Answer α → Program (Sum.elim Answer AnswerFurther) α
  | .done result => .done result
  | .call request resume => .call (.inl request) fun answer => (resume answer).left

/-- The outline of such a program. -/
def Outline.left (next : Outline Stage Answer) : Outline Stage (Sum.elim Answer AnswerFurther)
  | stage, .inl request, answer, onward => next stage request answer onward
  | _, .inr _, _, _ => False

theorem Program.Follows.left {next : Outline Stage Answer} {ends : α → Stage → Prop}
    {program : Program Answer α} {stage : Stage} (follows : program.Follows next ends stage) :
    (program.left : Program (Sum.elim Answer AnswerFurther) α).Follows next.left ends stage := by
  induction program generalizing stage with
  | done result => exact follows
  | call request resume inductionHypothesis =>
    intro answer
    obtain ⟨onward, made, rest⟩ := follows answer
    exact ⟨onward, made, inductionHypothesis answer rest⟩

end Sums

/-! ## What the calls of each worker come to -/

section Attribution

variable {perform : Worker → (request : Call) → Circumstance → State → Answer request × State}
  {worker other : Worker} {request : Call} {circumstance : Circumstance}
  {world : World Worker Circumstance State Answer}

/-- What a view sees in the calls, each with the worker that made it, the latest first. -/
def attributed (view : Exchange Worker Circumstance State Answer → Option β)
    (exchanges : List (Exchange Worker Circumstance State Answer)) : List (Worker × β) :=
  exchanges.filterMap fun exchange => (view exchange).map (Prod.mk exchange.worker)

variable {view : Exchange Worker Circumstance State Answer → Option β} {value : β}

theorem map_snd_attributed (exchanges : List (Exchange Worker Circumstance State Answer)) :
    (attributed view exchanges).map Prod.snd = exchanges.filterMap view := by
  simp [attributed, List.map_filterMap, Option.map_map, Function.comp_def]

theorem attributed_after_of_none
    (unseen : view (world.exchange perform worker request circumstance) = none) :
    attributed view (world.after perform worker request circumstance).exchanges =
      attributed view world.exchanges :=
  List.filterMap_cons_none (by rw [unseen, Option.map_none])

theorem attributed_after_of_some
    (seen : view (world.exchange perform worker request circumstance) = some value) :
    attributed view (world.after perform worker request circumstance).exchanges =
      (worker, value) :: attributed view world.exchanges :=
  List.filterMap_cons_some (by rw [seen, Option.map_some]; rfl)

/-- A call leaves what those of another worker come to. -/
theorem mem_attributed_after_of_ne (different : other ≠ worker) :
    (other, value) ∈ attributed view (world.after perform worker request circumstance).exchanges ↔
      (other, value) ∈ attributed view world.exchanges := by
  cases seen : view (world.exchange perform worker request circumstance) with
  | none => rw [attributed_after_of_none seen]
  | some value' =>
    rw [attributed_after_of_some seen, List.mem_cons]
    exact ⟨fun member => member.resolve_left fun same => different (congrArg Prod.fst same), .inr⟩

/-- What the calls of a worker came to latest, they came to at one of them. -/
theorem exists_of_lookup_attributed [DecidableEq Worker]
    {exchanges : List (Exchange Worker Circumstance State Answer)}
    (found : (attributed view exchanges).lookup worker = some value) :
    ∃ exchange ∈ exchanges, view exchange = some value := by
  obtain ⟨later, earlier, located, -⟩ := List.lookup_eq_some_iff.mp found
  have member : (worker, value) ∈ attributed view exchanges :=
    located ▸ List.mem_append_right later List.mem_cons_self
  obtain ⟨exchange, made, seen⟩ := List.mem_filterMap.mp member
  obtain ⟨_, viewed, same⟩ := Option.map_eq_some_iff.mp seen
  cases same
  exact ⟨exchange, made, viewed⟩

theorem lookup_attributed_after_of_ne [DecidableEq Worker] (different : other ≠ worker) :
    (attributed view (world.after perform worker request circumstance).exchanges).lookup other =
      (attributed view world.exchanges).lookup other := by
  cases seen : view (world.exchange perform worker request circumstance) with
  | none => rw [attributed_after_of_none seen]
  | some _ => rw [attributed_after_of_some seen, List.lookup_cons, beq_false_of_ne different]

end Attribution

/-! ## Runs -/

section Runs

variable {perform : Worker → (request : Call) → Circumstance → State → Answer request × State}
  {next : Outline Stage Answer} {rests : Stage → Prop}
  {condition : Exchange Worker Circumstance State Answer →
    List (Exchange Worker Circumstance State Answer) → Prop}
  {invariant : World Worker Circumstance State Answer → Prop}
  {holds : Worker → Stage → World Worker Circumstance State Answer → Prop}
  [DecidableEq Worker] {program : Task → Program Answer Unit}

/-- Every worker is at a stage of the outline whose assertion holds. -/
def System.InStep (next : Outline Stage Answer) (rests : Stage → Prop)
    (holds : Worker → Stage → World Worker Circumstance State Answer → Prop)
    (system : System Worker Circumstance State Answer) : Prop :=
  ∀ worker, ∃ stage, (system.programs worker).Follows next (fun _ => rests) stage ∧
    holds worker stage system.world

/-- What a call of the outline has to keep: the invariant, the assertion of its worker from one
stage to the next, and those of the others. -/
def OutlineStep (perform : Worker → (request : Call) → Circumstance → State →
      Answer request × State)
    (next : Outline Stage Answer)
    (condition : Exchange Worker Circumstance State Answer →
      List (Exchange Worker Circumstance State Answer) → Prop)
    (invariant : World Worker Circumstance State Answer → Prop)
    (holds : Worker → Stage → World Worker Circumstance State Answer → Prop) : Prop :=
  ∀ ⦃worker stage request circumstance onward world⦄, invariant world →
    holds worker stage world →
    next stage request (perform worker request circumstance world.state).1 onward →
    condition (world.exchange perform worker request circumstance) world.exchanges →
      invariant (world.after perform worker request circumstance) ∧
        holds worker onward (world.after perform worker request circumstance) ∧
        ∀ other, other ≠ worker → ∀ stage, holds other stage world →
          holds other stage (world.after perform worker request circumstance)

/-- A turn keeps the invariant and every worker in step. -/
theorem inStep_of_turn
    (tasks : ∀ task stage, rests stage → (program task).Follows next (fun _ => rests) stage)
    (step : OutlineStep perform next condition invariant holds)
    {turn : Turn Worker Task Circumstance} {before after : System Worker Circumstance State Answer}
    (taken : takeTurn perform program turn before = some ((), after))
    (met : Historically condition after.world.exchanges)
    (current : Historically condition before.world.exchanges →
      invariant before.world ∧ before.InStep next rests holds) :
    invariant after.world ∧ after.InStep next rests holds := by
  cases turn with
  | start worker task =>
    cases atWorker : before.programs worker with
    | done result =>
      simp only [takeTurn, atWorker, Option.some.injEq, Prod.mk.injEq, true_and] at taken
      subst taken
      obtain ⟨kept, inStep⟩ := current met
      refine ⟨kept, fun other => ?_⟩
      by_cases same : other = worker
      · subst same
        obtain ⟨stage, follows, asserted⟩ := inStep other
        rw [atWorker] at follows
        exact ⟨stage, by simpa using tasks task stage follows, asserted⟩
      · simpa [Function.update_of_ne same] using inStep other
    | call request resume => simp [takeTurn, atWorker] at taken
  | resume worker circumstance =>
    cases atWorker : before.programs worker with
    | done result => simp [takeTurn, atWorker] at taken
    | call request resume =>
      simp only [takeTurn, atWorker, Option.some.injEq, Prod.mk.injEq, true_and] at taken
      subst taken
      obtain ⟨kept, inStep⟩ := current met.2
      obtain ⟨stage, follows, asserted⟩ := inStep worker
      rw [atWorker] at follows
      obtain ⟨onward, made, rest⟩ := follows (perform worker request circumstance _).1
      obtain ⟨invariantAfter, own, others⟩ := step kept asserted made met.1
      refine ⟨invariantAfter, fun other => ?_⟩
      by_cases same : other = worker
      · subst same
        exact ⟨onward, by simpa using rest, own⟩
      · obtain ⟨stage, follows, asserted⟩ := inStep other
        exact ⟨stage, by simpa [Function.update_of_ne same] using follows,
          others other same stage asserted⟩

/-- The rule for runs of workers that follow an outline: where every call meets the condition,
the invariant holds and every worker is in step. -/
theorem invariant_of_outline
    (tasks : ∀ task stage, rests stage → (program task).Follows next (fun _ => rests) stage)
    (step : OutlineStep perform next condition invariant holds) {state : State}
    (initial : invariant { state := state, exchanges := [] })
    (idle : ∀ worker, ∃ stage, rests stage ∧ holds worker stage { state := state, exchanges := [] })
    (turns : List (Turn Worker Task Circumstance))
    (met : Historically condition (interleaved perform program state turns).world.exchanges) :
    invariant (interleaved perform program state turns).world ∧
      (interleaved perform program state turns).InStep next rests holds := by
  have run : HistoryInvariant (takeTurn perform program) (System.idle state)
      (fun _ system => Historically condition system.world.exchanges →
        invariant system.world ∧ system.InStep next rests holds) :=
    stateInvariant (fun _ => ⟨initial, idle⟩) fun transition current taken met =>
      inStep_of_turn tasks step taken met current
  exact run.holds_final turns met

end Runs

end Ancore.Library
