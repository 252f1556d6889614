import Ancore.Library.Runs

/-! # Interleaved programs over a shared state

A program is a sequence of calls, each of which is answered before the program
goes on.  Several workers run programs over one shared state; a call is atomic
and anything may happen between two calls of a worker.  What a call answers may
depend on circumstances the state does not decide (a clock, a fault, another
service).

`Program.wp` is the rely/guarantee reading of a program: it says that every call
keeps a guarantee and that the result meets a postcondition, whatever the other
workers do between the calls within their own guarantees.  `wp_of_run` is the
rule for a whole run: workers whose programs are right one by one, each under the
interference of the others, are right together.
-/

namespace Ancore.Library

open Relation (ReflTransGen)

/-- A sequential program over calls, with its result. -/
inductive Program {Call : Type} (Answer : Call → Type) (α : Type) : Type where
  | done (result : α)
  | call (request : Call) (resume : Answer request → Program Answer α)

section Programs

variable {Call : Type} {Answer : Call → Type} {α β : Type}

namespace Program

def bind : Program Answer α → (α → Program Answer β) → Program Answer β
  | .done result, next => next result
  | .call request resume, next => .call request fun answer => (resume answer).bind next

instance : Monad (Program Answer) where
  pure := .done
  bind := Program.bind

theorem pure_eq (result : α) : (pure result : Program Answer α) = .done result := rfl

theorem bind_done (result : α) (next : α → Program Answer β) :
    (Program.done result >>= next) = next result := rfl

theorem bind_call (request : Call) (resume : Answer request → Program Answer α)
    (next : α → Program Answer β) :
    (Program.call request resume >>= next) = .call request fun answer => resume answer >>= next :=
  rfl

/-- The result where every call is answered in one way. -/
def resultWith (answers : (request : Call) → Answer request) : Program Answer α → α
  | .done result => result
  | .call request resume => (resume (answers request)).resultWith answers

end Program

end Programs

/-! ## Systems of workers -/

variable {Worker Task Call Circumstance State : Type} {Answer : Call → Type}

/-- A call that was made, with the state it found, its circumstances and its answer. -/
structure Exchange (Worker Circumstance State : Type) {Call : Type} (Answer : Call → Type) where
  worker : Worker
  found : State
  request : Call
  circumstance : Circumstance
  answer : Answer request

/-- The shared state and the calls made so far, latest first. -/
structure World (Worker Circumstance State : Type) {Call : Type} (Answer : Call → Type) where
  state : State
  exchanges : List (Exchange Worker Circumstance State Answer)

/-- The world together with what every worker has still to do. -/
structure System (Worker Circumstance State : Type) {Call : Type} (Answer : Call → Type) where
  world : World Worker Circumstance State Answer
  programs : Worker → Program Answer Unit

/-- Whose turn it is: an idle worker starts a task, or a busy one makes its next call. -/
inductive Turn (Worker Task Circumstance : Type) where
  | start (worker : Worker) (task : Task)
  | resume (worker : Worker) (circumstance : Circumstance)

section Semantics

variable (perform : Worker → (request : Call) → Circumstance → State → Answer request × State)

/-- The exchange a call makes. -/
def World.exchange (world : World Worker Circumstance State Answer) (worker : Worker)
    (request : Call) (circumstance : Circumstance) :
    Exchange Worker Circumstance State Answer where
  worker := worker
  found := world.state
  request := request
  circumstance := circumstance
  answer := (perform worker request circumstance world.state).1

/-- The world after a call. -/
def World.after (world : World Worker Circumstance State Answer) (worker : Worker)
    (request : Call) (circumstance : Circumstance) :
    World Worker Circumstance State Answer where
  state := (perform worker request circumstance world.state).2
  exchanges := world.exchange perform worker request circumstance :: world.exchanges

variable [DecidableEq Worker] (program : Task → Program Answer Unit)

/-- One turn of one worker; a turn the worker cannot take changes nothing. -/
def takeTurn : Turn Worker Task Circumstance → System Worker Circumstance State Answer →
    Option (Unit × System Worker Circumstance State Answer)
  | .start worker task, system =>
    match system.programs worker with
    | .done () => some ((), { system with
        programs := Function.update system.programs worker (program task) })
    | .call _ _ => none
  | .resume worker circumstance, system =>
    match system.programs worker with
    | .done () => none
    | .call request resume => some ((),
        { world := system.world.after perform worker request circumstance
          programs := Function.update system.programs worker
            (resume (perform worker request circumstance system.world.state).1) })

/-- The system with every worker idle. -/
def System.idle (state : State) : System Worker Circumstance State Answer where
  world := { state := state, exchanges := [] }
  programs := fun _ => .done ()

/-- The system after a sequence of turns. -/
def interleaved (state : State) (turns : List (Turn Worker Task Circumstance)) :
    System Worker Circumstance State Answer :=
  final (takeTurn perform program) (.idle state) turns

variable {perform program}

/-- A turn leaves the world, or makes one call. -/
theorem world_of_turn {turn : Turn Worker Task Circumstance}
    {before after : System Worker Circumstance State Answer}
    (taken : takeTurn perform program turn before = some ((), after)) :
    after.world = before.world ∨
      ∃ worker request circumstance,
        after.world = before.world.after perform worker request circumstance := by
  cases turn with
  | start worker task =>
    cases atWorker : before.programs worker with
    | done result =>
      simp only [takeTurn, atWorker, Option.some.injEq, Prod.mk.injEq, true_and] at taken
      subst taken
      exact .inl rfl
    | call request resume => simp [takeTurn, atWorker] at taken
  | resume worker circumstance =>
    cases atWorker : before.programs worker with
    | done result => simp [takeTurn, atWorker] at taken
    | call request resume =>
      simp only [takeTurn, atWorker, Option.some.injEq, Prod.mk.injEq, true_and] at taken
      subst taken
      exact .inr ⟨worker, request, circumstance, rfl⟩

/-- The calls made before a turn are still there after it. -/
theorem exchanges_of_turn {turn : Turn Worker Task Circumstance}
    {before after : System Worker Circumstance State Answer}
    (taken : takeTurn perform program turn before = some ((), after)) :
    before.world.exchanges ⊆ after.world.exchanges := by
  obtain same | ⟨worker, request, circumstance, made⟩ := world_of_turn taken
  · rw [same]
    exact List.Subset.refl _
  · rw [made]
    exact List.subset_cons_self ..

/-- From any point of a run to a later one the world changes as its calls change it. -/
theorem related_of_run {allowed : Exchange Worker Circumstance State Answer → Prop}
    {related : World Worker Circumstance State Answer → World Worker Circumstance State Answer →
      Prop}
    (refl : ∀ world, related world world)
    (trans : ∀ first second third, related first second → related second third →
      related first third)
    (step : ∀ world worker request circumstance,
      allowed (world.exchange perform worker request circumstance) →
        related world (world.after perform worker request circumstance))
    (state : State) (turns later : List (Turn Worker Task Circumstance))
    (permitted : ∀ exchange ∈ (interleaved perform program state (turns ++ later)).world.exchanges,
      allowed exchange) :
    related (interleaved perform program state turns).world
      (interleaved perform program state (turns ++ later)).world := by
  have run : HistoryInvariant (takeTurn perform program) (interleaved perform program state turns)
      (fun _ system => (∀ exchange ∈ system.world.exchanges, allowed exchange) →
        related (interleaved perform program state turns).world system.world) := by
    refine stateInvariant (fun _ => refl _) ?_
    rintro ⟨turn, before, _, after⟩ current taken permitted
    have sofar := current fun exchange member =>
      permitted exchange (exchanges_of_turn taken member)
    obtain same | ⟨worker, request, circumstance, made⟩ := world_of_turn taken
    · rw [same]
      exact sofar
    · rw [made] at permitted ⊢
      exact trans _ _ _ sofar (step _ _ _ _ (permitted _ List.mem_cons_self))
  unfold interleaved at permitted ⊢
  rw [final_append] at permitted ⊢
  exact run.holds_final later permitted

end Semantics

/-! ## Rely and guarantee -/

section RelyGuarantee

variable (perform : Worker → (request : Call) → Circumstance → State → Answer request × State)
  (allowed : Exchange Worker Circumstance State Answer → Prop)
  (guarantee : Worker → World Worker Circumstance State Answer →
    World Worker Circumstance State Answer → Prop)

/-- What the other workers may do between two calls of a worker. -/
def Interference (worker : Worker) (before after : World Worker Circumstance State Answer) :
    Prop :=
  ReflTransGen (fun before after => ∃ other, other ≠ worker ∧ guarantee other before after)
    before after

/-- An assertion the other workers cannot falsify. -/
def Stable (worker : Worker) (holds : World Worker Circumstance State Answer → Prop) : Prop :=
  ∀ ⦃other before after⦄, other ≠ worker → guarantee other before after →
    holds before → holds after

variable {guarantee} in
theorem Stable.of_interference {worker : Worker}
    {holds : World Worker Circumstance State Answer → Prop}
    (stable : Stable guarantee worker holds)
    {before after : World Worker Circumstance State Answer}
    (interference : Interference guarantee worker before after) (current : holds before) :
    holds after := by
  induction interference with
  | refl => exact current
  | tail _ one inductionHypothesis =>
    obtain ⟨other, different, guaranteed⟩ := one
    exact stable different guaranteed inductionHypothesis

/-- Every call keeps the guarantee and the result meets the postcondition, as long as the calls
made are allowed ones. -/
def Program.wp {α : Type} (worker : Worker)
    (post : α → World Worker Circumstance State Answer → Prop) :
    Program Answer α → World Worker Circumstance State Answer → Prop
  | .done result, world => ∀ later, Interference guarantee worker world later → post result later
  | .call request resume, world => ∀ later, Interference guarantee worker world later →
      ∀ circumstance, allowed (later.exchange perform worker request circumstance) →
        guarantee worker later (later.after perform worker request circumstance) ∧
          (resume (perform worker request circumstance later.state).1).wp worker post
            (later.after perform worker request circumstance)

variable {perform allowed guarantee} {α β ε : Type} {worker : Worker}
  {world later : World Worker Circumstance State Answer}

namespace Program

theorem wp_of_interference {post : α → World Worker Circumstance State Answer → Prop}
    {program : Program Answer α} (right : program.wp perform allowed guarantee worker post world)
    (interference : Interference guarantee worker world later) :
    program.wp perform allowed guarantee worker post later := by
  cases program with
  | done result => exact fun last further => right last (interference.trans further)
  | call request resume => exact fun last further => right last (interference.trans further)

theorem wp_done {post : α → World Worker Circumstance State Answer → Prop} {result : α}
    (stable : Stable guarantee worker (post result)) (current : post result world) :
    (Program.done result : Program Answer α).wp perform allowed guarantee worker post world :=
  fun _ interference => stable.of_interference interference current

theorem wp_mono {weak strong : α → World Worker Circumstance State Answer → Prop}
    {program : Program Answer α}
    (right : program.wp perform allowed guarantee worker strong world)
    (weaker : ∀ result world, strong result world → weak result world) :
    program.wp perform allowed guarantee worker weak world := by
  induction program generalizing world with
  | done result => exact fun later interference => weaker _ _ (right later interference)
  | call request resume inductionHypothesis =>
    intro later interference circumstance permitted
    obtain ⟨guaranteed, rest⟩ := right later interference circumstance permitted
    exact ⟨guaranteed, inductionHypothesis _ rest⟩

theorem wp_bind {post : β → World Worker Circumstance State Answer → Prop}
    {program : Program Answer α} {next : α → Program Answer β}
    (right : program.wp perform allowed guarantee worker
      (fun result world => (next result).wp perform allowed guarantee worker post world) world) :
    (program >>= next).wp perform allowed guarantee worker post world := by
  induction program generalizing world with
  | done result => exact right world .refl
  | call request resume inductionHypothesis =>
    intro later interference circumstance permitted
    obtain ⟨guaranteed, rest⟩ := right later interference circumstance permitted
    exact ⟨guaranteed, inductionHypothesis _ rest⟩

/-- The rule for a call: what holds before it, whatever the others do, leads to what holds
after it. -/
theorem wp_call {post : α → World Worker Circumstance State Answer → Prop} {request : Call}
    {resume : Answer request → Program Answer α}
    {holds : World Worker Circumstance State Answer → Prop}
    (stable : Stable guarantee worker holds) (current : holds world)
    (next : ∀ later circumstance, holds later →
      allowed (later.exchange perform worker request circumstance) →
        guarantee worker later (later.after perform worker request circumstance) ∧
          (resume (perform worker request circumstance later.state).1).wp perform allowed
            guarantee worker post (later.after perform worker request circumstance)) :
    (Program.call request resume).wp perform allowed guarantee worker post world :=
  fun later interference circumstance permitted =>
    next later circumstance (stable.of_interference interference current) permitted

end Program

/-! ### Guarantees owed until something is lost -/

/-- The guarantee is owed until `lost` holds, and what is lost stays lost. -/
def Until (lost : World Worker Circumstance State Answer → Prop)
    (guarantee : Worker → World Worker Circumstance State Answer →
      World Worker Circumstance State Answer → Prop)
    (worker : Worker) (before after : World Worker Circumstance State Answer) : Prop :=
  (lost before → lost after) ∧ (lost after ∨ guarantee worker before after)

variable {lost : World Worker Circumstance State Answer → Prop}

theorem lost_of_interference
    (interference : Interference (Until lost guarantee) worker world later)
    (already : lost world) : lost later := by
  induction interference with
  | refl => exact already
  | tail _ one inductionHypothesis =>
    obtain ⟨_, _, stays, _⟩ := one
    exact stays inductionHypothesis

theorem Stable.orLost {holds : World Worker Circumstance State Answer → Prop}
    (stable : Stable guarantee worker holds) :
    Stable (Until lost guarantee) worker fun world => lost world ∨ holds world := by
  rintro other before after different ⟨stays, nowLost | guaranteed⟩ (already | current)
  · exact .inl nowLost
  · exact .inl nowLost
  · exact .inl (stays already)
  · exact .inr (stable different guaranteed current)

namespace Program

/-- Once it is lost every program is right. -/
theorem wp_of_lost {post : α → World Worker Circumstance State Answer → Prop}
    (stays : ∀ request circumstance world, lost world →
      lost (world.after perform worker request circumstance))
    (loses : ∀ result world, lost world → post result world) (program : Program Answer α)
    (already : lost world) :
    program.wp perform allowed (Until lost guarantee) worker post world := by
  induction program generalizing world with
  | done result =>
    exact fun later interference => loses result later (lost_of_interference interference already)
  | call request resume inductionHypothesis =>
    intro later interference circumstance _
    have still := stays request circumstance later (lost_of_interference interference already)
    exact ⟨⟨fun _ => still, .inl still⟩, inductionHypothesis _ still⟩

/-- The rule for a call that may lose it. -/
theorem wp_call_until {post : α → World Worker Circumstance State Answer → Prop} {request : Call}
    {resume : Answer request → Program Answer α}
    {holds : World Worker Circumstance State Answer → Prop}
    (stays : ∀ request circumstance world, lost world →
      lost (world.after perform worker request circumstance))
    (loses : ∀ result world, lost world → post result world)
    (stable : Stable guarantee worker holds) (current : lost world ∨ holds world)
    (next : ∀ later circumstance, holds later →
      allowed (later.exchange perform worker request circumstance) →
        lost (later.after perform worker request circumstance) ∨
          guarantee worker later (later.after perform worker request circumstance) ∧
            (resume (perform worker request circumstance later.state).1).wp perform allowed
              (Until lost guarantee) worker post
              (later.after perform worker request circumstance)) :
    (Program.call request resume).wp perform allowed (Until lost guarantee) worker post world := by
  refine wp_call stable.orLost current ?_
  rintro later circumstance (already | holding) permitted
  · have still := stays request circumstance later already
    exact ⟨⟨fun _ => still, .inl still⟩, wp_of_lost stays loses _ still⟩
  · obtain nowLost | ⟨guaranteed, rest⟩ := next later circumstance holding permitted
    · exact ⟨⟨fun _ => nowLost, .inl nowLost⟩, wp_of_lost stays loses _ nowLost⟩
    · exact ⟨⟨stays request circumstance later, .inr guaranteed⟩, rest⟩

end Program

/-! ### Runs -/

variable [DecidableEq Worker] {program : Task → Program Answer Unit}
  {invariant : World Worker Circumstance State Answer → Prop}
  {rest : Worker → World Worker Circumstance State Answer → Prop}

/-- What every worker has still to do is right where it stands. -/
def System.Right (perform : Worker → (request : Call) → Circumstance → State →
      Answer request × State)
    (allowed : Exchange Worker Circumstance State Answer → Prop)
    (guarantee : Worker → World Worker Circumstance State Answer →
      World Worker Circumstance State Answer → Prop)
    (rest : Worker → World Worker Circumstance State Answer → Prop)
    (system : System Worker Circumstance State Answer) : Prop :=
  ∀ worker, (system.programs worker).wp perform allowed guarantee worker
    (fun _ => rest worker) system.world

/-- A turn keeps every worker right: the one whose turn it is by its own program, the others
because the guarantee of the turn is interference to them. -/
theorem right_of_turn
    (tasks : ∀ worker task world, rest worker world →
      (program task).wp perform allowed guarantee worker (fun _ => rest worker) world)
    {turn : Turn Worker Task Circumstance} {before after : System Worker Circumstance State Answer}
    (taken : takeTurn perform program turn before = some ((), after))
    (permitted : ∀ exchange ∈ after.world.exchanges, allowed exchange)
    (right : before.Right perform allowed guarantee rest) :
    after.Right perform allowed guarantee rest ∧
      (after.world = before.world ∨
        ∃ worker, guarantee worker before.world after.world) := by
  cases turn with
  | start worker task =>
    cases atWorker : before.programs worker with
    | done result =>
      simp only [takeTurn, atWorker, Option.some.injEq, Prod.mk.injEq, true_and] at taken
      subst taken
      refine ⟨fun other => ?_, .inl rfl⟩
      by_cases same : other = worker
      · subst same
        have idle := right other
        rw [atWorker] at idle
        simpa using tasks other task before.world (idle _ .refl)
      · simpa [Function.update_of_ne same] using right other
    | call request resume => simp [takeTurn, atWorker] at taken
  | resume worker circumstance =>
    cases atWorker : before.programs worker with
    | done result => simp [takeTurn, atWorker] at taken
    | call request resume =>
      simp only [takeTurn, atWorker, Option.some.injEq, Prod.mk.injEq, true_and] at taken
      subst taken
      have called := right worker
      rw [atWorker] at called
      obtain ⟨guaranteed, next⟩ :=
        called _ .refl circumstance (permitted _ (List.mem_cons_self ..))
      refine ⟨fun other => ?_, .inr ⟨worker, guaranteed⟩⟩
      by_cases same : other = worker
      · subst same
        simpa using next
      · simpa [Function.update_of_ne same] using
          Program.wp_of_interference (right other)
            (.single ⟨worker, Ne.symm same, guaranteed⟩)

/-- The rule for runs: tasks that are right under interference keep the invariant in every
run that makes allowed calls only. -/
theorem invariant_of_run
    (tasks : ∀ worker task world, rest worker world →
      (program task).wp perform allowed guarantee worker (fun _ => rest worker) world)
    (kept : ∀ worker before after, guarantee worker before after → invariant before →
      invariant after)
    (resting : ∀ worker, Stable guarantee worker (rest worker))
    {state : State} (initial : invariant { state := state, exchanges := [] })
    (idle : ∀ worker, rest worker { state := state, exchanges := [] })
    (turns : List (Turn Worker Task Circumstance))
    (permitted : ∀ exchange ∈ (interleaved perform program state turns).world.exchanges,
      allowed exchange) :
    invariant (interleaved perform program state turns).world := by
  have run : HistoryInvariant (takeTurn perform program) (System.idle state)
      (fun _ system => (∀ exchange ∈ system.world.exchanges, allowed exchange) →
        invariant system.world ∧ system.Right perform allowed guarantee rest) := by
    refine stateInvariant (fun _ => ⟨initial, fun worker => ?_⟩) ?_
    · exact Program.wp_done (resting worker) (idle worker)
    · rintro ⟨turn, before, _, after⟩ current taken permitted
      have earlier := current fun exchange member =>
        permitted exchange (exchanges_of_turn taken member)
      obtain ⟨right, same | ⟨worker, guaranteed⟩⟩ := right_of_turn tasks taken permitted earlier.2
      · exact ⟨same ▸ earlier.1, right⟩
      · exact ⟨kept worker _ _ guaranteed earlier.1, right⟩
  exact (run.holds_final turns permitted).1

end RelyGuarantee

end Ancore.Library
