import Ancore.Library.Outline
import Ancore.Payouts.Workers

/-! # What a batch remembers

A run that starts on the checkpoint of its batch submits none of the rows that settled
before.  The storage has room for one checkpoint, however, and a run of another batch
takes it: where a batch with settled rows then starts again, it submits them again
(`settled_row_resubmitted`).  Where no batch does, nothing is paid twice, in whatever
order the runs, their workers and their interruptions come (`pays_once`).
-/

namespace Ancore.Payouts

open Ancore.Library Ancore.Library.EcmaScript

/-- The steps of a run of the system, the latest first. -/
abbrev Past : Type := List (Transition World Event Observation)

/-- What the run that goes on has adopted and settled. -/
def settledSince : Past → List BulkPayoutExecution
  | [] => []
  | transition :: earlier =>
    match transition.output with
    | .started adopted => adopted
    | .settled _ execution => execution :: settledSince earlier
    | _ => settledSince earlier

/-- The id of the row that is checkpointed under an id. -/
def Observation.settledUnder (batchId : String) : Observation → Option String
  | settled (some other) execution => if other = batchId then some execution.row.id else none
  | _ => none

/-- The ids of the rows that were checkpointed under an id. -/
def settledUnder (batchId : String) (past : Past) : List String :=
  past.filterMap fun transition => transition.output.settledUnder batchId

/-- A row is submitted that was checkpointed for its batch. -/
def resubmits (transition : Transition World Event Observation) (earlier : Past) : Bool :=
  match transition.output with
  | .submitted (some batchId) row => (settledUnder batchId earlier).contains row.id
  | _ => false

/-! ## Which runs are well -/

/-- The limit is a number, and no row has the name of a property that every object has. -/
def Execution.Fit (execution : Execution) : Prop :=
  execution.limit ≠ .nan ∧ ∀ row ∈ execution.batch.rows, row.id ∉ objectPrototype

/-- Where a row of the batch was checkpointed before, the storage holds the batch's checkpoint. -/
def Execution.FindsCheckpoint (execution : Execution) (storage : CheckpointStorage)
    (past : Past) : Prop :=
  ∀ batchId ∈ checkpointed execution.batch.batchId, settledUnder batchId past ≠ [] →
    ∃ checkpoint ∈ storage, checkpoint.Of batchId

/-- A run that starts is fit, and finds its checkpoint. -/
def Steady (transition : Transition World Event Observation) (earlier : Past) : Prop :=
  match transition.input with
  | .execute execution =>
    execution.Fit ∧ execution.FindsCheckpoint transition.before.storage earlier
  | _ => True

instance (execution : Execution) : Decidable execution.Fit := inferInstanceAs (Decidable (_ ∧ _))

instance (execution : Execution) (storage : CheckpointStorage) (past : Past) :
    Decidable (execution.FindsCheckpoint storage past) :=
  inferInstanceAs (Decidable (∀ _ ∈ _, _))

instance (transition : Transition World Event Observation) (earlier : Past) :
    Decidable (Steady transition earlier) :=
  match same : transition.input with
  | .execute _ => decidable_of_iff (_ ∧ _) (by rw [Steady, same])
  | .take _ | .settle _ _ | .finish | .cutOff => isTrue (by rw [Steady, same]; trivial)

/-! ## One step -/

section Steps

variable {world next : World} {observation : Observation} {worker : Nat} {outcome : Outcome}

theorem step_execute_eq_some {execution : Execution}
    (stepped : step (.execute execution) world = some (observation, next)) :
    world.running = none ∧
      observation = .started
        (execution.batch.rows.filterMap (readCheckpoint world.storage execution.batch.batchId).of) ∧
      next = { world with running := some (Run.start world.storage execution) } := by
  simp only [step, World.execute] at stepped
  split at stepped
  · cases stepped
  · cases stepped
    exact ⟨‹_›, rfl, rfl⟩

theorem step_take_eq_some (stepped : step (.take worker) world = some (observation, next)) :
    ∃ run run', world.running = some run ∧ run.take worker = some (observation, run') ∧
      next = { world with running := some run' } := by
  simp only [step, Option.bind_eq_bind, Option.bind_eq_some_iff, Option.pure_def,
    Option.some.injEq, Prod.exists, Prod.mk.injEq] at stepped
  obtain ⟨run, going, _, run', taken, rfl, rfl⟩ := stepped
  exact ⟨run, run', going, taken, rfl⟩

theorem step_settle_eq_some
    (stepped : step (.settle worker outcome) world = some (observation, next)) :
    ∃ run run', world.running = some run ∧
      run.settle worker outcome = some (observation, run') ∧
      next = { storage := writeCheckpoint world.storage run'.execution.batch.batchId run'.entries
               running := some run' } := by
  simp only [step, Option.bind_eq_bind, Option.bind_eq_some_iff, Option.pure_def,
    Option.some.injEq, Prod.exists, Prod.mk.injEq] at stepped
  obtain ⟨run, going, _, run', settles, rfl, rfl⟩ := stepped
  exact ⟨run, run', going, settles, rfl⟩

theorem step_finish_eq_some (stepped : step .finish world = some (observation, next)) :
    ∃ run, world.running = some run ∧ run.pool.allStopped ∧ observation = .finished run.summary ∧
      next = { world with running := none } := by
  simp only [step, Option.bind_eq_bind, Option.bind_eq_some_iff, Option.pure_def] at stepped
  obtain ⟨run, going, stepped⟩ := stepped
  split at stepped
  · cases stepped
    exact ⟨run, going, ‹_›, rfl, rfl⟩
  · cases stepped

theorem step_cutOff_eq_some (stepped : step .cutOff world = some (observation, next)) :
    observation = .ended ∧ next = { world with running := none } := by
  simp only [step, Option.bind_eq_bind, Option.bind_eq_some_iff, Option.pure_def,
    Option.some.injEq, Prod.mk.injEq] at stepped
  obtain ⟨_, _, rfl, rfl⟩ := stepped
  exact ⟨rfl, rfl⟩

/-- Only a run that returns has a summary. -/
theorem eq_finish_of_finished {event : Event} {summary : BulkPayoutExecutionSummary}
    (stepped : step event world = some (.finished summary, next)) : event = .finish := by
  cases event with
  | execute execution =>
    obtain ⟨-, impossible, -⟩ := step_execute_eq_some stepped
    cases impossible
  | take worker =>
    obtain ⟨run, run', -, taken, -⟩ := step_take_eq_some stepped
    obtain ⟨_, _, impossible, _⟩ | ⟨_, _, _, _, _, impossible, _⟩ := take_eq_some taken
    · cases impossible
    · cases impossible
  | settle worker outcome =>
    obtain ⟨run, run', -, settles, -⟩ := step_settle_eq_some stepped
    obtain ⟨_, _, _, _, _, impossible, _⟩ := settle_eq_some settles
    cases impossible
  | finish => rfl
  | cutOff =>
    obtain ⟨impossible, -⟩ := step_cutOff_eq_some stepped
    cases impossible

end Steps

/-! ## What is remembered -/

/-- The checkpoint in the storage, and the entries of the run that goes on, have every row that was
checkpointed for their batch. -/
structure Accounted (past : Past) (world : World) : Prop where
  stored : ∀ checkpoint ∈ world.storage, ∀ batchId, checkpoint.Of batchId →
    ∀ id ∈ settledUnder batchId past, checkpoint.entries.lookup id ≠ none
  running : ∀ run ∈ world.running, run.Coherent (settledSince past) ∧ run.execution.Fit ∧
    ∀ batchId ∈ checkpointed run.execution.batch.batchId,
      ∀ id ∈ settledUnder batchId past, run.entries.lookup id ≠ none

section Accounted

variable {past : Past} {world next : World} {observation : Observation} {worker : Nat}
  {outcome : Outcome}

theorem settledUnder_of_none {batchId : String} {transition : Transition World Event Observation}
    (silent : transition.output.settledUnder batchId = none) :
    settledUnder batchId (transition :: past) = settledUnder batchId past :=
  List.filterMap_cons_none silent

theorem mem_settledUnder_cons {batchId id : String} {execution : BulkPayoutExecution}
    {transition : Transition World Event Observation}
    (settles : transition.output = .settled (some batchId) execution) :
    id ∈ settledUnder batchId (transition :: past) ↔
      id = execution.row.id ∨ id ∈ settledUnder batchId past := by
  have found : transition.output.settledUnder batchId = some execution.row.id := by
    rw [settles]
    exact if_pos rfl
  have cons : settledUnder batchId (transition :: past) =
      execution.row.id :: settledUnder batchId past := List.filterMap_cons_some found
  rw [cons, List.mem_cons]

theorem Accounted.initial (storage : CheckpointStorage) : Accounted [] ⟨storage, none⟩ :=
  ⟨fun _ _ _ _ _ => nofun, nofun⟩

theorem readCheckpoint_eq {storage : CheckpointStorage} {batchId : Option String}
    {checkpoint : BulkPayoutCheckpoint} {id : String} (stored : checkpoint ∈ storage)
    (known : id ∈ checkpointed batchId) (same : checkpoint.Of id) :
    readCheckpoint storage batchId = checkpoint.entries := by
  rw [Option.mem_def] at stored known
  unfold readCheckpoint
  rw [stored, known]
  exact if_pos same

theorem Accounted.execute {execution : Execution} (accounted : Accounted past world)
    (steady : execution.Fit ∧ execution.FindsCheckpoint world.storage past)
    (stepped : step (.execute execution) world = some (observation, next)) :
    Accounted (⟨.execute execution, world, observation, next⟩ :: past) next := by
  obtain ⟨-, rfl, rfl⟩ := step_execute_eq_some stepped
  refine ⟨accounted.stored, ?_⟩
  rintro _ ⟨⟩
  refine ⟨.start world.storage execution, steady.1, fun batchId known id before => ?_⟩
  -- the batch finds its own checkpoint, which has what was checkpointed for it
  obtain ⟨checkpoint, stored, same⟩ := steady.2 batchId known (List.ne_nil_of_mem before)
  have entries : (Run.start world.storage execution).entries = checkpoint.entries :=
    readCheckpoint_eq stored known same
  rw [entries]
  exact accounted.stored checkpoint stored batchId same id before

theorem Accounted.take (accounted : Accounted past world)
    (stepped : step (.take worker) world = some (observation, next)) :
    Accounted (⟨.take worker, world, observation, next⟩ :: past) next := by
  obtain ⟨run, run', going, taken, rfl⟩ := step_take_eq_some stepped
  obtain ⟨coherent, fit, remembered⟩ := accounted.running run going
  have kept := coherent.take taken
  obtain ⟨pool, -, rfl, rfl⟩ | ⟨index, row, pool, -, -, rfl, rfl⟩ := take_eq_some taken
  · refine ⟨accounted.stored, ?_⟩
    rintro _ ⟨⟩
    exact ⟨kept, fit, remembered⟩
  · refine ⟨accounted.stored, ?_⟩
    rintro _ ⟨⟩
    exact ⟨kept, fit, remembered⟩

theorem Accounted.settle (accounted : Accounted past world)
    (stepped : step (.settle worker outcome) world = some (observation, next)) :
    Accounted (⟨.settle worker outcome, world, observation, next⟩ :: past) next := by
  obtain ⟨run, run', going, settles, rfl⟩ := step_settle_eq_some stepped
  obtain ⟨coherent, fit, remembered⟩ := accounted.running run going
  obtain ⟨execution, rfl, kept⟩ := coherent.settle settles
  obtain ⟨index, row, pool, -, -, same, rfl⟩ := settle_eq_some settles
  cases same
  have entered {batchId : String} (known : batchId ∈ checkpointed run.execution.batch.batchId)
      {id : String} (before : id = row.id ∨ id ∈ settledUnder batchId past) :
      (run.entries.insert row.id outcome.entry).lookup id ≠ none := by
    rw [Record.lookup_insert_eq]
    split
    · nofun
    · exact remembered batchId known id (before.resolve_left ‹_›)
  cases checkpoints : checkpointed run.execution.batch.batchId with
  | none =>
    refine ⟨fun checkpoint stored batchId same id before => ?_, ?_⟩
    · rw [settledUnder_of_none (by rfl)] at before
      rw [writeCheckpoint, checkpoints] at stored
      exact accounted.stored checkpoint stored batchId same id before
    · rintro _ ⟨⟩
      refine ⟨kept, fit, fun batchId known => ?_⟩
      rw [Option.mem_def, checkpoints] at known
      cases known
  | some own =>
    refine ⟨fun checkpoint stored batchId same id before => ?_, ?_⟩
    · rw [writeCheckpoint, checkpoints] at stored
      cases stored
      obtain ⟨-, rfl⟩ := same
      exact entered checkpoints ((mem_settledUnder_cons rfl).mp before)
    · rintro _ ⟨⟩
      refine ⟨kept, fit, fun batchId known id before => ?_⟩
      rw [Option.mem_def, checkpoints] at known
      cases known
      exact entered checkpoints ((mem_settledUnder_cons rfl).mp before)

theorem Accounted.idle (accounted : Accounted past world) {event : Event}
    (silent : ∀ batchId, observation.settledUnder batchId = none) :
    Accounted (⟨event, world, observation, { world with running := none }⟩ :: past)
      { world with running := none } := by
  refine ⟨fun checkpoint stored batchId same id before => ?_, nofun⟩
  rw [settledUnder_of_none (silent batchId)] at before
  exact accounted.stored checkpoint stored batchId same id before

/-- One step keeps the account, where a run that starts is steady. -/
theorem accounted_of_step {transition : Transition World Event Observation}
    (performed : transition.Performed step) (steady : Steady transition past)
    (accounted : Accounted past transition.before) :
    Accounted (transition :: past) transition.after := by
  obtain ⟨event, world, observation, next⟩ := transition
  change step event world = some (observation, next) at performed
  change Accounted past world at accounted
  cases event with
  | execute execution => exact accounted.execute steady performed
  | take worker => exact accounted.take performed
  | settle worker outcome => exact accounted.settle performed
  | finish =>
    obtain ⟨run, -, -, rfl, rfl⟩ := step_finish_eq_some performed
    exact accounted.idle fun _ => rfl
  | cutOff =>
    obtain ⟨rfl, rfl⟩ := step_cutOff_eq_some performed
    exact accounted.idle fun _ => rfl

end Accounted

/-! ## What a step keeps to -/

/-- The steps that the run that goes on has left, its return among them. -/
def World.stepsLeft (world : World) : Nat :=
  match world.running with
  | none => 0
  | some run => run.pool.remaining + 1

/-- The event starts a run or cuts it off. -/
def Event.fromOutside : Event → Bool
  | execute _ => true
  | cutOff => true
  | _ => false

/-- No checkpointed row is submitted, no more rows are in flight than the limit allows, a run that
returns has settled every row once and returns what it settled in the order of the rows, and
a run goes on, if only when a submission settles, until it returns after a known number of steps. -/
structure PaysOnce (transition : Transition World Event Observation) (earlier : Past) : Prop where
  submits : resubmits transition earlier = false
  inFlight : ∀ run ∈ transition.after.running,
    Number.AtMost (.finite run.pool.inHand.length) (Number.max 1 run.execution.limit)
  returns : ∀ summary, transition.output = .finished summary →
    ∃ run ∈ transition.before.running,
      (settledSince earlier).Perm summary.results ∧
        summary.results.map BulkPayoutExecution.row = run.rows ∧
        summary.successful + summary.failed = summary.total ∧ summary.total = run.rows.length
  goesOn : ∀ run ∈ transition.after.running,
    (step .finish transition.after).isSome ∨
      ∃ worker, (step (.take worker) transition.after).isSome ∨
        ∀ outcome, (step (.settle worker outcome) transition.after).isSome
  ends : transition.input.fromOutside = false →
    transition.after.stepsLeft + 1 = transition.before.stepsLeft

section PaysOnce

variable {past : Past} {world next : World} {observation : Observation} {worker : Nat}
  {outcome : Outcome} {transition : Transition World Event Observation}

/-- What a run that goes on can do. -/
theorem goesOn_of_accounted (accounted : Accounted past world) :
    ∀ run ∈ world.running, (step .finish world).isSome ∨
      ∃ worker, (step (.take worker) world).isSome ∨
        ∀ outcome, (step (.settle worker outcome) world).isSome := by
  intro run going
  rw [Option.mem_def] at going
  by_cases stopped : run.pool.allStopped
  · left
    simp [step, going, stopped]
  · right
    obtain ⟨worker, steps⟩ := (accounted.running run going).1.exists_step stopped
    refine ⟨worker, ?_⟩
    cases steps with
    | inl takes =>
      left
      obtain ⟨result, taken⟩ := Option.isSome_iff_exists.mp takes
      simp [step, going, taken]
    | inr settles =>
      right
      intro outcome
      obtain ⟨result, settled⟩ := Option.isSome_iff_exists.mp (settles outcome)
      simp [step, going, settled]

theorem resubmits_of_accounted (accounted : Accounted past transition.before)
    (performed : transition.Performed step) : resubmits transition past = false := by
  obtain ⟨event, world, observation, next⟩ := transition
  change step event world = some (observation, next) at performed
  cases event with
  | execute execution =>
    obtain ⟨-, rfl, -⟩ := step_execute_eq_some performed
    rfl
  | take worker =>
    obtain ⟨run, run', going, taken, -⟩ := step_take_eq_some performed
    obtain ⟨coherent, -, remembered⟩ := accounted.running run going
    obtain ⟨_, _, rfl, _⟩ | ⟨_, row, _, _, _, rfl, _⟩ := take_eq_some taken
    · rfl
    · have missing := coherent.unrecorded taken
      unfold resubmits
      dsimp only
      cases known : checkpointed run.execution.batch.batchId with
      | none => rfl
      | some batchId =>
        have absent : row.id ∉ settledUnder batchId past := fun before =>
          remembered batchId known row.id before missing
        dsimp only
        rw [List.contains_eq_mem, decide_eq_false absent]
  | settle worker outcome =>
    obtain ⟨run, run', -, settles, -⟩ := step_settle_eq_some performed
    obtain ⟨_, _, _, _, _, rfl, _⟩ := settle_eq_some settles
    rfl
  | finish =>
    obtain ⟨_, _, _, rfl, _⟩ := step_finish_eq_some performed
    rfl
  | cutOff =>
    obtain ⟨rfl, -⟩ := step_cutOff_eq_some performed
    rfl

theorem stepsLeft_of_step (accounted : Accounted past transition.before)
    (performed : transition.Performed step)
    (own : transition.input.fromOutside = false) :
    transition.after.stepsLeft + 1 = transition.before.stepsLeft := by
  obtain ⟨event, world, observation, next⟩ := transition
  change step event world = some (observation, next) at performed
  cases event with
  | execute execution => cases own
  | take worker =>
    obtain ⟨run, run', going, taken, rfl⟩ := step_take_eq_some performed
    have fewer := remaining_take taken
    simp only [World.stepsLeft, going]
    omega
  | settle worker outcome =>
    obtain ⟨run, run', going, settles, rfl⟩ := step_settle_eq_some performed
    have fewer := remaining_settle settles
    simp only [World.stepsLeft, going]
    omega
  | finish =>
    obtain ⟨run, going, stopped, -, rfl⟩ := step_finish_eq_some performed
    obtain ⟨coherent, fit, -⟩ := accounted.running run going
    have nothing := coherent.remaining_eq_zero stopped fit.1
    simp only [World.stepsLeft, going]
    omega
  | cutOff => cases own

theorem returns_of_accounted (accounted : Accounted past transition.before)
    (performed : transition.Performed step) {summary : BulkPayoutExecutionSummary}
    (finished : transition.output = .finished summary) :
    ∃ run ∈ transition.before.running,
      (settledSince past).Perm summary.results ∧
        summary.results.map BulkPayoutExecution.row = run.rows ∧
        summary.successful + summary.failed = summary.total ∧
        summary.total = run.rows.length := by
  obtain ⟨event, world, observation, next⟩ := transition
  change step event world = some (observation, next) at performed
  dsimp only at finished
  subst finished
  cases eq_finish_of_finished performed
  obtain ⟨run, going, stopped, same, -⟩ := step_finish_eq_some performed
  cases same
  obtain ⟨coherent, fit, -⟩ := accounted.running run going
  obtain ⟨settled, rows, sum⟩ := coherent.finished stopped fit.1 fit.2
  exact ⟨run, going, settled, rows, sum, rfl⟩

theorem paysOnce_of_accounted (accounted : Accounted past transition.before)
    (performed : transition.Performed step)
    (kept : Accounted (transition :: past) transition.after) : PaysOnce transition past where
  submits := resubmits_of_accounted accounted performed
  inFlight run going := by
    obtain ⟨coherent, fit, -⟩ := kept.running run going
    exact coherent.inFlight fit.1
  returns _ finished := returns_of_accounted accounted performed finished
  goesOn := goesOn_of_accounted kept
  ends own := stepsLeft_of_step accounted performed own

end PaysOnce

/-- Where every run that starts is fit and finds the checkpoint of a batch that has settled rows, no
row is paid twice. -/
theorem pays_once {storage : CheckpointStorage} {events : List Event}
    (steady : Historically Steady (history step ⟨storage, none⟩ events).reverse) :
    Historically PaysOnce (history step ⟨storage, none⟩ events).reverse := by
  have invariant : HistoryInvariant step ⟨storage, none⟩ fun past world =>
      Historically Steady past.reverse →
        Accounted past.reverse world ∧ Historically PaysOnce past.reverse := by
    constructor
    · intro _
      exact ⟨.initial storage, trivial⟩
    · intro past transition before performed steady
      rw [List.reverse_append, List.reverse_singleton, List.singleton_append] at steady ⊢
      obtain ⟨accounted, paid⟩ := before steady.2
      have kept := accounted_of_step performed steady.1 accounted
      exact ⟨kept, paysOnce_of_accounted accounted performed kept, paid⟩
  exact (invariant.holds_final events steady).2

/-! ## Two batches -/

/-- The row of a line that pays an amount. -/
def plainRow (lineNumber : Nat) (amount : String) : BulkPayoutRow :=
  createRow lineNumber "GAAAAAAAAAAAAAAAAAAAAAAAAAAAAAAAAAAAAAAAAAAAAAAAAAAAAWHF" amount none []

/-- Two rows under one id. -/
def twoPayouts : Execution where
  batch := ⟨[plainRow 2 "1", plainRow 3 "1"], some "2:first", by decide⟩
  concurrency := none

def onePayout : Execution where
  batch := ⟨[plainRow 2 "7"], some "1:second", by decide⟩
  concurrency := none

/-- The first row settles, and the run is cut off; the second row is left to the next run. -/
def interrupted : List Event :=
  [.execute twoPayouts, .take 0, .take 1, .settle 0 .fulfilled, .take 0, .cutOff,
    .execute twoPayouts, .take 0, .take 1, .settle 0 .fulfilled, .take 0, .finish]

theorem pays_once_of_interrupted :
    Historically PaysOnce (history step ⟨none, none⟩ interrupted).reverse :=
  pays_once (by decide +kernel)

/-- A run of another batch takes the place of the checkpoint. -/
def alternating : List Event :=
  [.execute twoPayouts, .take 0, .take 1, .settle 0 .fulfilled, .take 0, .cutOff,
    .execute onePayout, .take 0, .settle 0 .fulfilled, .take 0, .finish,
    .execute twoPayouts, .take 0]

theorem settled_row_resubmitted :
    ¬Historically (fun transition earlier => resubmits transition earlier = false)
      (history step ⟨none, none⟩ alternating).reverse := by
  decide +kernel

end Ancore.Payouts
