import Ancore.Payouts.Batches

/-! # The rows of a run

Whatever order the workers of a run go in, each row is adopted or submitted once, and
what has settled is what the entries say of the rows (`Run.Coherent`).
-/

namespace Ancore.Payouts

open Ancore.Library Ancore.Library.EcmaScript

section Entries

variable {entries : CheckpointEntries} {row other : BulkPayoutRow} {entry : CheckpointEntry}

theorem of_insert :
    CheckpointEntries.of (entries.insert row.id entry) other =
      if other.id = row.id then some (entry.execution other) else entries.of other := by
  rw [CheckpointEntries.of, Record.lookup_insert_eq]
  split
  · rfl
  · rfl

theorem of_eq_none : entries.of row = none ↔ entries.lookup row.id = none := by
  rw [CheckpointEntries.of, Option.map_eq_none_iff]

theorem of_of_recorded (unrecorded : recorded entries row = none) : entries.of row = none := by
  unfold recorded at unrecorded
  split at unrecorded
  · cases unrecorded
  · assumption

/-- Without entries no row has a status. -/
theorem status_of_recorded_empty {execution : BulkPayoutExecution}
    (found : recorded ∅ row = some execution) : execution.status = none := by
  have nothing : CheckpointEntries.of ∅ row = none := of_eq_none.mpr (AList.lookup_empty _)
  rw [recorded, nothing] at found
  dsimp only at found
  split at found
  · cases found
    rfl
  · cases found

theorem recorded_eq_of (own : row.id ∉ objectPrototype) :
    recorded entries row = entries.of row := by
  rw [recorded]
  split
  · rename_i found
    rw [found]
  · rename_i missing
    rw [if_neg own, missing]

theorem recorded_insert :
    recorded (entries.insert row.id entry) other =
      if other.id = row.id then some (entry.execution other) else recorded entries other := by
  unfold recorded
  rw [of_insert]
  by_cases same : other.id = row.id
  · rw [if_pos same, if_pos same]
  · rw [if_neg same, if_neg same]

/-- A row that is recorded adds what is recorded of it. -/
theorem perm_filterMap_insert {rows : List BulkPayoutRow}
    (distinct : (rows.map BulkPayoutRow.id).Nodup) (member : row ∈ rows)
    (missing : entries.of row = none) :
    (rows.filterMap (CheckpointEntries.of (entries.insert row.id entry))).Perm
      (entry.execution row :: rows.filterMap entries.of) := by
  induction rows with
  | nil => cases member
  | cons first rows inductionHypothesis =>
    rw [List.map_cons, List.nodup_cons] at distinct
    by_cases same : first = row
    · subst same
      -- the other rows have other ids
      have rest : rows.filterMap (CheckpointEntries.of (entries.insert first.id entry)) =
          rows.filterMap entries.of := by
        refine List.filterMap_congr fun other later => ?_
        have different : other.id ≠ first.id := fun equal =>
          distinct.1 (List.mem_map.mpr ⟨other, later, equal⟩)
        rw [of_insert, if_neg different]
      rw [List.filterMap_cons_some (of_insert.trans (if_pos rfl)), List.filterMap_cons_none missing,
        rest]
    · have inside : row ∈ rows := (List.mem_cons.mp member).resolve_left (Ne.symm same)
      have different : first.id ≠ row.id := fun equal =>
        distinct.1 (List.mem_map.mpr ⟨row, inside, equal.symm⟩)
      have later := inductionHypothesis distinct.2 inside
      rw [List.filterMap_cons, List.filterMap_cons, of_insert, if_neg different]
      cases entries.of first with
      | none => exact later
      | some execution => exact (later.cons execution).trans (List.Perm.swap ..)

end Entries

/-! ## One run -/

/-- What has settled is what the entries say, and the rows they say nothing of are those that are
pending and not put down. -/
structure Run.Coherent (run : Run) (executions : List BulkPayoutExecution) : Prop where
  settled : run.settled = run.rows.map (recorded run.entries)
  distinct : run.pool.items.Nodup
  inside : ∀ index ∈ run.pool.items, index < run.rows.length
  shared : ∃ done, run.pool.Shared done ∧ ∀ index row, run.rows[index]? = some row →
    (recorded run.entries row = none ↔ index ∈ run.pool.items ∧ index ∉ done)
  workers : run.pool.workers.length = run.execution.workers.toLength
  since : executions.Perm (run.rows.filterMap run.entries.of)

section Coherent

variable {run next : Run} {executions : List BulkPayoutExecution} {worker : Nat}
  {outcome : Outcome} {observation : Observation}

/-- A worker stops, or submits the row at the index that it takes. -/
theorem take_eq_some (taken : run.take worker = some (observation, next)) :
    (∃ pool, run.pool.take worker = some (none, pool) ∧ observation = .stopped ∧
      next = { run with pool }) ∨
    ∃ index row pool, run.pool.take worker = some (some index, pool) ∧
      run.rows[index]? = some row ∧
      observation = .submitted (checkpointed run.execution.batch.batchId) row ∧
      next = { run with pool } := by
  unfold Run.take at taken
  split at taken
  · cases taken
  · rename_i pool stopped
    cases taken
    exact Or.inl ⟨pool, stopped, rfl, rfl⟩
  · rename_i index pool found
    split at taken
    · cases taken
    · rename_i row located
      cases taken
      exact Or.inr ⟨index, row, pool, found, located, rfl, rfl⟩

/-- A submission that settles is recorded under the id of its row. -/
theorem settle_eq_some (settles : run.settle worker outcome = some (observation, next)) :
    ∃ index row pool, run.pool.release worker = some (index, pool) ∧
      run.rows[index]? = some row ∧
      observation = .settled (checkpointed run.execution.batch.batchId)
        (outcome.entry.execution row) ∧
      next = { run with
        entries := run.entries.insert row.id outcome.entry
        settled := run.settled.set index (some (outcome.entry.execution row))
        pool } := by
  unfold Run.settle at settles
  split at settles
  · cases settles
  · rename_i index pool released
    split at settles
    · cases settles
    · rename_i row located
      cases settles
      exact ⟨index, row, pool, released, located, rfl, rfl⟩

theorem Run.Coherent.start (storage : CheckpointStorage) (execution : Execution) :
    (Run.start storage execution).Coherent
      (execution.batch.rows.filterMap (readCheckpoint storage execution.batch.batchId).of) where
  settled := rfl
  distinct := List.nodup_findIdxs
  inside index member := by
    obtain ⟨bound, -⟩ := List.mem_findIdxs_iff_exists_getElem_pos.mp member
    exact bound
  shared := by
    refine ⟨[], .start _ _, fun index row located => ?_⟩
    change execution.batch.rows[index]? = some row at located
    obtain ⟨bound, rfl⟩ := List.getElem?_eq_some_iff.mp located
    have pending : index ∈ (Run.start storage execution).pool.items ↔ _ :=
      List.mem_findIdxs_iff_pos_getElem bound
    rw [pending, Option.isNone_iff_eq_none]
    simp [Run.start]
  workers := List.length_replicate
  since := .refl _

theorem Run.Coherent.take (coherent : run.Coherent executions)
    (taken : run.take worker = some (observation, next)) : next.Coherent executions := by
  obtain ⟨done, shared, unrecorded⟩ := coherent.shared
  obtain ⟨pool, stopped, -, rfl⟩ | ⟨index, row, pool, found, -, -, rfl⟩ := take_eq_some taken
  · obtain ⟨-, -, rfl⟩ := Pool.take_eq_none stopped
    exact ⟨coherent.settled, coherent.distinct, coherent.inside,
      ⟨done, shared.take_none stopped, unrecorded⟩,
      List.length_set.trans coherent.workers, coherent.since⟩
  · obtain ⟨-, -, rfl⟩ := Pool.take_eq_some found
    exact ⟨coherent.settled, coherent.distinct, coherent.inside,
      ⟨done, shared.take_item found, unrecorded⟩,
      List.length_set.trans coherent.workers, coherent.since⟩

/-- Nothing is recorded of a row that is submitted. -/
theorem Run.Coherent.unrecorded (coherent : run.Coherent executions) {batchId : Option String}
    {row : BulkPayoutRow} (taken : run.take worker = some (.submitted batchId row, next)) :
    run.entries.lookup row.id = none := by
  obtain ⟨done, shared, unrecorded⟩ := coherent.shared
  obtain ⟨_, _, impossible, -⟩ | ⟨index, other, pool, found, located, same, -⟩ := take_eq_some taken
  · cases impossible
  · cases same
    have member := List.mem_of_getElem? (Pool.take_eq_some found).2.1
    have fresh := (shared.fresh coherent.distinct found).2
    exact of_eq_none.mp (of_of_recorded ((unrecorded index row located).mpr ⟨member, fresh⟩))

theorem Run.Coherent.settle (coherent : run.Coherent executions)
    (settles : run.settle worker outcome = some (observation, next)) :
    ∃ execution, observation =
        .settled (checkpointed run.execution.batch.batchId) execution ∧
      next.Coherent (execution :: executions) := by
  obtain ⟨done, shared, unrecorded⟩ := coherent.shared
  obtain ⟨index, row, pool, released, located, rfl, rfl⟩ := settle_eq_some settles
  refine ⟨_, rfl, ?_⟩
  have ids := run.execution.batch.distinct
  have once := shared.release released
  obtain ⟨member, fresh⟩ := shared.held coherent.distinct released
  obtain ⟨busy, rfl⟩ := Pool.release_eq_some released
  have missing := (unrecorded index row located).mpr ⟨member, fresh⟩
  -- the row that settles is the only one with its id
  have only {position : Nat} {other : BulkPayoutRow} (found : run.rows[position]? = some other) :
      other.id = row.id ↔ position = index := by
    constructor
    · intro equal
      have same := List.inj_on_of_nodup_map ids (List.mem_of_getElem? found)
        (List.mem_of_getElem? located) equal
      have bound := (List.getElem?_eq_some_iff.mp found).1
      exact (List.getElem?_inj bound ids.of_map).mp (by rw [found, located, same])
    · rintro rfl
      rw [found, Option.some.injEq] at located
      rw [located]
  constructor
  · refine List.ext_getElem? fun position => ?_
    change (run.settled.set index _)[position]? = (run.rows.map _)[position]?
    rw [List.getElem?_set, coherent.settled, List.getElem?_map, List.getElem?_map, List.length_map]
    cases found : run.rows[position]? with
    | none =>
      have different : index ≠ position := by
        rintro rfl
        rw [found] at located
        cases located
      rw [if_neg different]
      rfl
    | some other =>
      have bound := (List.getElem?_eq_some_iff.mp found).1
      rw [Option.map_some, Option.map_some, recorded_insert]
      by_cases same : position = index
      · subst same
        rw [found, Option.some.injEq] at located
        rw [if_pos rfl, if_pos bound, if_pos (by rw [located]), located]
      · rw [if_neg (Ne.symm same), if_neg (mt (only found).mp same)]
  · exact coherent.distinct
  · exact coherent.inside
  · refine ⟨index :: done, once, fun position other found => ?_⟩
    change recorded (run.entries.insert row.id _) other = none ↔ position ∈ run.pool.items ∧ _
    rw [recorded_insert, List.mem_cons, not_or]
    by_cases same : position = index
    · rw [if_pos ((only found).mpr same)]
      exact iff_of_false nofun fun later => later.2.1 same
    · rw [if_neg (mt (only found).mp same), unrecorded position other found]
      exact and_congr_right fun _ => (and_iff_right same).symm
  · exact List.length_set.trans coherent.workers
  · exact (coherent.since.cons _).trans
      (perm_filterMap_insert ids (List.mem_of_getElem? located) (of_of_recorded missing)).symm

/-- There is a worker, and there are no more than the limit. -/
theorem workers_between {execution : Execution} (real : execution.limit ≠ .nan) :
    1 ≤ execution.workers.toLength ∧
      Number.AtMost (.finite execution.workers.toLength) (Number.max 1 execution.limit) :=
  Number.toLength_between real _

/-- The rows in flight are no more than the limit, where that is a number. -/
theorem Run.Coherent.inFlight (coherent : run.Coherent executions)
    (real : run.execution.limit ≠ .nan) :
    Number.AtMost (.finite run.pool.inHand.length) (Number.max 1 run.execution.limit) := by
  have held := run.pool.length_inHand_le
  rw [coherent.workers] at held
  exact (workers_between real).2.of_le held

theorem Run.Coherent.workers_ne_nil (coherent : run.Coherent executions)
    (real : run.execution.limit ≠ .nan) : run.pool.workers ≠ [] := by
  intro nobody
  have one := (workers_between real).1
  rw [← coherent.workers, nobody] at one
  cases one

/-! ## The end of a run -/

theorem row_of_recorded {entries : CheckpointEntries} {row : BulkPayoutRow}
    {execution : BulkPayoutExecution} (found : recorded entries row = some execution) :
    execution.row = row := by
  unfold recorded CheckpointEntries.of at found
  split at found
  · rename_i entered
    obtain ⟨entry, -, rfl⟩ := Option.map_eq_some_iff.mp entered
    cases found
    rfl
  · split at found
    · cases found
      rfl
    · cases found

/-- The number that failed is what is left of the results. -/
theorem successful_add_failed (run : Run) :
    run.summary.successful + run.summary.failed = run.results.length := by
  have fewer := List.length_filter_le
    (fun result : BulkPayoutExecution => result.status = some .success) run.results
  exact Nat.add_sub_cancel' fewer

theorem Run.Coherent.results_eq (coherent : run.Coherent executions) :
    run.results = run.rows.filterMap (recorded run.entries) := by
  rw [Run.results, coherent.settled, List.filterMap_map]
  rfl

/-- A run that returns has settled every row once, and returns what they settled as in their
order. -/
theorem Run.Coherent.finished (coherent : run.Coherent executions) (stopped : run.pool.allStopped)
    (real : run.execution.limit ≠ .nan) (own : ∀ row ∈ run.rows, row.id ∉ objectPrototype) :
    executions.Perm run.summary.results ∧
      run.summary.results.map BulkPayoutExecution.row = run.rows ∧
      run.summary.successful + run.summary.failed = run.summary.total := by
  obtain ⟨done, shared, unrecorded⟩ := coherent.shared
  have all := shared.finished stopped (coherent.workers_ne_nil real)
  have complete : ∀ row ∈ run.rows,
      (recorded run.entries row).map BulkPayoutExecution.row = Option.some row := by
    intro row member
    obtain ⟨index, located⟩ := List.mem_iff_getElem?.mp member
    cases found : recorded run.entries row with
    | none =>
      obtain ⟨pending, notDone⟩ := (unrecorded index row located).mp found
      exact absurd (all.mem_iff.mpr pending) notDone
    | some execution => rw [Option.map_some, row_of_recorded found]
  have rows : run.results.map BulkPayoutExecution.row = run.rows := by
    rw [coherent.results_eq, List.map_filterMap, List.filterMap_congr complete,
      List.filterMap_some]
  refine ⟨?_, rows, ?_⟩
  · have entered : run.results = run.rows.filterMap run.entries.of := by
      rw [coherent.results_eq]
      exact List.filterMap_congr fun row member => recorded_eq_of (own row member)
    change executions.Perm run.results
    rw [entered]
    exact coherent.since
  · rw [successful_add_failed, ← run.results.length_map BulkPayoutExecution.row, rows]
    rfl

/-- A run that has not returned goes on, at the latest when a submission settles. -/
theorem Run.Coherent.exists_step (coherent : run.Coherent executions)
    (going : ¬run.pool.allStopped) :
    ∃ worker, (run.take worker).isSome ∨ ∀ outcome, (run.settle worker outcome).isSome := by
  obtain ⟨done, shared, -⟩ := coherent.shared
  obtain ⟨worker, steps⟩ := Pool.exists_step going
  refine ⟨worker, ?_⟩
  cases steps with
  | inl takes =>
    left
    obtain ⟨⟨found, pool⟩, taken⟩ := Option.isSome_iff_exists.mp takes
    rw [Run.take, taken]
    cases found with
    | none => rfl
    | some index =>
      have member := List.mem_of_getElem? (Pool.take_eq_some taken).2.1
      dsimp only
      rw [List.getElem?_eq_getElem (coherent.inside index member)]
      rfl
  | inr releases =>
    right
    intro outcome
    obtain ⟨⟨index, pool⟩, released⟩ := Option.isSome_iff_exists.mp releases
    have member := (shared.held coherent.distinct released).1
    rw [Run.settle, released]
    dsimp only
    rw [List.getElem?_eq_getElem (coherent.inside index member)]
    rfl

/-! ## The steps left -/

theorem remaining_take (taken : run.take worker = some (observation, next)) :
    next.pool.remaining + 1 = run.pool.remaining := by
  obtain ⟨pool, stopped, -, rfl⟩ | ⟨index, row, pool, found, -, -, rfl⟩ := take_eq_some taken
  · exact Pool.remaining_take stopped
  · exact Pool.remaining_take found

/-- No step is left of a run that returns. -/
theorem Run.Coherent.remaining_eq_zero (coherent : run.Coherent executions)
    (stopped : run.pool.allStopped) (real : run.execution.limit ≠ .nan) :
    run.pool.remaining = 0 := by
  obtain ⟨done, shared, -⟩ := coherent.shared
  exact shared.remaining_eq_zero stopped (coherent.workers_ne_nil real)

theorem remaining_settle (settles : run.settle worker outcome = some (observation, next)) :
    next.pool.remaining + 1 = run.pool.remaining := by
  obtain ⟨index, row, pool, released, -, -, rfl⟩ := settle_eq_some settles
  exact Pool.remaining_release released

end Coherent

end Ancore.Payouts
