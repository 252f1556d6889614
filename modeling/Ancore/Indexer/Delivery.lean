import Ancore.Library.Cursor
import Ancore.Indexer.Worker

/-! # What the worker hands on

The worker over the in-memory stores and a source that honours its contract, run
until the source has nothing more.  The checkpoint is a ledger number while a
batch is cut by the number of its events, so a batch that ends inside a ledger
leaves the rest of that ledger behind the checkpoint.
-/

namespace Ancore.Indexer

open Ancore.Library

/-- `MemoryCheckpointStore`, `MemorySink` and `MemoryDeadLetterStore`. -/
structure MemoryStores where
  checkpoints : String → Option Nat
  events : List CanonicalEvent
  records : List DeadLetterRecord

def memoryCheckpointStore : CheckpointStore MemoryStores where
  load stream state :=
    (.ok ((state.checkpoints stream).map fun seq => { stream := stream, lastLedgerSeq := seq }),
      state)
  save checkpoint state :=
    (.ok (), { state with
      checkpoints :=
        Function.update state.checkpoints checkpoint.stream (some checkpoint.lastLedgerSeq) })

def memorySink : EventSink MemoryStores where
  persist events state := (.ok (), { state with events := state.events ++ events })

def memoryDeadLetterStore : DeadLetterStore MemoryStores where
  persistFailures records state := (.ok (), { state with records := state.records ++ records })

/-- The source that honours its contract on a stream: the first `limit` events of the stream after
a ledger. -/
def streamSource {σ : Type} (stream : List RawEvent) : EventSource σ :=
  steadySource fun afterLedger limit => (behind RawEvent.ledgerSeq afterLedger stream).take limit

/-- `IngestWorker::new` -/
def memoryWorker (config : WorkerConfig) (stream : List RawEvent) : IngestWorker MemoryStores where
  config := config
  checkpoint := memoryCheckpointStore
  source := streamSource stream
  sink := memorySink
  deadLetters := memoryDeadLetterStore

/-- Call the worker until it fetches nothing.  Every call has a clock of its own. -/
def runUntilEmpty (worker : IngestWorker MemoryStores) (decodeTopic : String → String)
    (clock : Nat → Nat → Timestamp) : Nat → MemoryStores → Option MemoryStores
  | 0, _ => none
  | fuel + 1, state =>
    match runOnce worker decodeTopic (clock fuel) state with
    | (.ok stats, after) =>
      if stats.fetched = 0 then some after
      else runUntilEmpty worker decodeTopic clock fuel after
    | (.error _, _) => none

/-- The events the stores were given. -/
def MemoryStores.handed (state : MemoryStores) : List RawEvent :=
  state.events.map CanonicalEvent.raw ++ state.records.map DeadLetterRecord.raw

/-- The ledger of the checkpoint, zero without one. -/
def MemoryStores.position (state : MemoryStores) (stream : String) : Nat :=
  (state.checkpoints stream).getD 0

section Run

variable {config : WorkerConfig} {decodeTopic : String → String} {clock : Nat → Timestamp}
  {stream batch : List RawEvent} {state : MemoryStores} {fuel lastSeq : Nat}

variable (config decodeTopic) in
/-- Every event the loop keeps ends up on one of its two lists. -/
theorem collected_perm (kept : List RawEvent) :
    ((kept.filterMap (accepted decodeTopic)).map CanonicalEvent.raw ++
      (kept.filterMap (rejected decodeTopic config.stream)).map DeadLetterRecord.raw).Perm
      kept := by
  induction kept with
  | nil => exact .nil
  | cons raw kept inductionHypothesis =>
    cases normalised : normalise decodeTopic raw with
    | ok event =>
      have isAccepted : accepted decodeTopic raw = some event := by
        simp [accepted, normalised, Except.toOption]
      have notRejected : rejected decodeTopic config.stream raw = none := by
        simp [rejected, normalised]
      rw [List.filterMap_cons_some isAccepted, List.filterMap_cons_none notRejected, List.map_cons,
        raw_of_accepted isAccepted]
      exact inductionHypothesis.cons raw
    | error error =>
      have notAccepted : accepted decodeTopic raw = none := by
        simp [accepted, normalised, Except.toOption]
      obtain ⟨record, isRejected⟩ :
          ∃ record, rejected decodeTopic config.stream raw = some record := by
        simp [rejected, normalised]
      rw [List.filterMap_cons_none notAccepted, List.filterMap_cons_some isRejected, List.map_cons,
        (raw_of_rejected isRejected).1]
      exact List.perm_middle.trans (inductionHypothesis.cons raw)

theorem timeless_raw (records : List DeadLetterRecord) :
    (records.map DeadLetterRecord.timeless).map DeadLetterRecord.raw =
      records.map DeadLetterRecord.raw := by
  rw [List.map_map]
  rfl

/-- The writes of a batch; writing nothing and not writing are the same here. -/
theorem commit_memory (collected : Batch) :
    commit (memoryWorker config stream) lastSeq collected state =
      (.ok (), {
        checkpoints :=
          if lastSeq < collected.maxLedger then
            Function.update state.checkpoints config.stream (some collected.maxLedger)
          else state.checkpoints
        events := state.events ++ collected.canonical
        records := state.records ++ collected.failures }) := by
  have deadLetters : Attempt.when (collected.failures ≠ [])
      (withContext "persist dead-letter records"
        ((memoryWorker config stream).deadLetters.persistFailures collected.failures)) state =
      (.ok (), { state with records := state.records ++ collected.failures }) := by
    apply Attempt.when_apply
    · exact fun _ => rfl
    · intro none
      rw [not_not.mp none, List.append_nil]
  have events : Attempt.when (collected.canonical ≠ [])
      (withContext "persist canonical events"
        ((memoryWorker config stream).sink.persist collected.canonical))
      { state with records := state.records ++ collected.failures } =
      (.ok (), { state with
        records := state.records ++ collected.failures
        events := state.events ++ collected.canonical }) := by
    apply Attempt.when_apply
    · exact fun _ => rfl
    · intro none
      rw [not_not.mp none, List.append_nil]
  unfold commit
  rw [Attempt.bind_of_ok deadLetters, Attempt.bind_of_ok events]
  apply Attempt.when_apply
  · intro advanced
    rw [if_pos advanced]
    rfl
  · intro stays
    rw [if_neg stays]

theorem loaded_position :
    (((state.checkpoints config.stream).map fun seq =>
      Checkpoint.mk config.stream seq).map Checkpoint.lastLedgerSeq).getD 0 =
        state.position config.stream := by
  unfold MemoryStores.position
  cases state.checkpoints config.stream <;> rfl

variable (decodeTopic clock) in
/-- One call that fetches something hands exactly that on and moves the checkpoint to its highest
ledger. -/
theorem runOnce_memory
    (fetched : (behind RawEvent.ledgerSeq (state.position config.stream) stream).take
      config.batchSize = batch) (nonempty : batch ≠ []) :
    ∃ stats after, runOnce (memoryWorker config stream) decodeTopic clock state =
        (.ok stats, after) ∧ stats.fetched = batch.length ∧
      after.handed.Perm (state.handed ++ batch) ∧
      after.position config.stream =
        advance RawEvent.ledgerSeq (state.position config.stream) batch := by
  generalize reached : state.position config.stream = lastSeq at *
  have allFresh : fresh lastSeq batch = batch := by
    apply List.filter_eq_self.mpr
    intro raw member
    rw [← fetched] at member
    exact (List.mem_filter.mp (List.mem_of_mem_take member)).2
  have run : runOnce (memoryWorker config stream) decodeTopic clock state = _ :=
    runOnce_of_fetched _ _ _ _ rfl (loaded_position.trans reached) (by rw [← fetched]; rfl) nonempty
  rw [Attempt.bind_of_ok (commit_memory _)] at run
  generalize isCollected : collect decodeTopic (memoryWorker config stream).config.stream clock
    lastSeq batch = collected at run
  refine ⟨_, _, run, rfl, ?_, ?_⟩
  · have kept := collected_perm config decodeTopic batch
    have canonical : (collect decodeTopic config.stream clock lastSeq batch).canonical = _ :=
      collect_canonical
    have failures : (collect decodeTopic config.stream clock lastSeq batch).failures.map
        DeadLetterRecord.timeless = _ :=
      collect_failures
    rw [← allFresh, ← canonical, ← failures, timeless_raw, allFresh] at kept
    have isKept : (collected.canonical.map CanonicalEvent.raw ++
        collected.failures.map DeadLetterRecord.raw).Perm batch := isCollected ▸ kept
    simp only [MemoryStores.handed, List.map_append, List.append_assoc]
    apply List.Perm.append_left
    exact (List.perm_append_comm_assoc _ _ _).trans (isKept.append_left _)
  · have highest : collected.maxLedger = advance RawEvent.ledgerSeq lastSeq batch := by
      rw [← isCollected, collect_maxLedger, allFresh]
      rfl
    rw [← highest]
    by_cases advanced : lastSeq < collected.maxLedger
    · simp [MemoryStores.position, advanced]
    · have stays : collected.maxLedger = lastSeq :=
        le_antisymm (not_lt.mp advanced) (highest ▸ le_advance)
      simpa [MemoryStores.position, advanced, stays] using reached

variable (decodeTopic) in
/-- A run hands on what a reader behind the checkpoint reads. -/
theorem runUntilEmpty_memory (clock : Nat → Nat → Timestamp) (positive : 0 < config.batchSize) :
    ∀ fuel state, (behind RawEvent.ledgerSeq (state.position config.stream) stream).length < fuel →
      ∃ after, runUntilEmpty (memoryWorker config stream) decodeTopic clock fuel state =
          some after ∧
        after.handed.Perm (state.handed ++ traversal RawEvent.ledgerSeq config.batchSize stream fuel
          (state.position config.stream)) := by
  intro fuel
  induction fuel with
  | zero => intro state enough; omega
  | succ fuel inductionHypothesis =>
    intro state enough
    by_cases nothing : behind RawEvent.ledgerSeq (state.position config.stream) stream = []
    · obtain ⟨stats, none, run⟩ :=
        runOnce_of_nothing (memoryWorker config stream) decodeTopic (clock fuel) state rfl
          loaded_position rfl (List.take_eq_nil_iff.mpr (.inr nothing))
      exact ⟨state, by simp [runUntilEmpty, run, none], by simp [traversal, nothing]⟩
    · have nonempty : (behind RawEvent.ledgerSeq (state.position config.stream) stream).take
          config.batchSize ≠ [] := by
        simp [nothing, positive.ne']
      obtain ⟨stats, middle, run, fetched, handed, position⟩ :=
        runOnce_memory decodeTopic (clock fuel) rfl nonempty
      have shorter := length_behind_advance positive nothing
      rw [← position] at shorter
      obtain ⟨after, rest, handedRest⟩ := inductionHypothesis middle (by omega)
      refine ⟨after, ?_, ?_⟩
      · have more : stats.fetched ≠ 0 := by
          rw [fetched]
          exact (List.length_pos_of_ne_nil nonempty).ne'
        simp [runUntilEmpty, run, more, rest]
      · refine handedRest.trans ?_
        rw [position]
        have step : traversal RawEvent.ledgerSeq config.batchSize stream (fuel + 1)
            (state.position config.stream) = _ :=
          traversal_succ nonempty
        rw [step, ← List.append_assoc]
        exact handed.append_right _

end Run

/-! ## Every event once -/

/-- A stream in ledger order is handed on completely, every event above the initial checkpoint
once, exactly when no batch of the worker ends inside a ledger; the run always ends. -/
theorem handed_once_iff (config : WorkerConfig) (decodeTopic : String → String)
    (clock : Nat → Nat → Timestamp) (stream : List RawEvent) (initial : MemoryStores)
    (ordered : stream.Pairwise fun one other => one.ledgerSeq ≤ other.ledgerSeq)
    (positive : 1 ≤ config.batchSize) :
    let waiting := behind RawEvent.ledgerSeq (initial.position config.stream) stream
    ∀ fuel, waiting.length < fuel →
      ∃ after, runUntilEmpty (memoryWorker config stream) decodeTopic clock fuel initial =
          some after ∧
        (after.handed.Perm (initial.handed ++ waiting) ↔
          KeysWhole RawEvent.ledgerSeq config.batchSize waiting) := by
  intro waiting fuel enough
  obtain ⟨after, run, handed⟩ :=
    runUntilEmpty_memory decodeTopic clock positive fuel initial enough
  obtain ⟨inside, complete⟩ := traversal_spec positive ordered enough
  refine ⟨after, run, ?_⟩
  rw [← complete]
  constructor
  · intro all
    have same := (List.perm_append_left_iff _).mp (handed.symm.trans all)
    exact inside.eq_of_length same.length_eq
  · intro all
    rw [all] at handed
    exact handed

/-- Empty stores, without a checkpoint. -/
def MemoryStores.empty : MemoryStores where
  checkpoints _ := none
  events := []
  records := []

/-- A transfer in a ledger; the data tells the events of a ledger apart. -/
def sampleTransfer (ledgerSeq : Nat) (data : String) : RawEvent where
  ledgerSeq := ledgerSeq
  ledgerCloseTime := 0
  txHash := "7f"
  contractId := "CA"
  topics := ["transfer", "native", "GB"]
  data := data

theorem handed_once_of_sample :
    ∃ after, runUntilEmpty (memoryWorker ⟨"main", 2⟩
        [sampleTransfer 1 "a", sampleTransfer 1 "b", sampleTransfer 2 "c"]) id (fun _ _ => 0) 4
        MemoryStores.empty = some after ∧
      after.handed.Perm [sampleTransfer 1 "a", sampleTransfer 1 "b", sampleTransfer 2 "c"] := by
  obtain ⟨after, run, complete⟩ := handed_once_iff ⟨"main", 2⟩ id (fun _ _ => 0)
    [sampleTransfer 1 "a", sampleTransfer 1 "b", sampleTransfer 2 "c"] MemoryStores.empty
    (by simp [sampleTransfer]) (by decide) 4 (by decide)
  refine ⟨after, run, complete.mpr ?_⟩
  intro k bound
  obtain rfl : k = 0 := by
    change (k + 1) * 2 < 3 at bound
    omega
  decide

/-- Two events of one ledger, read one at a time: the second is never handed on. -/
theorem ledger_cut_loses_event :
    ¬ ∀ (config : WorkerConfig) (decodeTopic : String → String) (clock : Nat → Nat → Timestamp)
      (stream : List RawEvent) (initial : MemoryStores),
      stream.Pairwise (fun one other => one.ledgerSeq ≤ other.ledgerSeq) → 1 ≤ config.batchSize →
      ∃ fuel after, runUntilEmpty (memoryWorker config stream) decodeTopic clock fuel initial =
          some after ∧
        after.handed.Perm (initial.handed ++
          behind RawEvent.ledgerSeq (initial.position config.stream) stream) := by
  intro claim
  obtain ⟨fuel, after, run, all⟩ := claim ⟨"main", 1⟩ id (fun _ _ => 0)
    [sampleTransfer 1 "a", sampleTransfer 1 "b"] MemoryStores.empty (by simp [sampleTransfer])
    (by decide)
  have ran : ∀ fuel, (runUntilEmpty (memoryWorker ⟨"main", 1⟩
      [sampleTransfer 1 "a", sampleTransfer 1 "b"]) id (fun _ _ => 0) (fuel + 2)
      MemoryStores.empty).map MemoryStores.handed = some [sampleTransfer 1 "a"] :=
    fun _ => rfl
  have few : after.handed.length ≤ 1 := by
    match fuel, run with
    | 1, run => cases run
    | fuel + 2, run =>
      have once := ran fuel
      rw [run] at once
      exact (congrArg List.length (Option.some.inj once)).le
  have both := all.length_eq
  change after.handed.length = 2 at both
  omega

end Ancore.Indexer
