import Ancore.Indexer.Tables

/-! # The ingestion worker

One call of the worker loads the checkpoint, fetches a batch after it, normalises
the events, and writes rejected events, canonical events and the new checkpoint, in
this order and each only if there is something to write.  The stores and the
source are the worker's fields, as in the code; any of their calls may fail.
-/

namespace Ancore.Indexer

open Ancore.Library

/-- An error with its chain of contexts, outermost first. -/
abbrev IngestError := List String

/-- `.context(..)` -/
def withContext {σ α : Type} (text : String) (action : Attempt IngestError σ α) :
    Attempt IngestError σ α :=
  action.mapError (text :: ·)

theorem withContext_of_ok {σ α : Type} {text : String} {action : Attempt IngestError σ α}
    {state after : σ} {value : α} (performed : action state = (.ok value, after)) :
    withContext text action state = (.ok value, after) := by
  simp [withContext, Attempt.mapError, performed]

theorem withContext_of_error {σ α : Type} {text : String} {action : Attempt IngestError σ α}
    {state after : σ} {error : IngestError} (failed : action state = (.error error, after)) :
    withContext text action state = (.error (text :: error), after) := by
  simp [withContext, Attempt.mapError, failed]

structure CheckpointStore (σ : Type) where
  load : String → Attempt IngestError σ (Option Checkpoint)
  save : Checkpoint → Attempt IngestError σ Unit

structure EventSource (σ : Type) where
  /-- Fetch up to `limit` events with `ledger_seq > after_ledger`. -/
  fetch : Nat → Nat → Attempt IngestError σ (List RawEvent)

/-- A source whose answers do not change. -/
def steadySource {σ : Type} (events : Nat → Nat → List RawEvent) : EventSource σ where
  fetch afterLedger limit state := (.ok (events afterLedger limit), state)

structure EventSink (σ : Type) where
  persist : List CanonicalEvent → Attempt IngestError σ Unit

structure DeadLetterStore (σ : Type) where
  persistFailures : List DeadLetterRecord → Attempt IngestError σ Unit

structure WorkerConfig where
  stream : String
  batchSize : Nat

structure BatchStats where
  fetched : Nat
  skipped : Nat
  normalised : Nat
  persisted : Nat
  errors : Nat
  deadLettered : Nat
deriving DecidableEq

structure IngestWorker (σ : Type) where
  config : WorkerConfig
  checkpoint : CheckpointStore σ
  source : EventSource σ
  sink : EventSink σ
  deadLetters : DeadLetterStore σ

/-! ## The loop over a batch -/

/-- What the loop over the fetched events has collected. -/
structure Batch where
  canonical : List CanonicalEvent
  failures : List DeadLetterRecord
  maxLedger : Nat
  skipped : Nat
deriving DecidableEq

section Loop

variable (decodeTopic : String → String) (stream : String) (clock : Nat → Timestamp)
  (lastSeq : Nat)

/-- The body of the loop.  The clock is read once for every failure. -/
def collectEvent (batch : Batch) (raw : RawEvent) : Batch :=
  if raw.ledgerSeq ≤ lastSeq then { batch with skipped := batch.skipped + 1 }
  else
    match normalise decodeTopic raw with
    | .ok event =>
      { batch with
        maxLedger := max batch.maxLedger event.ledgerSeq
        canonical := batch.canonical ++ [event] }
    | .error error =>
      { batch with
        failures := batch.failures ++ [{
          stream := stream
          ledgerSeq := raw.ledgerSeq
          error := error.toText
          raw := raw
          failedAt := clock batch.failures.length }]
        maxLedger := max batch.maxLedger raw.ledgerSeq }

def collect (rawEvents : List RawEvent) : Batch :=
  rawEvents.foldl (collectEvent decodeTopic stream clock lastSeq)
    { canonical := [], failures := [], maxLedger := lastSeq, skipped := 0 }

end Loop

/-! ## One call -/

section Run

variable {σ : Type} (worker : IngestWorker σ)

/-- The writes of a batch: dead letters, canonical events, checkpoint. -/
def commit (lastSeq : Nat) (batch : Batch) : Attempt IngestError σ Unit := do
  Attempt.when (batch.failures ≠ [])
    (withContext "persist dead-letter records" (worker.deadLetters.persistFailures batch.failures))
  Attempt.when (batch.canonical ≠ [])
    (withContext "persist canonical events" (worker.sink.persist batch.canonical))
  Attempt.when (lastSeq < batch.maxLedger)
    (withContext "save checkpoint" (worker.checkpoint.save {
      stream := worker.config.stream
      lastLedgerSeq := batch.maxLedger }))

/-- The counters, `skipped`, `normalised` and `errors` as the loop left them. -/
def Batch.stats (batch : Batch) (fetched : Nat) : BatchStats where
  fetched := fetched
  skipped := batch.skipped
  normalised := batch.canonical.length
  persisted := batch.canonical.length
  errors := batch.failures.length
  deadLettered := batch.failures.length

/-- Process one batch of events. -/
def runOnce (decodeTopic : String → String) (clock : Nat → Timestamp) :
    Attempt IngestError σ BatchStats := do
  let checkpoint ← withContext "load checkpoint" (worker.checkpoint.load worker.config.stream)
  let lastSeq := (checkpoint.map Checkpoint.lastLedgerSeq).getD 0
  let rawEvents ← withContext "fetch events from source"
    (worker.source.fetch lastSeq worker.config.batchSize)
  if rawEvents.isEmpty then pure (Batch.stats ⟨[], [], lastSeq, 0⟩ 0)
  else do
    let batch := collect decodeTopic worker.config.stream clock lastSeq rawEvents
    commit worker lastSeq batch
    pure (batch.stats rawEvents.length)

section Reading

variable {worker} {decodeTopic : String → String} {clock : Nat → Timestamp} {state : σ}
  {checkpoint : Option Checkpoint} {lastSeq : Nat} {rawEvents : List RawEvent}
  (loaded : worker.checkpoint.load worker.config.stream state = (.ok checkpoint, state))
  (position : (checkpoint.map Checkpoint.lastLedgerSeq).getD 0 = lastSeq)
  (fetched : worker.source.fetch lastSeq worker.config.batchSize state = (.ok rawEvents, state))

include loaded position fetched

variable (worker decodeTopic clock state) in
/-- With checkpoint and batch at hand, a call is its writes. -/
theorem runOnce_of_fetched (nonempty : rawEvents ≠ []) :
    runOnce worker decodeTopic clock state =
      (commit worker lastSeq
          (collect decodeTopic worker.config.stream clock lastSeq rawEvents) >>= fun _ =>
        pure ((collect decodeTopic worker.config.stream clock lastSeq rawEvents).stats
          rawEvents.length)) state := by
  unfold runOnce
  rw [Attempt.bind_of_ok (withContext_of_ok loaded)]
  dsimp only
  rw [position, Attempt.bind_of_ok (withContext_of_ok fetched)]
  simp [nonempty]

variable (worker decodeTopic clock state) in
/-- A call that fetches nothing does nothing. -/
theorem runOnce_of_nothing (nothing : rawEvents = []) :
    ∃ stats : BatchStats, stats.fetched = 0 ∧
      runOnce worker decodeTopic clock state = (.ok stats, state) := by
  subst nothing
  unfold runOnce
  rw [Attempt.bind_of_ok (withContext_of_ok loaded)]
  dsimp only
  rw [position, Attempt.bind_of_ok (withContext_of_ok fetched)]
  exact ⟨_, rfl, rfl⟩

end Reading

end Run

/-! ## What a batch collects -/

/-- A record without the time of its failure. -/
def DeadLetterRecord.timeless (record : DeadLetterRecord) : DeadLetterRecord :=
  { record with failedAt := 0 }

/-- The events the loop does not skip. -/
def fresh (lastSeq : Nat) (rawEvents : List RawEvent) : List RawEvent :=
  rawEvents.filter fun raw => lastSeq < raw.ledgerSeq

/-- The canonical form of an event, if it has one. -/
def accepted (decodeTopic : String → String) (raw : RawEvent) : Option CanonicalEvent :=
  (normalise decodeTopic raw).toOption

/-- The timeless record of an event that has no canonical form. -/
def rejected (decodeTopic : String → String) (stream : String) (raw : RawEvent) :
    Option DeadLetterRecord :=
  match normalise decodeTopic raw with
  | .ok _ => none
  | .error error => some {
      stream := stream
      ledgerSeq := raw.ledgerSeq
      error := error.toText
      raw := raw
      failedAt := 0 }

section Collect

variable {decodeTopic : String → String} {stream : String} {clock : Nat → Timestamp}
  {lastSeq : Nat} {rawEvents : List RawEvent} {raw : RawEvent} {event : CanonicalEvent}
  {record : DeadLetterRecord}

theorem raw_of_accepted (isAccepted : accepted decodeTopic raw = some event) : event.raw = raw := by
  cases normalised : normalise decodeTopic raw with
  | ok canonical =>
    simp only [accepted, normalised, Except.toOption, Option.some.injEq] at isAccepted
    rw [← isAccepted]
    exact (normalise_ok normalised).1
  | error error => simp [accepted, normalised, Except.toOption] at isAccepted

theorem raw_of_rejected (isRejected : rejected decodeTopic stream raw = some record) :
    record.raw = raw ∧ record.stream = stream ∧ record.ledgerSeq = raw.ledgerSeq := by
  cases normalised : normalise decodeTopic raw with
  | ok canonical => simp [rejected, normalised] at isRejected
  | error error =>
    simp only [rejected, normalised, Option.some.injEq] at isRejected
    rw [← isRejected]
    exact ⟨rfl, rfl, rfl⟩

variable (decodeTopic stream clock lastSeq) in
/-- One event, by what becomes of it. -/
theorem collectEvent_spec (batch : Batch) (raw : RawEvent) :
    (collectEvent decodeTopic stream clock lastSeq batch raw).canonical =
        batch.canonical ++ (fresh lastSeq [raw]).filterMap (accepted decodeTopic) ∧
      (collectEvent decodeTopic stream clock lastSeq batch raw).failures.map
          DeadLetterRecord.timeless =
        batch.failures.map DeadLetterRecord.timeless ++
          (fresh lastSeq [raw]).filterMap (rejected decodeTopic stream) ∧
      (collectEvent decodeTopic stream clock lastSeq batch raw).maxLedger =
        ((fresh lastSeq [raw]).map RawEvent.ledgerSeq).foldl max batch.maxLedger := by
  by_cases old : raw.ledgerSeq ≤ lastSeq
  · have skipped : fresh lastSeq [raw] = [] := by simp [fresh, old]
    simp [collectEvent, old, skipped]
  · have kept : fresh lastSeq [raw] = [raw] := by simpa [fresh] using old
    cases normalised : normalise decodeTopic raw with
    | ok event =>
      have sameLedger : event.ledgerSeq = raw.ledgerSeq := (normalise_ok normalised).2.1
      simp [collectEvent, old, kept, normalised, accepted, rejected, Except.toOption, sameLedger]
    | error error =>
      simp [collectEvent, old, kept, normalised, accepted, rejected, Except.toOption,
        DeadLetterRecord.timeless]

theorem foldl_collectEvent (rawEvents : List RawEvent) (batch : Batch) :
    (rawEvents.foldl (collectEvent decodeTopic stream clock lastSeq) batch).canonical =
        batch.canonical ++ (fresh lastSeq rawEvents).filterMap (accepted decodeTopic) ∧
      (rawEvents.foldl (collectEvent decodeTopic stream clock lastSeq) batch).failures.map
          DeadLetterRecord.timeless =
        batch.failures.map DeadLetterRecord.timeless ++
          (fresh lastSeq rawEvents).filterMap (rejected decodeTopic stream) ∧
      (rawEvents.foldl (collectEvent decodeTopic stream clock lastSeq) batch).maxLedger =
        ((fresh lastSeq rawEvents).map RawEvent.ledgerSeq).foldl max batch.maxLedger := by
  induction rawEvents generalizing batch with
  | nil => simp [fresh]
  | cons raw rawEvents inductionHypothesis =>
    have split : fresh lastSeq (raw :: rawEvents) =
        fresh lastSeq [raw] ++ fresh lastSeq rawEvents :=
      List.filter_append [raw] rawEvents
    obtain ⟨canonical, failures, maxLedger⟩ :=
      collectEvent_spec decodeTopic stream clock lastSeq batch raw
    obtain ⟨restCanonical, restFailures, restLedger⟩ :=
      inductionHypothesis (collectEvent decodeTopic stream clock lastSeq batch raw)
    refine ⟨?_, ?_, ?_⟩
    · rw [List.foldl_cons, restCanonical, canonical, split, List.filterMap_append,
        List.append_assoc]
    · rw [List.foldl_cons, restFailures, failures, split, List.filterMap_append, List.append_assoc]
    · rw [List.foldl_cons, restLedger, maxLedger, split, List.map_append, List.foldl_append]

theorem collect_canonical :
    (collect decodeTopic stream clock lastSeq rawEvents).canonical =
      (fresh lastSeq rawEvents).filterMap (accepted decodeTopic) :=
  (foldl_collectEvent rawEvents _).1

theorem collect_failures :
    (collect decodeTopic stream clock lastSeq rawEvents).failures.map DeadLetterRecord.timeless =
      (fresh lastSeq rawEvents).filterMap (rejected decodeTopic stream) :=
  (foldl_collectEvent rawEvents _).2.1

theorem collect_maxLedger :
    (collect decodeTopic stream clock lastSeq rawEvents).maxLedger =
      ((fresh lastSeq rawEvents).map RawEvent.ledgerSeq).foldl max lastSeq :=
  (foldl_collectEvent rawEvents _).2.2

end Collect

end Ancore.Indexer
