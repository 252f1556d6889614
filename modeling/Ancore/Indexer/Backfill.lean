import Ancore.Indexer.Delivery

/-! # The backfill command

A range of ledgers is fetched again, from a cursor that every fetched event moves on,
also the events that are left out.  A source that returns only events after the cursor
moves it at each fetch, so that the loop ends (`backfill_ends`); what is fetched is
persisted, out of range or counted as an error.
-/

namespace Ancore.Indexer

open Ancore.Library

structure BackfillConfig where
  fromLedger : Nat
  toLedger : Nat
  batchSize : Nat

/-- `BackfillConfig::validate` -/
def BackfillConfig.validate (config : BackfillConfig) : Except IngestError Unit :=
  if ¬ config.fromLedger ≤ config.toLedger then
    .error ["from_ledger (" ++ toString config.fromLedger ++ ") must be <= to_ledger (" ++
      toString config.toLedger ++ ")"]
  else if ¬ 0 < config.batchSize then .error ["batch_size must be > 0"]
  else .ok ()

structure BackfillStats where
  fetched : Nat
  outOfRange : Nat
  errors : Nat
  persisted : Nat
deriving DecidableEq

/-- `BackfillStats::default()` -/
def BackfillStats.default : BackfillStats where
  fetched := 0
  outOfRange := 0
  errors := 0
  persisted := 0

structure BackfillCommand (σ : Type) where
  config : BackfillConfig
  source : EventSource σ
  sink : EventSink σ

/-! ## The loop over a batch -/

/-- What the loop over the fetched events has collected. -/
structure BackfillBatch where
  stats : BackfillStats
  currentLedger : Nat
  canonical : List CanonicalEvent

section Loop

variable (decodeTopic : String → String) (config : BackfillConfig)

/-- The body of the loop.  The cursor moves before the event is filtered. -/
def backfillEvent (batch : BackfillBatch) (raw : RawEvent) : BackfillBatch :=
  let stats := { batch.stats with fetched := batch.stats.fetched + 1 }
  let currentLedger := max batch.currentLedger raw.ledgerSeq
  if raw.ledgerSeq < config.fromLedger ∨ config.toLedger < raw.ledgerSeq then
    ⟨{ stats with outOfRange := stats.outOfRange + 1 }, currentLedger, batch.canonical⟩
  else
    match normalise decodeTopic raw with
    | .ok event => ⟨stats, currentLedger, batch.canonical ++ [event]⟩
    | .error _ => ⟨{ stats with errors := stats.errors + 1 }, currentLedger, batch.canonical⟩

def backfillEvents (stats : BackfillStats) (currentLedger : Nat) (rawEvents : List RawEvent) :
    BackfillBatch :=
  rawEvents.foldl (backfillEvent decodeTopic config) ⟨stats, currentLedger, []⟩

end Loop

/-! ## The command -/

section Command

variable {σ : Type} (command : BackfillCommand σ) (decodeTopic : String → String)

/-- `sink.persist`, and its count. -/
def persistBatch (batch : BackfillBatch) : Attempt IngestError σ BackfillStats := do
  Attempt.when (batch.canonical ≠ []) (withContext "persist canonical events during backfill"
    (command.sink.persist batch.canonical))
  pure { batch.stats with persisted := batch.stats.persisted + batch.canonical.length }

/-- The loop; `none` once the fuel is used up. -/
def backfillLoop : Nat → Nat → BackfillStats → Attempt IngestError σ (Option BackfillStats)
  | 0, _, _ => pure none
  | fuel + 1, currentLedger, stats =>
    if command.config.toLedger ≤ currentLedger then pure (some stats)
    else do
      let rawEvents ← withContext "fetch events from source during backfill"
        (command.source.fetch currentLedger command.config.batchSize)
      if rawEvents.isEmpty then pure (some stats)
      else do
        let batch := backfillEvents decodeTopic command.config stats currentLedger rawEvents
        let stats ← persistBatch command batch
        backfillLoop fuel batch.currentLedger stats

/-- `BackfillCommand::run` -/
def BackfillCommand.run (fuel : Nat) : Attempt IngestError σ (Option BackfillStats) := do
  Attempt.ofExcept command.config.validate
  backfillLoop command decodeTopic fuel (command.config.fromLedger - 1) .default

end Command

/-! ## What a command asks for -/

/-- The number of fetches, and the events handed to the sink. -/
structure Traffic where
  fetches : Nat
  handed : List CanonicalEvent

def Traffic.none : Traffic := ⟨0, []⟩

section Recording

variable {σ : Type}

/-- The source, with its fetches counted. -/
def EventSource.recorded (source : EventSource σ) : EventSource (σ × Traffic) where
  fetch afterLedger limit state :=
    let (fetched, next) := source.fetch afterLedger limit state.1
    (fetched, (next, { state.2 with fetches := state.2.fetches + 1 }))

/-- The sink, with the events it was handed. -/
def EventSink.recorded (sink : EventSink σ) : EventSink (σ × Traffic) where
  persist events state :=
    let (persisted, next) := sink.persist events state.1
    (persisted, (next, { state.2 with handed := state.2.handed ++ events }))

def BackfillCommand.recorded (command : BackfillCommand σ) : BackfillCommand (σ × Traffic) where
  config := command.config
  source := command.source.recorded
  sink := command.sink.recorded

/-- The one attempt comes to what the other does, whatever is recorded. -/
def Records {α : Type} (recorded : Attempt IngestError (σ × Traffic) α)
    (action : Attempt IngestError σ α) : Prop :=
  ∀ state traffic,
    ((recorded (state, traffic)).1, (recorded (state, traffic)).2.1) = action state

namespace Records

variable {α β : Type} {recorded : Attempt IngestError (σ × Traffic) α}
  {action : Attempt IngestError σ α}

protected theorem pure (value : α) :
    Records (pure value) (pure value : Attempt IngestError σ α) := fun _ _ => rfl

protected theorem bind {next : α → Attempt IngestError (σ × Traffic) β}
    {rest : α → Attempt IngestError σ β} (first : Records recorded action)
    (second : ∀ value, Records (next value) (rest value)) :
    Records (recorded >>= next) (action >>= rest) := by
  intro state traffic
  have same := first state traffic
  cases performed : recorded (state, traffic) with
  | mk result after =>
    rw [performed] at same
    cases result with
    | ok value =>
      rw [Attempt.bind_of_ok performed, Attempt.bind_of_ok same.symm]
      exact second value after.1 after.2
    | error error => rw [Attempt.bind_of_error performed, Attempt.bind_of_error same.symm]

protected theorem withContext (records : Records recorded action) (text : String) :
    Records (withContext text recorded) (withContext text action) := by
  intro state traffic
  have same := records state traffic
  cases performed : recorded (state, traffic) with
  | mk result after =>
    rw [performed] at same
    cases result with
    | ok value => rw [withContext_of_ok performed, withContext_of_ok same.symm]
    | error error => rw [withContext_of_error performed, withContext_of_error same.symm]

end Records

/-- Recording what a command asks for changes nothing. -/
theorem backfillLoop_recorded (command : BackfillCommand σ) (decodeTopic : String → String)
    (fuel currentLedger : Nat) (stats : BackfillStats) :
    Records (backfillLoop command.recorded decodeTopic fuel currentLedger stats)
      (backfillLoop command decodeTopic fuel currentLedger stats) := by
  induction fuel generalizing currentLedger stats with
  | zero => exact .pure none
  | succ fuel inductionHypothesis =>
    unfold backfillLoop
    have config : command.recorded.config = command.config := rfl
    rw [config]
    split
    · exact .pure (some stats)
    · refine Records.bind (.withContext (fun _ _ => rfl) _) fun rawEvents => ?_
      split
      · exact .pure (some stats)
      · refine Records.bind (Records.bind ?_ fun _ => .pure _) fun _ => inductionHypothesis _ _
        unfold Attempt.when
        split
        · exact .withContext (fun _ _ => rfl) _
        · exact .pure ()

theorem run_recorded (command : BackfillCommand σ) (decodeTopic : String → String) (fuel : Nat) :
    Records (command.recorded.run decodeTopic fuel) (command.run decodeTopic fuel) :=
  Records.bind (fun _ _ => rfl) fun _ => backfillLoop_recorded command decodeTopic fuel _ _

end Recording

/-! ## The batch -/

section Batch

variable {decodeTopic : String → String} {config : BackfillConfig}

/-- Everything that was fetched is accounted for, the collected events included. -/
def BackfillBatch.Accounted (batch : BackfillBatch) : Prop :=
  batch.stats.fetched = batch.stats.persisted + batch.canonical.length + batch.stats.outOfRange +
    batch.stats.errors

def BackfillBatch.InRange (config : BackfillConfig) (batch : BackfillBatch) : Prop :=
  ∀ event ∈ batch.canonical,
    config.fromLedger ≤ event.ledgerSeq ∧ event.ledgerSeq ≤ config.toLedger

/-- One event, by what becomes of it. -/
theorem backfillEvent_spec {batch : BackfillBatch} (raw : RawEvent) (accounted : batch.Accounted)
    (inRange : batch.InRange config) :
    (backfillEvent decodeTopic config batch raw).Accounted ∧
      (backfillEvent decodeTopic config batch raw).InRange config ∧
      (backfillEvent decodeTopic config batch raw).currentLedger =
        max batch.currentLedger raw.ledgerSeq := by
  unfold BackfillBatch.Accounted at accounted ⊢
  unfold backfillEvent
  split
  · refine ⟨?_, inRange, rfl⟩
    dsimp only
    omega
  · rename_i within
    split
    · rename_i event normalised
      refine ⟨?_, ?_, rfl⟩
      · simp only [List.length_append, List.length_singleton]
        omega
      · intro other member
        rcases List.mem_append.mp member with before | now
        · exact inRange other before
        · rw [List.mem_singleton.mp now, (normalise_ok normalised).2.1]
          omega
    · refine ⟨?_, inRange, rfl⟩
      dsimp only
      omega

theorem backfillEvents_spec {batch : BackfillBatch} (rawEvents : List RawEvent)
    (accounted : batch.Accounted) (inRange : batch.InRange config) :
    (rawEvents.foldl (backfillEvent decodeTopic config) batch).Accounted ∧
      (rawEvents.foldl (backfillEvent decodeTopic config) batch).InRange config ∧
      batch.currentLedger ≤
        (rawEvents.foldl (backfillEvent decodeTopic config) batch).currentLedger ∧
      ∀ raw ∈ rawEvents, raw.ledgerSeq ≤
        (rawEvents.foldl (backfillEvent decodeTopic config) batch).currentLedger := by
  induction rawEvents generalizing batch with
  | nil => exact ⟨accounted, inRange, le_rfl, nofun⟩
  | cons raw rawEvents inductionHypothesis =>
    obtain ⟨accounted, inRange, moved⟩ := backfillEvent_spec raw accounted inRange
    obtain ⟨accountedRest, inRangeRest, further, beyond⟩ := inductionHypothesis accounted inRange
    rw [moved] at further
    rw [List.foldl_cons]
    refine ⟨accountedRest, inRangeRest, (le_max_left _ _).trans further, ?_⟩
    intro other member
    rcases List.mem_cons.mp member with rfl | later
    · exact (le_max_right _ _).trans further
    · exact beyond other later

end Batch

/-! ## The loop -/

section Run

variable {σ : Type} {command : BackfillCommand σ} {decodeTopic : String → String}
  {state : σ × Traffic} {stats : BackfillStats} {currentLedger : Nat}

/-- What the trait asks of a source. -/
def EventSource.FetchesAfter (source : EventSource σ) : Prop :=
  ∀ ⦃afterLedger limit state rawEvents next⦄,
    source.fetch afterLedger limit state = (.ok rawEvents, next) →
      ∀ raw ∈ rawEvents, afterLedger < raw.ledgerSeq

/-- What was fetched so far is accounted for. -/
def BackfillStats.Accounted (stats : BackfillStats) : Prop :=
  stats.fetched = stats.persisted + stats.outOfRange + stats.errors

/-- What a run comes to: it ended, with a number of fetches at most, every event handed to the sink
in range and everything accounted for. -/
structure Ended (config : BackfillConfig) (before : Traffic) (fetches : Nat)
    (result : Except IngestError (Option BackfillStats) × σ × Traffic) : Prop where
  ended : result.1 ≠ .ok none
  fetches_le : result.2.2.fetches ≤ before.fetches + fetches
  inRange : ∀ event ∈ result.2.2.handed, event ∈ before.handed ∨
    config.fromLedger ≤ event.ledgerSeq ∧ event.ledgerSeq ≤ config.toLedger
  accounted : ∀ stats, result.1 = .ok (some stats) → stats.Accounted

theorem ended_of_stats (state : σ × Traffic) (accounted : stats.Accounted) (fetches : Nat) :
    Ended command.config state.2 fetches (.ok (some stats), state) where
  ended := nofun
  fetches_le := Nat.le_add_right _ _
  inRange _ member := .inl member
  accounted _ same := by
    cases same
    exact accounted

theorem ended_of_error (state : σ × Traffic) (error : IngestError) (fetches : Nat) :
    Ended command.config state.2 fetches (.error error, state) where
  ended := nofun
  fetches_le := Nat.le_add_right _ _
  inRange _ member := .inl member
  accounted := nofun

/-- A part of a run before the rest of it. -/
theorem Ended.after {before middle : Traffic} {first second total : Nat}
    {result : Except IngestError (Option BackfillStats) × σ × Traffic}
    (ended : Ended command.config middle second result) (bound : first + second ≤ total)
    (fetches : middle.fetches ≤ before.fetches + first)
    (inRange : ∀ event ∈ middle.handed, event ∈ before.handed ∨
      command.config.fromLedger ≤ event.ledgerSeq ∧ event.ledgerSeq ≤ command.config.toLedger) :
    Ended command.config before total result where
  ended := ended.ended
  fetches_le := by
    have := ended.fetches_le
    omega
  inRange event member := by
    rcases ended.inRange event member with early | within
    · exact inRange event early
    · exact .inr within
  accounted := ended.accounted

/-- The sink is handed the collected events at most. -/
theorem persistBatch_recorded (command : BackfillCommand σ) (batch : BackfillBatch)
    (state : σ × Traffic) :
    ∃ result after, persistBatch command.recorded batch state = (result, after) ∧
      after.2.fetches = state.2.fetches ∧
      (∀ event ∈ after.2.handed, event ∈ state.2.handed ∨ event ∈ batch.canonical) ∧
      (∀ stats, result = .ok stats → stats =
        { batch.stats with persisted := batch.stats.persisted + batch.canonical.length }) := by
  unfold persistBatch Attempt.when
  by_cases nothing : batch.canonical = []
  · rw [if_neg (not_not_intro nothing)]
    refine ⟨_, state, rfl, rfl, fun _ member => .inl member, ?_⟩
    rintro _ ⟨⟩
    rfl
  · rw [if_pos nothing]
    have handed : ∀ event ∈ state.2.handed ++ batch.canonical,
        event ∈ state.2.handed ∨ event ∈ batch.canonical := fun _ => List.mem_append.mp
    cases persisted : command.sink.persist batch.canonical state.1 with
    | mk result next =>
      have called : command.recorded.sink.persist batch.canonical state =
          (result, (next, { state.2 with handed := state.2.handed ++ batch.canonical })) := by
        simp only [BackfillCommand.recorded, EventSink.recorded, persisted]
      cases result with
      | ok _ =>
        rw [Attempt.bind_of_ok (withContext_of_ok called)]
        refine ⟨_, _, rfl, rfl, handed, ?_⟩
        rintro _ ⟨⟩
        rfl
      | error error =>
        rw [Attempt.bind_of_error (withContext_of_error called)]
        exact ⟨_, _, rfl, rfl, handed, nofun⟩

/-- The rest of a run after a batch that moved the cursor. -/
theorem ended_of_batch {fuel bound : Nat} (batch : BackfillBatch) (collected : batch.Accounted)
    (inRange : batch.InRange command.config)
    (rest : ∀ stats state, BackfillStats.Accounted stats →
      Ended command.config state.2 bound
        (backfillLoop command.recorded decodeTopic fuel batch.currentLedger stats state)) :
    Ended command.config state.2 bound ((do
      let stats ← persistBatch command.recorded batch
      backfillLoop command.recorded decodeTopic fuel batch.currentLedger stats) state) := by
  obtain ⟨result, after, persisted, fetches, handed, stats⟩ :=
    persistBatch_recorded command batch state
  have within : ∀ event ∈ after.2.handed, event ∈ state.2.handed ∨
      command.config.fromLedger ≤ event.ledgerSeq ∧ event.ledgerSeq ≤ command.config.toLedger :=
    fun event member => (handed event member).imp_right (inRange event)
  cases result with
  | error error =>
    rw [Attempt.bind_of_error persisted]
    exact (ended_of_error after error 0).after (Nat.zero_le _) fetches.le within
  | ok updated =>
    rw [Attempt.bind_of_ok persisted]
    have accounted : updated.Accounted := by
      rw [stats updated rfl]
      unfold BackfillBatch.Accounted at collected
      unfold BackfillStats.Accounted
      dsimp only
      omega
    exact (rest updated after accounted).after (Nat.zero_add bound).le fetches.le within

theorem backfillLoop_ended (after : command.source.FetchesAfter) (fuel : Nat)
    (enough : command.config.toLedger - currentLedger < fuel) (accounted : stats.Accounted) :
    Ended command.config state.2 (command.config.toLedger - currentLedger)
      (backfillLoop command.recorded decodeTopic fuel currentLedger stats state) := by
  induction fuel generalizing currentLedger stats state with
  | zero => omega
  | succ fuel inductionHypothesis =>
    rw [backfillLoop]
    split
    · exact ended_of_stats state accounted _
    · rename_i before
      have one : 1 ≤ command.config.toLedger - currentLedger := by
        have : ¬ command.config.toLedger ≤ currentLedger := before
        omega
      cases fetched : command.source.fetch currentLedger command.config.batchSize state.1 with
      | mk result next =>
        have called : command.recorded.source.fetch currentLedger
            command.recorded.config.batchSize state =
              (result, (next, { state.2 with fetches := state.2.fetches + 1 })) := by
          simp only [BackfillCommand.recorded, EventSource.recorded, fetched]
        cases result with
        | error error =>
          rw [Attempt.bind_of_error (withContext_of_error called)]
          exact (ended_of_error _ _ 0).after one le_rfl fun _ => .inl
        | ok rawEvents =>
          rw [Attempt.bind_of_ok (withContext_of_ok called)]
          split
          · exact (ended_of_stats _ accounted 0).after one le_rfl fun _ => .inl
          · rename_i nonempty
            obtain ⟨collected, inRange, -, beyond⟩ :=
              @backfillEvents_spec decodeTopic command.config ⟨stats, currentLedger, []⟩ rawEvents
                accounted (List.forall_mem_nil _)
            -- The first event alone moves the cursor on.
            obtain ⟨raw, member⟩ := List.exists_mem_of_ne_nil rawEvents
              fun empty => nonempty (by rw [empty]; rfl)
            have moved := (after fetched raw member).trans_le (beyond raw member)
            refine (ended_of_batch _ collected inRange fun stats state accounted =>
              inductionHypothesis ?_ accounted).after ?_ le_rfl fun _ => .inl
            · omega
            · omega

end Run

theorem BackfillConfig.validate_ok {config : BackfillConfig} (valid : config.validate = .ok ()) :
    config.fromLedger ≤ config.toLedger := by
  unfold BackfillConfig.validate at valid
  split at valid
  · cases valid
  · omega

/-- With a valid configuration and a source that returns only events after the cursor, the command
ends: it makes at most two fetches more than the range is long, hands only events in range to the
sink, and accounts for everything it fetched. -/
theorem backfill_ends {σ : Type} (command : BackfillCommand σ) (decodeTopic : String → String)
    (state : σ) (valid : command.config.validate = .ok ()) (after : command.source.FetchesAfter)
    (fuel : Nat) (enough : command.config.toLedger - command.config.fromLedger + 2 ≤ fuel) :
    let run := command.recorded.run decodeTopic fuel (state, Traffic.none)
    run.1 ≠ .ok none ∧
      run.2.2.fetches ≤ command.config.toLedger - command.config.fromLedger + 2 ∧
      (∀ event ∈ run.2.2.handed,
        command.config.fromLedger ≤ event.ledgerSeq ∧ event.ledgerSeq ≤ command.config.toLedger) ∧
      (∀ stats, run.1 = .ok (some stats) →
        stats.fetched = stats.persisted + stats.outOfRange + stats.errors) ∧
      command.run decodeTopic fuel state = (run.1, run.2.1) := by
  have validated : Attempt.ofExcept command.recorded.config.validate (state, Traffic.none) =
      (.ok (), (state, Traffic.none)) := by
    rw [Attempt.ofExcept, BackfillCommand.recorded, valid]
  have inOrder := BackfillConfig.validate_ok valid
  have ended : Ended command.config Traffic.none
      (command.config.toLedger - (command.config.fromLedger - 1))
      (command.recorded.run decodeTopic fuel (state, Traffic.none)) := by
    rw [BackfillCommand.run, Attempt.bind_of_ok validated]
    exact @backfillLoop_ended _ command decodeTopic (state, Traffic.none) .default
      (command.config.fromLedger - 1) after fuel (by omega) rfl
  refine ⟨ended.ended, ?_, fun event member => ?_, ended.accounted,
    (run_recorded command decodeTopic fuel state Traffic.none).symm⟩
  · have fetches := ended.fetches_le
    have none : Traffic.none.fetches = 0 := rfl
    omega
  · exact (ended.inRange event member).resolve_left List.not_mem_nil

theorem streamSource_fetchesAfter {σ : Type} (stream : List RawEvent) :
    (streamSource stream : EventSource σ).FetchesAfter := by
  rintro afterLedger limit state rawEvents next ⟨⟩ raw member
  have behindCursor := List.mem_of_mem_take member
  rw [behind, List.mem_filter] at behindCursor
  exact of_decide_eq_true behindCursor.2

/-- Ledgers two to four of a stream that goes on to ledger nine. -/
def sampleBackfill : BackfillCommand MemoryStores where
  config := ⟨2, 4, 2⟩
  source := streamSource [sampleTransfer 1 "a", sampleTransfer 3 "b", sampleTransfer 9 "c"]
  sink := memorySink

theorem backfill_ends_of_sample :
    sampleBackfill.run id 4 MemoryStores.empty ≠ (.ok none, MemoryStores.empty) ∧
      (sampleBackfill.recorded.run id 4 (MemoryStores.empty, Traffic.none)).2.2.fetches ≤ 4 := by
  obtain ⟨ended, fetches, -, -, same⟩ := backfill_ends sampleBackfill id MemoryStores.empty rfl
    (streamSource_fetchesAfter _) 4 (by decide)
  refine ⟨fun unfinished => ended ?_, fetches⟩
  exact congrArg Prod.fst (same.symm.trans unfinished)

end Ancore.Indexer
