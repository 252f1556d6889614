import Ancore.Relayer.Occurrences

/-! # Each scheduled occurrence is paid at most once, if its record is read again

Workers hold a lease while they execute a transfer, but the transfer they execute
is the one they listed before they acquired it.  Every worker is followed through
`processDueTransfers` with assertions on the agenda: which lease it holds, and
that each transfer it has listed is still current or was paid meanwhile.  A relay
call for one that was paid meanwhile pays it twice; without such calls, and with
every paid record moved on, no occurrence is paid twice.
-/

namespace Ancore.Relayer

open Ancore.Library

variable {Worker : Type} {workerIdOf : Worker → WorkerId} {worker : Worker} {α β : Type}

/-! ## Assertions -/

/-- No lease has expired, and what was paid is moved on. -/
def Allowed (exchange : SchedulerExchange Worker) : Prop :=
  LeasesHold exchange ∧ MovesOn exchange

/-- An assertion on the agenda, made until an occurrence is paid twice. -/
def Asserted (holds : Agenda TransferId Date Worker → Prop) (world : SchedulerWorld Worker) :
    Prop :=
  PaidTwice world ∨ PaidSoundly world ∧ holds (schedulerAgenda world)

/-- An assertion of a worker that the steps of the others spare. -/
def Spared (worker : Worker) (holds : Agenda TransferId Date Worker → Prop) : Prop :=
  ∀ ⦃other before after⦄, other ≠ worker → Agenda.Spares other before after →
    holds before → holds after

theorem Spared.stable {holds : Agenda TransferId Date Worker → Prop}
    (spared : Spared worker holds) :
    Stable Owes worker fun world => PaidSoundly world ∧ holds (schedulerAgenda world) :=
  fun _ _ _ different owed current => ⟨owed.1, spared different owed.2 current.2⟩

theorem Spared.asserted {holds : Agenda TransferId Date Worker → Prop}
    (spared : Spared worker holds) : Stable (Until PaidTwice Owes) worker (Asserted holds) :=
  spared.stable.orLost

theorem Asserted.mono {weak strong : Agenda TransferId Date Worker → Prop}
    {world : SchedulerWorld Worker} (asserted : Asserted strong world)
    (weaker : ∀ agenda, strong agenda → weak agenda) : Asserted weak world :=
  asserted.imp id fun ⟨sound, holds⟩ => ⟨sound, weaker _ holds⟩

/-- The transfers were listed as due, and each is current or was paid since. -/
def Lists (due : List ScheduledTransfer) (agenda : Agenda TransferId Date Worker) : Prop :=
  ∀ transfer ∈ due, agenda.Covered transfer.id transfer.nextRunAt

/-- Between two transfers. -/
structure Idle (worker : Worker) (due : List ScheduledTransfer)
    (agenda : Agenda TransferId Date Worker) : Prop where
  free : agenda.Free worker
  lists : Lists due agenda

/-- With the lease, before the relay call and after the update. -/
structure Ready (worker : Worker) (id : TransferId) (due : List ScheduledTransfer)
    (agenda : Agenda TransferId Date Worker) : Prop where
  holding : agenda.Holding worker id
  clear : agenda.Clear id
  lists : Lists due agenda

/-- Between the relay call and the update. -/
structure Paying (worker : Worker) (transfer : ScheduledTransfer) (due : List ScheduledTransfer)
    (agenda : Agenda TransferId Date Worker) : Prop where
  holding : agenda.Holding worker transfer.id
  underway : agenda.Underway transfer.id transfer.nextRunAt
  lists : Lists due agenda

theorem Lists.of_spares {due : List ScheduledTransfer}
    {agenda after : Agenda TransferId Date Worker} {other : Worker} (lists : Lists due agenda)
    (spares : Agenda.Spares other agenda after) : Lists due after :=
  fun transfer member => spares.covered _ _ (lists transfer member)

theorem idle_spared (worker : Worker) (due : List ScheduledTransfer) :
    Spared worker (Idle worker due) :=
  fun _ _ _ different spares idle =>
    ⟨idle.free.of_spares different spares, idle.lists.of_spares spares⟩

theorem ready_spared (worker : Worker) (id : TransferId) (due : List ScheduledTransfer) :
    Spared worker (Ready worker id due) :=
  fun _ _ _ different spares ready =>
    ⟨ready.holding.of_spares different spares,
      ready.clear.of_spares ready.holding different spares, ready.lists.of_spares spares⟩

theorem paying_spared (worker : Worker) (transfer : ScheduledTransfer)
    (due : List ScheduledTransfer) : Spared worker (Paying worker transfer due) :=
  fun _ _ _ different spares paying =>
    ⟨paying.holding.of_spares different spares,
      paying.underway.of_spares paying.holding different spares, paying.lists.of_spares spares⟩

theorem never_spared (worker : Worker) : Spared worker fun _ => False :=
  fun _ _ _ _ _ never => never

theorem Idle.forget {due : List ScheduledTransfer} {agenda : Agenda TransferId Date Worker}
    (idle : Idle worker due agenda) : Idle worker [] agenda :=
  ⟨idle.free, fun _ member => absurd member List.not_mem_nil⟩

theorem Idle.tail {transfer : ScheduledTransfer} {due : List ScheduledTransfer}
    {agenda : Agenda TransferId Date Worker} (idle : Idle worker (transfer :: due) agenda) :
    Idle worker due agenda :=
  ⟨idle.free, fun other member => idle.lists other (List.mem_cons_of_mem _ member)⟩

theorem Ready.tail {id : TransferId} {transfer : ScheduledTransfer} {due : List ScheduledTransfer}
    {agenda : Agenda TransferId Date Worker} (ready : Ready worker id (transfer :: due) agenda) :
    Ready worker id due agenda :=
  ⟨ready.holding, ready.clear,
    fun other member => ready.lists other (List.mem_cons_of_mem _ member)⟩

/-! ## What `async` code meets -/

/-- What is asserted when the code returns, and when it rejects. -/
def Outcome (returns : α → Agenda TransferId Date Worker → Prop)
    (rejects : Agenda TransferId Date Worker → Prop) :
    Except Rejection α → SchedulerWorld Worker → Prop
  | .ok value => Asserted (returns value)
  | .error _ => Asserted rejects

theorem outcome_of_paidTwice {returns : α → Agenda TransferId Date Worker → Prop}
    {rejects : Agenda TransferId Date Worker → Prop} (result : Except Rejection α)
    (world : SchedulerWorld Worker) (twice : PaidTwice world) :
    Outcome returns rejects result world := by
  cases result <;> exact .inl twice

theorem outcome_stable {returns : α → Agenda TransferId Date Worker → Prop}
    {rejects : Agenda TransferId Date Worker → Prop}
    (returned : ∀ value, Spared worker (returns value))
    (rejected : Spared worker rejects) (result : Except Rejection α) :
    Stable (Until PaidTwice Owes) worker (Outcome returns rejects result) := by
  cases result with
  | ok value => exact (returned value).asserted
  | error _ => exact rejected.asserted

/-- Run under the interference of the other workers, the program keeps what its worker owes them
and ends as asserted. -/
def Keeps (workerIdOf : Worker → WorkerId) (worker : Worker) (program : Program Answer α)
    (ends : α → SchedulerWorld Worker → Prop) (world : SchedulerWorld Worker) : Prop :=
  program.wp (perform workerIdOf) Allowed (Until PaidTwice Owes) worker ends world

/-- A triple for `async` code. -/
def Meets (workerIdOf : Worker → WorkerId) (worker : Worker)
    (before : Agenda TransferId Date Worker → Prop) (code : Async α)
    (returns : α → Agenda TransferId Date Worker → Prop)
    (rejects : Agenda TransferId Date Worker → Prop) : Prop :=
  ∀ world, Asserted before world → Keeps workerIdOf worker code.run (Outcome returns rejects) world

section Rules

variable {before between : Agenda TransferId Date Worker → Prop}
  {returns : α → Agenda TransferId Date Worker → Prop}
  {returns' : β → Agenda TransferId Date Worker → Prop}
  {rejects : Agenda TransferId Date Worker → Prop}

theorem Meets.weaken {code : Async α} {weakReturns : α → Agenda TransferId Date Worker → Prop}
    {weakRejects : Agenda TransferId Date Worker → Prop}
    (meets : Meets workerIdOf worker before code returns rejects)
    (returned : ∀ value agenda, returns value agenda → weakReturns value agenda)
    (rejected : ∀ agenda, rejects agenda → weakRejects agenda) :
    Meets workerIdOf worker before code weakReturns weakRejects := by
  intro world asserted
  refine Program.wp_mono (meets world asserted) ?_
  intro result world outcome
  cases result with
  | ok value => exact Asserted.mono outcome (returned value)
  | error _ => exact Asserted.mono outcome rejected

theorem Meets.strengthen {code : Async α} {strong : Agenda TransferId Date Worker → Prop}
    (meets : Meets workerIdOf worker before code returns rejects)
    (stronger : ∀ agenda, strong agenda → before agenda) :
    Meets workerIdOf worker strong code returns rejects :=
  fun world asserted => meets world (asserted.mono stronger)

theorem Meets.pure {value : α} (spared : Spared worker (returns value))
    (returned : ∀ agenda, before agenda → returns value agenda) :
    Meets workerIdOf worker before (pure value) returns rejects :=
  fun _ asserted => Program.wp_done spared.asserted (asserted.mono returned)

theorem Meets.bind {code : Async α} {next : α → Async β}
    (first : Meets workerIdOf worker before code returns rejects)
    (second : ∀ value, Meets workerIdOf worker (returns value) (next value) returns' rejects)
    (spared : Spared worker rejects) :
    Meets workerIdOf worker before (code >>= next) returns' rejects := by
  intro world asserted
  refine Program.wp_bind (Program.wp_mono (first world asserted) ?_)
  intro result world outcome
  cases result with
  | ok value => exact second value world outcome
  | error _ => exact Program.wp_done spared.asserted outcome

/-- `try .. catch`: the rejection becomes a value. -/
theorem Meets.observe {code : Async α}
    (meets : Meets workerIdOf worker before code (fun _ => between) between)
    (spared : Spared worker between) :
    Meets workerIdOf worker before (ExceptT.lift code.run) (fun _ => between) rejects := by
  intro world asserted
  refine Program.wp_bind (Program.wp_mono (meets world asserted) ?_)
  intro result world outcome
  refine Program.wp_done spared.asserted ?_
  cases result with
  | ok value => exact outcome
  | error _ => exact outcome

/-- One awaited call, from what its step does. -/
theorem keeps_awaited {request : SchedulerCall}
    {ends : Answer request → SchedulerWorld Worker → Prop} (spared : Spared worker before)
    (stable : ∀ answer, Stable (Until PaidTwice Owes) worker (ends answer))
    (loses : ∀ answer world, PaidTwice world → ends answer world)
    (step : ∀ world circumstance, PaidSoundly world → before (schedulerAgenda world) →
      Allowed (world.exchange (perform workerIdOf) worker request circumstance) →
        PaidTwice (world.after (perform workerIdOf) worker request circumstance) ∨
          Owes worker world (world.after (perform workerIdOf) worker request circumstance) ∧
            ends (perform workerIdOf worker request circumstance world.state).1
              (world.after (perform workerIdOf) worker request circumstance))
    (world : SchedulerWorld Worker) (asserted : Asserted before world) :
    Keeps workerIdOf worker (awaited request) ends world := by
  refine Program.wp_call_until (fun request circumstance world twice =>
    twice.after workerIdOf request circumstance) loses spared.stable asserted ?_
  intro later circumstance holds permitted
  obtain twice | ⟨owed, ended⟩ := step later circumstance holds.1 holds.2 permitted
  · exact .inl twice
  · exact .inr ⟨owed, Program.wp_done (stable _) ended⟩

end Rules

/-! ## What the calls meet -/

open ScheduledTransferService

/-- A call that is no step of the agenda keeps every assertion. -/
theorem Quiet.outcome {request : SchedulerCall} {circumstance : Circumstance}
    {world : SchedulerWorld Worker} {holds : Agenda TransferId Date Worker → Prop}
    (quiet : Quiet workerIdOf worker request circumstance world) (sound : PaidSoundly world)
    (current : holds (schedulerAgenda world)) :
    Owes worker world (world.after (perform workerIdOf) worker request circumstance) ∧
      Asserted holds (world.after (perform workerIdOf) worker request circumstance) := by
  have owed := quiet.owes sound
  exact ⟨owed, .inr ⟨owed.1, quiet.agenda ▸ current⟩⟩

/-- A call that reads or writes other data than the transfers and the leases. -/
theorem quiet_of_answered {request : SchedulerCall} {circumstance : Circumstance}
    {world : SchedulerWorld Worker} {store : AnyScheduledTransferStore}
    (state : (perform workerIdOf worker request circumstance world.state).2 = world.state ∨
      (perform workerIdOf worker request circumstance world.state).2 = store)
    (transfers : store.transfers = world.state.transfers)
    (leased : ∀ id, world.state.Leased id → store.Leased id)
    (unpaid : paidBy (world.exchange (perform workerIdOf) worker request circumstance) = none)
    (unacquired :
      acquiredBy (world.exchange (perform workerIdOf) worker request circumstance) = none)
    (unreleased :
      releasedBy (world.exchange (perform workerIdOf) worker request circumstance) = none) :
    Quiet workerIdOf worker request circumstance world := by
  refine ⟨unpaid, unacquired, unreleased, ?_, ?_⟩
  · obtain same | same := state
    · rw [same]
    · rw [same, transfers]
  · intro id held
    obtain same | same := state
    · rwa [same]
    · rw [same]
      exact leased id held

theorem listDue_meets (now : Date) :
    Meets workerIdOf worker (Idle worker []) (listDue now) (fun due => Idle worker due)
      (Idle worker []) := by
  refine keeps_awaited (idle_spared worker [])
    (outcome_stable (fun due => idle_spared worker due) (idle_spared worker []))
    outcome_of_paidTwice ?_
  intro world circumstance sound idle permitted
  have quiet : Quiet workerIdOf worker (.listDue now) circumstance world :=
    quiet_of_answered (answered_cases circumstance.fault world.state
      (world.state.listDue now circumstance.databaseNow, world.state)) rfl (fun _ held => held)
      rfl rfl rfl
  obtain ⟨owed, asserted⟩ := quiet.outcome sound idle
  refine .inr ⟨owed, ?_⟩
  cases answer : (perform workerIdOf worker (.listDue now) circumstance world.state).1 with
  | error _ => exact asserted
  | ok due =>
    obtain ⟨listed, -⟩ := carriedOut_of_ok answer
    refine .inr ⟨owed.1, ⟨quiet.agenda ▸ idle.free, ?_⟩⟩
    intro transfer member
    rw [← listed] at member
    obtain ⟨stored, active⟩ := AnyScheduledTransferStore.listDue_spec member
    rw [quiet.agenda]
    exact .inl (fresh_iff.mpr ⟨transfer, stored, active, rfl⟩ :
      (schedulerAgenda world).Fresh transfer.occurrence.1 transfer.occurrence.2)

theorem listExecutions_meets {holds : Agenda TransferId Date Worker → Prop}
    (spared : Spared worker holds) (id : TransferId) :
    Meets workerIdOf worker holds (listExecutions id) (fun _ => holds) holds := by
  refine keeps_awaited spared (outcome_stable (fun _ => spared) spared) outcome_of_paidTwice ?_
  intro world circumstance sound current permitted
  have quiet : Quiet workerIdOf worker (.listExecutions id) circumstance world :=
    quiet_of_answered (answered_cases circumstance.fault world.state
      (world.state.listExecutions id, world.state)) rfl (fun _ held => held) rfl rfl rfl
  obtain ⟨owed, asserted⟩ := quiet.outcome sound current
  refine .inr ⟨owed, ?_⟩
  cases (perform workerIdOf worker (.listExecutions id) circumstance world.state).1 <;>
    exact asserted

theorem mathRandom_meets {holds rejects : Agenda TransferId Date Worker → Prop}
    (spared : Spared worker holds) :
    Meets workerIdOf worker holds mathRandom (fun _ => holds) rejects := by
  have drawn : ∀ world, Asserted holds world →
      Keeps workerIdOf worker (awaited .mathRandom) (fun _ => Asserted holds) world := by
    refine keeps_awaited spared (fun _ => spared.asserted) (fun _ _ => .inl) ?_
    intro world circumstance sound current permitted
    have quiet : Quiet workerIdOf worker .mathRandom circumstance world :=
      quiet_of_answered (.inl rfl) rfl (fun _ held => held) rfl rfl rfl
    exact .inr (quiet.outcome sound current)
  intro world asserted
  refine Program.wp_bind (Program.wp_mono (drawn world asserted) ?_)
  exact fun random world current => Program.wp_done spared.asserted current

/-- An execution is logged: that does not reject where it is followed by the update. -/
theorem appendExecution_meets {holds : Agenda TransferId Date Worker → Prop}
    (spared : Spared worker holds) (log : ScheduledTransferExecutionLog) :
    Meets workerIdOf worker holds (appendExecution log) (fun _ => holds) fun _ => False := by
  refine keeps_awaited spared (outcome_stable (fun _ => spared) (never_spared worker))
    outcome_of_paidTwice ?_
  intro world circumstance sound current permitted
  have quiet : Quiet workerIdOf worker (.appendExecution log) circumstance world :=
    quiet_of_answered (answered_cases circumstance.fault world.state
      ((), world.state.appendExecution log)) (by simp) (fun _ => by simp) rfl rfl rfl
  obtain ⟨owed, asserted⟩ := quiet.outcome sound current
  have calm : circumstance.fault = none := permitted.2
  refine .inr ⟨owed, ?_⟩
  simp only [perform, answered, calm]
  exact asserted

theorem tryAcquireProcessing_meets (id : TransferId) (due : List ScheduledTransfer) :
    Meets workerIdOf worker (Idle worker due) (tryAcquireProcessing id)
      (fun acquired => if acquired then Ready worker id due else Idle worker due)
      (Idle worker []) := by
  have returned : ∀ acquired : Bool,
      Spared worker (if acquired then Ready worker id due else Idle worker due) := by
    intro acquired
    cases acquired with
    | true => exact ready_spared worker id due
    | false => exact idle_spared worker due
  refine keeps_awaited (idle_spared worker due)
    (outcome_stable returned (idle_spared worker [])) outcome_of_paidTwice ?_
  intro world circumstance sound idle permitted
  have refused : acquiredBy (world.exchange (perform workerIdOf) worker
      (.tryAcquireProcessing id) circumstance) = none →
        Quiet workerIdOf worker (.tryAcquireProcessing id) circumstance world := fun unacquired =>
    quiet_of_answered (answered_cases circumstance.fault world.state
      (world.state.tryAcquireProcessing id (workerIdOf worker) circumstance.dateNow
        circumstance.databaseNow))
      (AnyScheduledTransferStore.transfers_tryAcquireProcessing ..)
      (fun _ leased => AnyScheduledTransferStore.leased_tryAcquireProcessing leased ..)
      rfl unacquired rfl
  cases answer : (perform workerIdOf worker (.tryAcquireProcessing id) circumstance
    world.state).1 with
  | error _ =>
    have quiet := refused (by unfold World.exchange acquiredBy; rw [answer])
    obtain ⟨owed, asserted⟩ := quiet.outcome sound idle
    exact .inr ⟨owed, asserted.mono fun _ idle => idle.forget⟩
  | ok acquired =>
    cases acquired with
    | false =>
      have quiet := refused (by unfold World.exchange acquiredBy; rw [answer])
      exact .inr (quiet.outcome sound idle)
    | true =>
      have hold : world.state.LeasesHold circumstance.databaseNow := permitted.1
      obtain ⟨agenda, unlocked, owed⟩ := acquire_step sound idle.free hold answer
      obtain ⟨-, spares, holding, clear⟩ := Agenda.lock_spec sound.tidy idle.free unlocked
      refine .inr ⟨owed, .inr ⟨owed.1, ?_⟩⟩
      rw [agenda]
      exact ⟨holding, clear, idle.lists.of_spares spares⟩

theorem executeRelay_meets (transfer : ScheduledTransfer) (due : List ScheduledTransfer)
    (relayRequest : RelayExecuteRequest) (signedNonce : Option Nat) :
    Meets workerIdOf worker (Ready worker transfer.id (transfer :: due))
      (executeRelay transfer.occurrence relayRequest signedNonce)
      (fun _ => Paying worker transfer due) fun _ => False := by
  refine keeps_awaited (ready_spared worker _ _)
    (outcome_stable (fun _ => paying_spared worker transfer due) (never_spared worker))
    outcome_of_paidTwice ?_
  intro world circumstance sound ready permitted
  have calm : circumstance.fault = none := permitted.2
  obtain fresh | already := ready.lists transfer List.mem_cons_self
  · obtain ⟨agenda, owed⟩ := pay_step transfer.occurrence relayRequest signedNonce circumstance
      sound ready.holding ready.clear fresh
    obtain ⟨-, spares, holding, underway⟩ :=
      Agenda.note_spec sound.tidy ready.holding ready.clear fresh
    refine .inr ⟨owed, ?_⟩
    simp only [perform, answered, calm]
    refine .inr ⟨owed.1, ?_⟩
    rw [agenda]
    exact ⟨holding, underway, ready.tail.lists.of_spares spares⟩
  -- The record has moved on since it was listed: it was paid by another worker.
  · exact .inl (pay_again transfer.occurrence already (ready.clear _ already).not_fresh)

/-- The update moves the record on: to a later run, or out of the active ones, or to a retry. -/
theorem updateAfterExecution_meets (transfer : ScheduledTransfer) (due : List ScheduledTransfer)
    {patch : ExecutionPatch} (notBack : transfer.nextRunAt ≤ patch.nextRunAt)
    (onwards : transfer.nextRunAt = patch.nextRunAt →
      patch.status ≠ .active ∨ 0 < patch.consecutiveFailures) :
    Meets workerIdOf worker (Paying worker transfer due)
      (updateAfterExecution transfer.id patch) (fun _ => Ready worker transfer.id due)
      (Ready worker transfer.id due) := by
  have spared := ready_spared worker transfer.id due
  refine keeps_awaited (paying_spared worker transfer due)
    (outcome_stable (fun _ => spared) spared) outcome_of_paidTwice ?_
  intro world circumstance sound paying permitted
  obtain ⟨carriedOut, accepted, later⟩ :
      circumstance.fault ≠ some .before ∧
        (world.state.updateAfterExecution transfer.id patch).isSome ∧
          RetriesLater world.state transfer.id patch := permitted.2
  have moved : transfer.nextRunAt < patch.nextRunAt ∨
      transfer.nextRunAt = patch.nextRunAt ∧ patch.status ≠ .active := by
    obtain earlier | same := notBack.lt_or_eq
    · exact .inl earlier
    · refine .inr ⟨same, fun active => ?_⟩
      obtain inactive | failures := onwards same
      · exact inactive active
      · have fresh : (schedulerAgenda world).Fresh transfer.occurrence.1 transfer.occurrence.2 :=
          paying.underway.fresh
        obtain ⟨stored, found, -, current⟩ := fresh_iff.mp fresh
        exact later active failures stored found (same.symm.trans current.symm)
  obtain ⟨agenda, owed⟩ :=
    update_step sound paying.holding paying.underway moved carriedOut accepted
  obtain ⟨-, spares, holding, clear⟩ :=
    Agenda.move_spec ⟨patch.nextRunAt, patch.status = .active⟩ sound.tidy paying.holding
      paying.underway (by simpa using moved)
  have ready : Asserted (Ready worker transfer.id due) (world.after (perform workerIdOf) worker
      (.updateAfterExecution transfer.id patch) circumstance) := by
    refine .inr ⟨owed.1, ?_⟩
    rw [agenda]
    exact ⟨holding, clear, paying.lists.of_spares spares⟩
  refine .inr ⟨owed, ?_⟩
  cases (perform workerIdOf worker (.updateAfterExecution transfer.id patch) circumstance
    world.state).1 <;> exact ready

theorem releaseProcessing_meets (id : TransferId) (due : List ScheduledTransfer) :
    Meets workerIdOf worker (Ready worker id due) (releaseProcessing id)
      (fun _ => Idle worker due) (Idle worker []) := by
  refine keeps_awaited (ready_spared worker id due)
    (outcome_stable (fun _ => idle_spared worker due) (idle_spared worker []))
    outcome_of_paidTwice ?_
  intro world circumstance sound ready permitted
  obtain ⟨agenda, owed⟩ := release_step workerIdOf circumstance
    sound ready.holding ready.clear
  obtain ⟨-, spares, free⟩ := Agenda.unlock_spec sound.tidy ready.holding ready.clear
  have idle : Asserted (Idle worker due) (world.after (perform workerIdOf) worker
      (.releaseProcessing id) circumstance) := by
    refine .inr ⟨owed.1, ?_⟩
    rw [agenda]
    exact ⟨free, ready.lists.of_spares spares⟩
  refine .inr ⟨owed, ?_⟩
  cases (perform workerIdOf worker (.releaseProcessing id) circumstance world.state).1 with
  | ok _ => exact idle
  | error _ => exact idle.mono fun _ idle => idle.forget

/-! ## What the service meets -/

theorem recordSuccess_meets {transfer : ScheduledTransfer} {now : Date}
    (notEarly : transfer.nextRunAt ≤ now) (due : List ScheduledTransfer) :
    Meets workerIdOf worker (Paying worker transfer due) (recordSuccess transfer now)
      (fun _ => Ready worker transfer.id due) (Ready worker transfer.id due) := by
  unfold recordSuccess
  split
  · rename_i nextRunAt recurs
    have later := notEarly.trans_lt (lt_of_computeNextRunAt recurs)
    exact updateAfterExecution_meets transfer due later.le fun same => absurd same later.ne
  · exact updateAfterExecution_meets transfer due le_rfl fun _ => .inl (by simp)

theorem recordFailure_meets {transfer : ScheduledTransfer} {now : Date}
    (notEarly : transfer.nextRunAt ≤ now) (due : List ScheduledTransfer) :
    Meets workerIdOf worker (Paying worker transfer due) (recordFailure transfer now)
      (fun _ => Ready worker transfer.id due) (Ready worker transfer.id due) := by
  unfold recordFailure
  dsimp only
  split
  · exact updateAfterExecution_meets transfer due le_rfl fun _ => .inl (by simp)
  · split
    · exact updateAfterExecution_meets transfer due le_rfl fun _ => .inl (by simp)
    · refine (mathRandom_meets (paying_spared worker transfer due)).bind (fun random => ?_)
        (ready_spared worker transfer.id due)
      exact updateAfterExecution_meets transfer due
        (notEarly.trans (le_nextRetryAfter _ now random)) fun _ => .inr (Nat.succ_pos _)

/-- The lease is kept throughout, and what was paid is moved on. -/
theorem executeTransfer_meets {transfer : ScheduledTransfer} {now : Date}
    (notEarly : transfer.nextRunAt ≤ now) (due : List ScheduledTransfer) :
    Meets workerIdOf worker (Ready worker transfer.id (transfer :: due))
      (executeTransfer transfer now) (fun _ => Ready worker transfer.id due)
      (Ready worker transfer.id due) := by
  have spared := ready_spared worker transfer.id due
  unfold executeTransfer
  have lists : Meets workerIdOf worker (Ready worker transfer.id (transfer :: due))
      (listExecutions transfer.id) (fun _ => Ready worker transfer.id (transfer :: due))
      (Ready worker transfer.id due) :=
    (listExecutions_meets (ready_spared worker transfer.id (transfer :: due))
      transfer.id).weaken (fun _ _ ready => ready) fun _ ready => ready.tail
  have pays : ∀ relayRequest signedNonce,
      Meets workerIdOf worker (Ready worker transfer.id (transfer :: due))
        (executeRelay transfer.occurrence relayRequest signedNonce)
        (fun _ => Paying worker transfer due) (Ready worker transfer.id due) :=
    fun relayRequest signedNonce => (executeRelay_meets transfer due relayRequest
      signedNonce).weaken (fun _ _ paying => paying) fun _ never => never.elim
  have logs : ∀ log, Meets workerIdOf worker (Paying worker transfer due) (appendExecution log)
      (fun _ => Paying worker transfer due) (Ready worker transfer.id due) :=
    fun log => (appendExecution_meets (paying_spared worker transfer due) log).weaken
      (fun _ _ paying => paying) fun _ never => never.elim
  refine lists.bind (fun executions => (pays _ _).bind (fun response => ?_) spared) spared
  refine (logs _).bind (fun _ => ?_) spared
  split
  · exact recordSuccess_meets notEarly due
  · exact recordFailure_meets notEarly due

/-- The loop, by induction on the transfers still to come. -/
theorem processEach_meets (now : Date) (due : List ScheduledTransfer) (processed : Nat) :
    Meets workerIdOf worker (Idle worker due) (processEach now due processed)
      (fun _ => Idle worker []) (Idle worker []) := by
  induction due generalizing processed with
  | nil => exact Meets.pure (idle_spared worker []) fun _ idle => idle
  | cons transfer due inductionHypothesis =>
    unfold processEach
    split
    · rename_i isDue
      have notEarly : transfer.nextRunAt ≤ now := of_decide_eq_true isDue
      refine (tryAcquireProcessing_meets transfer.id (transfer :: due)).bind (fun acquired => ?_)
        (idle_spared worker [])
      cases acquired with
      | false => exact (inductionHypothesis processed).strengthen fun _ idle => idle.tail
      | true =>
        refine ((executeTransfer_meets notEarly due).observe
          (ready_spared worker transfer.id due)).bind (fun executed => ?_) (idle_spared worker [])
        exact (releaseProcessing_meets transfer.id due).bind
          (fun _ => inductionHypothesis _) (idle_spared worker [])
    · exact (inductionHypothesis processed).strengthen fun _ idle => idle.tail

theorem processDueTransfers_meets (now : Date) :
    Meets workerIdOf worker (Idle worker []) (processDueTransfers now)
      (fun _ => Idle worker []) (Idle worker []) :=
  (listDue_meets now).bind (fun due => processEach_meets now due 0) (idle_spared worker [])

theorem tick_keeps (now : Date) (world : SchedulerWorld Worker)
    (idle : Asserted (Idle worker []) world) :
    Keeps workerIdOf worker (tick now) (fun _ => Asserted (Idle worker [])) world := by
  refine Program.wp_bind (Program.wp_mono (processDueTransfers_meets now world idle) ?_)
  intro result world outcome
  refine Program.wp_done (idle_spared worker []).asserted ?_
  cases result with
  | ok _ => exact outcome
  | error _ => exact outcome

/-! ## Runs -/

theorem paidSoundly_of_untouched (store : AnyScheduledTransferStore) :
    PaidSoundly (World.mk store [] : SchedulerWorld Worker) where
  current := fun _ member => absurd member List.not_mem_nil
  leased := fun _ _ held => by cases held
  tidy := ⟨List.nodup_nil, fun _ _ _ member => absurd member List.not_mem_nil⟩

/-- Every run pays each occurrence at most once, or pays one twice through a stale record. -/
theorem run_pays [DecidableEq Worker] (workerIdOf : Worker → WorkerId)
    (store : AnyScheduledTransferStore) (turns : List (Turn Worker Date Circumstance))
    (allowed : ∀ exchange ∈ (schedulerRun workerIdOf store turns).world.exchanges,
      Allowed exchange) :
    Asserted (fun _ => True) (schedulerRun workerIdOf store turns).world := by
  have untouched : PaidSoundly (World.mk store [] : SchedulerWorld Worker) :=
    paidSoundly_of_untouched store
  refine invariant_of_run (fun worker now world idle => tick_keeps now world idle) ?_
    (fun worker => (idle_spared worker []).asserted) (.inr ⟨untouched, trivial⟩) ?_ turns allowed
  · rintro worker before after ⟨stays, twice | owed⟩ -
    · exact .inl twice
    · exact .inr ⟨owed.1, trivial⟩
  · intro worker
    refine .inr ⟨untouched, ?_, fun _ member => absurd member List.not_mem_nil⟩
    intro id held
    cases held

/-- While no lease expires and every paid occurrence is moved on, `executeRelay` is called at
most once for each occurrence exactly when each call finds the record still at its occurrence. -/
theorem each_occurrence_paid_once_iff [DecidableEq Worker] (workerIdOf : Worker → WorkerId)
    (store : AnyScheduledTransferStore) (turns : List (Turn Worker Date Circumstance))
    (leasesHold : ∀ exchange ∈ (schedulerRun workerIdOf store turns).world.exchanges,
      LeasesHold exchange)
    (movesOn : ∀ exchange ∈ (schedulerRun workerIdOf store turns).world.exchanges,
      MovesOn exchange) :
    (relayed (schedulerRun workerIdOf store turns).world.exchanges).Nodup ↔
      ∀ exchange ∈ (schedulerRun workerIdOf store turns).world.exchanges,
        RelaysCurrent exchange := by
  have outcome := run_pays workerIdOf store turns fun exchange member =>
    ⟨leasesHold exchange member, movesOn exchange member⟩
  obtain ⟨doubled, stale⟩ | ⟨sound, -⟩ := outcome
  · exact ⟨fun once => absurd once doubled, fun current => absurd current stale⟩
  · exact ⟨fun _ => sound.current, fun _ => sound.tidy.once⟩

/-! ### A stale record -/

theorem each_occurrence_paid_once_of_sample :
    (relayed (schedulerRun id dailyStore (.start 0 1000 :: resumed 0 7)).world.exchanges).Nodup :=
  (each_occurrence_paid_once_iff id dailyStore (.start 0 1000 :: resumed 0 7) (by decide)
    (by decide)).mpr (by decide)

/-- Two workers list the transfer, one executes it and releases its lease, and the other one
acquires the lease and executes it again. -/
theorem listed_twice_paid_twice :
    (∀ exchange ∈ (schedulerRun id dailyStore ([.start 0 1000, .start 1 1000] ++ resumed 0 1 ++
        resumed 1 1 ++ resumed 0 6 ++ resumed 1 3)).world.exchanges, LeasesHold exchange) ∧
      ¬ (relayed (schedulerRun id dailyStore ([.start 0 1000, .start 1 1000] ++ resumed 0 1 ++
        resumed 1 1 ++ resumed 0 6 ++ resumed 1 3)).world.exchanges).Nodup := by
  decide

end Ancore.Relayer
