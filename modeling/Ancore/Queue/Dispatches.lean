import Ancore.Queue.Accounts

/-! # How often a job is dispatched

Attempts are counted when a job is given back.  In memory a job that is not given
back stays in processing for good; in Postgres it is dequeued again after five
minutes, and that is counted nowhere.  So a job is dispatched as often as its
attempts allow where it is not dequeued in processing, and one whose workers crash
is never dead in either queue. -/

namespace Ancore.Queue

open Ancore.Library

variable {Worker : Type}

/-! ## In memory -/

namespace JobQueue

def report (exchange : MethodExchange Worker) : Option Report :=
  match exchange with
  | ⟨_, _, .ask .dequeue, _, .ok (some job)⟩ => some (.got job.id)
  | ⟨_, _, .ask (.ack id), _, _⟩ => some (.done id)
  | ⟨_, _, .ask (.nack id _), _, _⟩ => some (.done id)
  | _ => none

def dispatches (id : String) (exchanges : List (MethodExchange Worker)) : Nat :=
  dispatchesOf report id exchanges

/-- `randomUUID` draws an id that is not there. -/
def DrawsFresh (exchange : MethodExchange Worker) : Prop :=
  match exchange.request with
  | .ask (.enqueue _) => exchange.found.getById exchange.circumstance.randomUUID = none
  | _ => True

instance (exchange : MethodExchange Worker) : Decidable (DrawsFresh exchange) :=
  match exchange with
  | ⟨_, _, .ask (.enqueue _), _, _⟩ => inferInstanceAs (Decidable (_ = none))
  | ⟨_, _, .ask .dequeue, _, _⟩ => isTrue trivial
  | ⟨_, _, .ask (.ack _), _, _⟩ => isTrue trivial
  | ⟨_, _, .ask (.nack _ _), _, _⟩ => isTrue trivial
  | ⟨_, _, .ask (.getById _), _, _⟩ => isTrue trivial
  | ⟨_, _, .handle _, _, _⟩ => isTrue trivial

/-- The account of a job in memory. -/
abbrev account (id : String) (world : MethodWorld Worker) : Account Worker :=
  accountOf report getById id world

section Steps

variable {id held : String} {worker : Worker} {call : Call Method} {circumstance : Circumstance}
  {world : MethodWorld Worker} {options : EnqueueOptions} {message : String}

/-- A job is enqueued. -/
theorem step_enqueue (fresh : DrawsFresh (world.exchange (performWith carryOut) worker
      (.ask (.enqueue options)) circumstance)) :
    Account.Step worker (account id world)
      (account id (world.after (performWith carryOut) worker (.ask (.enqueue options))
        circumstance)) := by
  obtain unchanged | ⟨requestId, enqueued⟩ := getById_enqueue world.state
    options circumstance.randomUUID circumstance.dateNow
  · exact step_of_same nofun nofun (congrArg (getById · id) unchanged)
  · by_cases drawn : id = circumstance.randomUUID
    · have absent : world.state.getById id = none := drawn ▸ fresh
      refine step_of_ne nofun nofun ?_
      change Account.Step worker ⟨world.state.getById id, _, _⟩
        ⟨(world.state.enqueue options _ _).2.getById id, _, _⟩
      rw [enqueued, if_pos drawn, absent]
      exact .enqueued rfl rfl
    · exact step_of_same nofun nofun ((enqueued id).trans (if_neg drawn))

/-- A worker polls; what it gets was pending. -/
theorem step_dequeue (id : String) {answer : Except String (Option Job)}
    (answered : (performWith carryOut worker (.ask .dequeue) circumstance world.state).1 = answer) :
    Account.Step worker (account id world)
        (account id (world.after (performWith carryOut) worker (.ask .dequeue) circumstance)) ∧
      ∀ job, answer = .ok (some job) → job.id = id →
        (account id (world.after (performWith carryOut) worker (.ask .dequeue)
          circumstance)).holder = some worker := by
  have performed : performWith carryOut worker (.ask .dequeue) circumstance world.state =
      (world.state.dequeue circumstance.dateNow).map .ok fun queue => queue := rfl
  obtain nothing | ⟨job, isThere, eligible, found, after⟩ :=
    dequeue_cases world.state circumstance.dateNow
  · rw [nothing] at performed
    have unreported : report (world.exchange (performWith carryOut) worker (.ask .dequeue)
        circumstance) = none := by
      unfold World.exchange
      rw [performed]
      rfl
    refine ⟨step_of_same (by rw [unreported]; nofun) (by rw [unreported]; nofun)
      (by rw [performed]; rfl), ?_⟩
    rintro job rfl
    rw [performed] at answered
    cases answered
  · have got : (performWith carryOut worker (.ask .dequeue) circumstance world.state).1 =
        .ok (some (job.taken circumstance.dateNow)) := congrArg Except.ok found
    have reported : report (world.exchange (performWith carryOut) worker (.ask .dequeue)
        circumstance) = some (.got job.id) := by
      unfold World.exchange
      rw [got]
      rfl
    have pending : job.status = .pending := by
      simpa using (Bool.and_eq_true_iff.mp eligible).1
    refine ⟨step_of_taken isThere after reported fun _ => pending, ?_⟩
    rintro found rfl own
    rw [got] at answered
    cases answered
    exact holder_after_got (own ▸ reported)

/-- A job that the worker holds is acknowledged. -/
theorem step_ack (holding : held = id → (account id world).holder = some worker) :
    Account.Step worker (account id world)
      (account id (world.after (performWith carryOut) worker (.ask (.ack held))
        circumstance)) := by
  refine step_of_finished rfl (fun other => getById_ack) holding fun _ _ => ?_
  cases world.state.getById held with
  | none => exact .dropped
  | some job => exact .acked (.inl rfl)

/-- A job that the worker holds is given back. -/
theorem step_nack (holding : held = id → (account id world).holder = some worker) :
    Account.Step worker (account id world)
      (account id (world.after (performWith carryOut) worker (.ask (.nack held message))
        circumstance)) := by
  obtain ⟨-, unchanged⟩ | ⟨job, changed, isThere, retried, after⟩ :=
    nack_cases world.state held message circumstance.random circumstance.dateNow
  · exact step_of_dropped rfl unchanged holding
  · refine step_of_finished rfl after holding fun _ _ => ?_
    rw [isThere]
    obtain rfl | ⟨left, retryAfter, rfl⟩ := retried
    · exact .buried
    · exact .retried left

end Steps

theorem accountStep (id : String) :
    OutlineStep (@performWith Method Method.Value JobQueue Worker carryOut) Next
      (fun exchange _ => DrawsFresh exchange) (fun world => (account id world).Balanced)
      (fun worker stage world => stage.Knows id worker (account id world)) := by
  refine outlineStep_of_accounts ?_
  intro worker stage call circumstance onward world knows made fresh
  generalize answer : (performWith carryOut worker call circumstance world.state).1 = answered
    at made
  cases made with
  | enqueued => exact ⟨step_enqueue fresh, trivial⟩
  | dequeued =>
    obtain ⟨stepped, got⟩ := step_dequeue id answer
    exact ⟨stepped, got _ rfl⟩
  | nothing => exact ⟨(step_dequeue id answer).1, trivial⟩
  | undequeued => exact ⟨(step_dequeue id answer).1, trivial⟩
  | handled =>
    refine ⟨step_of_same nofun nofun rfl, fun own => ?_⟩
    refine (congrArg Account.holder (accountOf_after_of_ne ?_ ?_)).trans (knows own)
    · nofun
    · nofun
  | acked => exact ⟨step_ack knows, trivial⟩
  | unacked => cases answer
  | nacked => exact ⟨step_nack knows, trivial⟩
  | read => exact ⟨step_of_same nofun nofun rfl, trivial⟩

/-- In memory a job is dispatched as often as it is allowed to. -/
theorem dispatches_le [DecidableEq Worker] (handlers : HandlerRegistry) (queue : JobQueue)
    {id : String} (absent : queue.getById id = none)
    (turns : List (Turn Worker QueueTask Circumstance))
    (fresh : ∀ exchange ∈ (jobQueueRun handlers queue turns).world.exchanges, DrawsFresh exchange)
    {job : Job} (found : (jobQueueRun handlers queue turns).world.state.getById id = some job) :
    dispatches id (jobQueueRun handlers queue turns).world.exchanges ≤ job.allowed := by
  have initial : (account id (World.mk queue [] : MethodWorld Worker)).Balanced := by
    change Account.Balanced ⟨queue.getById id, 0, none⟩
    rw [absent]
    exact ⟨rfl, rfl⟩
  have balanced := (invariant_of_outline (work_follows contract_follows) (accountStep id) initial
    (fun worker => ⟨.idle, rfl, trivial⟩) turns
    (historically_of_forall fun exchange member _ => fresh exchange member)).1
  exact balanced.le_allowed found

end JobQueue

/-! ## In Postgres -/

namespace JobTable

def report (exchange : StatementExchange Worker) : Option Report :=
  match exchange with
  | ⟨_, _, .ask .dequeue, _, .ok (some job)⟩ => some (.got job.id)
  | ⟨_, _, .ask (.ack id), _, .ok ()⟩ => some (.done id)
  | ⟨_, _, .ask (.bury id _ _), _, _⟩ => some (.done id)
  | ⟨_, _, .ask (.retry id _ _), _, _⟩ => some (.done id)
  | _ => none

def dispatches (id : String) (exchanges : List (StatementExchange Worker)) : Nat :=
  dispatchesOf report id exchanges

/-- The job is not dequeued while it is in processing. -/
def NotReclaimed (id : String) (exchange : StatementExchange Worker) : Prop :=
  ∀ job ∈ dequeued exchange, job.id = id → exchange.found.statusOf id ≠ some .processing

instance (id : String) (exchange : StatementExchange Worker) :
    Decidable (NotReclaimed id exchange) :=
  inferInstanceAs (Decidable (∀ _ ∈ _, _))

/-- The account of a job in Postgres. -/
abbrev account (id : String) (world : StatementWorld Worker) : Account Worker :=
  accountOf report getById id world

section Steps

variable {id held : String} {worker : Worker} {call : Call Statement} {circumstance : Circumstance}
  {world : StatementWorld Worker} {options : EnqueueOptions} {message : String} {attempts : Nat}

/-- A job is enqueued. -/
theorem step_insertJob :
    Account.Step worker (account id world)
      (account id (world.after (performWith carryOut) worker (.ask (.insertJob options))
        circumstance)) := by
  obtain ⟨unchanged, -⟩ | ⟨inserted, executed, -⟩ := carryOut_cases
    (.insertJob options) circumstance world.state
  · exact step_of_same nofun nofun (congrArg (getById · id) unchanged)
  · obtain unchanged | ⟨absent, after⟩ := insertJob_cases executed
    · exact step_of_same nofun nofun (congrArg (getById · id) unchanged)
    · by_cases drawn : id = circumstance.randomUUID
      · refine step_of_ne nofun nofun ?_
        change Account.Step worker ⟨world.state.getById id, _, _⟩
          ⟨(carryOut (.insertJob options) circumstance world.state).2.getById id, _, _⟩
        rw [after, if_pos drawn, drawn, absent]
        exact .enqueued rfl rfl
      · exact step_of_same nofun nofun ((after id).trans (if_neg drawn))

theorem pending_of_eligible {job : Job} {now : Millis} (eligible : isEligible now job = true)
    (notProcessing : job.status ≠ .processing) : job.status = .pending := by
  unfold isEligible at eligible
  cases status : job.status with
  | pending => rfl
  | processing => exact absurd status notProcessing
  | completed => simp [status] at eligible
  | failed => simp [status] at eligible
  | dead => simp [status] at eligible

/-- A worker polls; what it gets was pending, unless it is reclaimed. -/
theorem step_dequeue {answer : Except String (Option Job)}
    (answered : (performWith carryOut worker (.ask .dequeue) circumstance world.state).1 = answer)
    (notReclaimed : NotReclaimed id (world.exchange (performWith carryOut) worker (.ask .dequeue)
      circumstance)) :
    Account.Step worker (account id world)
        (account id (world.after (performWith carryOut) worker (.ask .dequeue) circumstance)) ∧
      ∀ job, answer = .ok (some job) → job.id = id →
        (account id (world.after (performWith carryOut) worker (.ask .dequeue)
          circumstance)).holder = some worker := by
  have reports : report (world.exchange (performWith carryOut) worker (.ask .dequeue)
      circumstance) = report ⟨worker, world.state, .ask .dequeue, circumstance, answer⟩ :=
    congrArg (fun answer => report ⟨worker, world.state, .ask .dequeue, circumstance, answer⟩)
      answered
  obtain ⟨unchanged, message, failed⟩ | ⟨value, executed, result⟩ :=
    carryOut_cases .dequeue circumstance world.state
  · obtain rfl : .error message = answer := failed.symm.trans answered
    refine ⟨step_of_same (by rw [reports]; nofun) (by rw [reports]; nofun)
      (congrArg (getById · id) unchanged), fun job isJob => ?_⟩
    cases isJob
  · obtain ⟨rfl, unchanged⟩ | ⟨job, isThere, eligible, rfl, after⟩ := dequeue_cases executed
    · have nobody : ∀ job, answer ≠ .ok (some job) := by
        rintro job rfl
        obtain nothing | ⟨message, failed⟩ := result
        · cases nothing.symm.trans answered
        · cases failed.symm.trans answered
      have unreported : report (⟨worker, world.state, .ask .dequeue, circumstance, answer⟩ :
          StatementExchange Worker) = none := by
        match answer with
        | .ok none => rfl
        | .ok (some job) => exact absurd rfl (nobody job)
        | .error message => rfl
      exact ⟨step_of_same (by rw [reports, unreported]; nofun) (by rw [reports, unreported]; nofun)
        (congrArg (getById · id) unchanged), fun job isJob => absurd isJob (nobody job)⟩
    · obtain got | ⟨message, failed⟩ := result
      · obtain rfl : .ok (some (job.taken circumstance.databaseNow)) = answer :=
          got.symm.trans answered
        have pending (same : job.id = id) : job.status = .pending := by
          subst same
          refine pending_of_eligible eligible fun processing => ?_
          refine notReclaimed (job.taken circumstance.databaseNow) ?_ rfl
            ((congrArg (Option.map Job.status) isThere).trans (congrArg some processing))
          unfold World.exchange
          rw [answered]
          exact rfl
        refine ⟨step_of_taken isThere after reports pending, ?_⟩
        rintro found isFound own
        cases isFound
        subst own
        exact holder_after_got reports
      · obtain rfl : .error message = answer := failed.symm.trans answered
        refine ⟨step_of_lost isThere after reports, fun job isJob => ?_⟩
        cases isJob

/-- A job is acknowledged, but its worker does not learn of it. -/
theorem step_of_unacked {now : Millis}
    (after : (carryOut (.ack held) circumstance world.state).2.getById id =
      if id = held then (world.state.getById held).map fun job => job.acked now
      else world.state.getById id)
    (unreported : report (world.exchange (performWith carryOut) worker (.ask (.ack held))
      circumstance) = none)
    (holding : held = id → (account id world).holder = some worker) :
    Account.Step worker (account id world)
      (account id (world.after (performWith carryOut) worker (.ask (.ack held))
        circumstance)) := by
  refine step_of_ne (by rw [unreported]; nofun) (by rw [unreported]; nofun) ?_
  by_cases same : held = id
  · subst same
    change Account.Step worker ⟨world.state.getById held, _, (account held world).holder⟩
      ⟨(carryOut (.ack held) circumstance world.state).2.getById held, _,
        (account held world).holder⟩
    rw [holding rfl, after, if_pos rfl]
    cases world.state.getById held with
    | none => exact .stays
    | some job => exact .acked (.inr rfl)
  · change Account.Step worker ⟨world.state.getById id, _, _⟩
      ⟨(carryOut (.ack held) circumstance world.state).2.getById id, _, _⟩
    rw [after, if_neg (Ne.symm same)]
    exact .stays

/-- A job that the worker holds is acknowledged, or still held where that fails. -/
theorem step_ack {answer : Except String Unit}
    (answered :
      (performWith carryOut worker (.ask (.ack held)) circumstance world.state).1 = answer)
    (holding : held = id → (account id world).holder = some worker) :
    Account.Step worker (account id world)
        (account id (world.after (performWith carryOut) worker (.ask (.ack held)) circumstance)) ∧
      ∀ message, answer = .error message → held = id →
        (account id (world.after (performWith carryOut) worker (.ask (.ack held))
          circumstance)).holder = some worker := by
  have reports : report (world.exchange (performWith carryOut) worker (.ask (.ack held))
      circumstance) = report ⟨worker, world.state, .ask (.ack held), circumstance, answer⟩ :=
    congrArg (fun answer => report ⟨worker, world.state, .ask (.ack held), circumstance, answer⟩)
      answered
  obtain ⟨unchanged, message, failed⟩ | ⟨_, executed, -⟩ :=
    carryOut_cases (.ack held) circumstance world.state
  · obtain rfl : .error message = answer := failed.symm.trans answered
    refine ⟨step_of_same (by rw [reports]; nofun) (by rw [reports]; nofun)
      (congrArg (getById · id) unchanged), fun _ _ own => ?_⟩
    exact (holder_after_of_ne (by rw [reports]; nofun) (by rw [reports]; nofun)).trans (holding own)
  · cases answer with
    | ok _ =>
      refine ⟨step_of_finished reports (fun other => getById_of_ack executed) holding fun _ _ => ?_,
        nofun⟩
      cases world.state.getById held with
      | none => exact .dropped
      | some job => exact .acked (.inl rfl)
    | error message =>
      refine ⟨step_of_unacked (getById_of_ack executed) reports holding, fun _ _ own => ?_⟩
      exact (holder_after_of_ne (by rw [reports]; nofun) (by rw [reports]; nofun)).trans
        (holding own)

/-- A job that the worker holds is dead, unless that fails. -/
theorem step_bury (holding : held = id → (account id world).holder = some worker) :
    Account.Step worker (account id world)
      (account id (world.after (performWith carryOut) worker (.ask (.bury held attempts message))
        circumstance)) := by
  obtain ⟨unchanged, -⟩ | ⟨_, executed, -⟩ :=
    carryOut_cases (.bury held attempts message) circumstance world.state
  · exact step_of_dropped rfl unchanged holding
  · refine step_of_finished rfl (fun other => getById_of_bury executed) holding fun _ _ => ?_
    cases world.state.getById held with
    | none => exact .dropped
    | some job => exact .buried

/-- A job that the worker holds is given back after one more attempt, unless that fails. -/
theorem step_retry {currentAttempts maxAttempts : Nat}
    (holding : held = id → (account id world).holder = some worker ∧
      (account id world).counts = some (currentAttempts, maxAttempts))
    (left : ¬ currentAttempts + 1 ≥ maxAttempts) :
    Account.Step worker (account id world)
      (account id (world.after (performWith carryOut) worker
        (.ask (.retry held (currentAttempts + 1) message)) circumstance)) := by
  obtain ⟨unchanged, -⟩ | ⟨_, executed, -⟩ :=
    carryOut_cases (.retry held (currentAttempts + 1) message) circumstance world.state
  · exact step_of_dropped rfl unchanged fun same => (holding same).1
  · obtain ⟨retryAfter, after⟩ := getById_of_retry executed
    refine step_of_finished rfl after (fun same => (holding same).1) fun same dispatches => ?_
    subst same
    have counts : (world.state.getById held).map (fun job => (job.attempts, job.maxAttempts)) =
        some (currentAttempts, maxAttempts) := (holding rfl).2
    cases isThere : world.state.getById held with
    | none =>
      rw [isThere] at counts
      cases counts
    | some job =>
      rw [isThere] at counts
      cases counts
      exact .retried (Nat.lt_of_not_ge left)

/-- The attempts of a job that the worker holds are read. -/
theorem counts_of_select {currentAttempts maxAttempts : Nat}
    (answered : (performWith carryOut worker (.ask (.selectAttempts held)) circumstance
      world.state).1 = .ok (some (currentAttempts, maxAttempts))) (own : held = id) :
    (account id (world.after (performWith carryOut) worker (.ask (.selectAttempts held))
      circumstance)).counts = some (currentAttempts, maxAttempts) := by
  subst own
  have unchanged : (carryOut (.selectAttempts held) circumstance world.state).2 = world.state :=
    unchanged_of_read rfl
  change ((carryOut (.selectAttempts held) circumstance world.state).2.getById held).map _ = _
  rw [unchanged]
  obtain ⟨-, message, failed⟩ | ⟨value, executed, found | ⟨message, failed⟩⟩ :=
    carryOut_cases (.selectAttempts held) circumstance world.state
  · cases failed.symm.trans answered
  · obtain rfl : value = some (currentAttempts, maxAttempts) :=
      Except.ok.inj (found.symm.trans answered)
    exact (Prod.mk.inj (Except.ok.inj executed)).1
  · cases failed.symm.trans answered

end Steps

theorem accountStep (id : String) :
    OutlineStep (@performWith Statement Statement.Value JobTable Worker carryOut) PgJobQueue.Next
      (fun exchange _ => NotReclaimed id exchange) (fun world => (account id world).Balanced)
      (fun worker stage world => stage.Knows id worker (account id world)) := by
  refine outlineStep_of_accounts ?_
  intro worker stage call circumstance onward world knows made notReclaimed
  have quiet {statement : Statement} {value : statement.Value}
      (reads : world.state.execute statement circumstance = .ok (value, world.state)) :
      (performWith carryOut worker (.ask statement) circumstance world.state).2.getById id =
        world.state.getById id :=
    congrArg (getById · id) (unchanged_of_read reads)
  generalize answer : (performWith carryOut worker call circumstance world.state).1 = answered
    at made
  cases made with
  | searched => exact ⟨step_of_same nofun nofun (quiet rfl), trivial⟩
  | inserted => exact ⟨step_insertJob, trivial⟩
  | dequeued =>
    obtain ⟨stepped, got⟩ := step_dequeue answer notReclaimed
    exact ⟨stepped, got _ rfl⟩
  | nothing => exact ⟨(step_dequeue answer notReclaimed).1, trivial⟩
  | undequeued => exact ⟨(step_dequeue answer notReclaimed).1, trivial⟩
  | handled =>
    refine ⟨step_of_same nofun nofun rfl, fun own => ?_⟩
    refine (holder_after_of_ne ?_ ?_).trans (knows own)
    · nofun
    · nofun
  | acked => exact ⟨(step_ack answer knows).1, trivial⟩
  | unacked =>
    obtain ⟨stepped, still⟩ := step_ack answer knows
    exact ⟨stepped, still _ rfl⟩
  | counted =>
    refine ⟨step_of_same nofun nofun (quiet rfl), fun own => ⟨?_, counts_of_select answer own⟩⟩
    refine (holder_after_of_ne ?_ ?_).trans (knows own)
    · nofun
    · nofun
  | missing => exact ⟨step_of_same nofun nofun (quiet rfl), trivial⟩
  | uncounted => exact ⟨step_of_same nofun nofun (quiet rfl), trivial⟩
  | buried exhausted => exact ⟨step_bury fun own => (knows own).1, trivial⟩
  | retried left => exact ⟨step_retry knows left, trivial⟩
  | read => exact ⟨step_of_same nofun nofun (quiet rfl), trivial⟩

/-- In Postgres a job is dispatched as often as it is allowed to, where it is not reclaimed. -/
theorem dispatches_le [DecidableEq Worker] (handlers : HandlerRegistry) (table : JobTable)
    {id : String} (absent : table.getById id = none)
    (turns : List (Turn Worker QueueTask Circumstance))
    (notReclaimed : ∀ exchange ∈ (pgJobQueueRun handlers table turns).world.exchanges,
      NotReclaimed id exchange)
    {job : Job} (found : (pgJobQueueRun handlers table turns).world.state.getById id = some job) :
    dispatches id (pgJobQueueRun handlers table turns).world.exchanges ≤ job.allowed := by
  have initial : (account id (World.mk table [] : StatementWorld Worker)).Balanced := by
    change Account.Balanced ⟨table.getById id, 0, none⟩
    rw [absent]
    exact ⟨rfl, rfl⟩
  have balanced := (invariant_of_outline (work_follows PgJobQueue.contract_follows) (accountStep id)
    initial (fun worker => ⟨.idle, rfl, trivial⟩) turns
    (historically_of_forall fun exchange member _ => notReclaimed exchange member)).1
  exact balanced.le_allowed found

end JobTable

end Ancore.Queue
