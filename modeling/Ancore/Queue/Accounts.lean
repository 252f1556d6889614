import Ancore.Queue.Stages

/-! # What a job's dispatches are accounted for by

An account of a job is the job, how often workers got it, and who holds it.  A worker
takes a pending job, and its attempts are counted when it is given back; as long as
no job is taken while it is in processing, it is not taken more often than its
attempts allow.  The calls on either queue are such steps. -/

namespace Ancore.Queue

open Ancore.Library

variable {Worker : Type}

structure Account (Worker : Type) where
  job : Option Job
  dispatches : Nat
  holder : Option Worker

/-- The attempts that are made at most: there is one even where none is allowed. -/
def Job.allowed (job : Job) : Nat := max 1 job.maxAttempts

/-- What a step of a worker makes of the account. -/
inductive Account.Step (worker : Worker) : Account Worker → Account Worker → Prop
  | stays {account} : Step worker account account
  | enqueued {job dispatches holder} (pending : job.status = .pending)
      (unattempted : job.attempts = 0) :
      Step worker ⟨none, dispatches, holder⟩ ⟨some job, dispatches, holder⟩
  | taken {job dispatches holder now} (pending : job.status = .pending) :
      Step worker ⟨some job, dispatches, holder⟩
        ⟨some (job.taken now), dispatches + 1, some worker⟩
  | lost {job dispatches holder now} :
      Step worker ⟨some job, dispatches, holder⟩ ⟨some (job.taken now), dispatches, holder⟩
  | acked {job dispatches holder now} (still : holder = none ∨ holder = some worker) :
      Step worker ⟨some job, dispatches, some worker⟩ ⟨some (job.acked now), dispatches, holder⟩
  | buried {job dispatches now attempts message} :
      Step worker ⟨some job, dispatches, some worker⟩
        ⟨some (job.buried now attempts message), dispatches, none⟩
  | retried {job dispatches now message retryAfter} (left : job.attempts + 1 < job.maxAttempts) :
      Step worker ⟨some job, dispatches, some worker⟩
        ⟨some (job.retried now (job.attempts + 1) message retryAfter), dispatches, none⟩
  | dropped {job dispatches} :
      Step worker ⟨job, dispatches, some worker⟩ ⟨job, dispatches, none⟩

/-- The dispatches of a job are accounted for by its attempts. -/
structure Job.Balanced (job : Job) (dispatches : Nat) (holder : Option Worker) : Prop where
  bounded : dispatches ≤ job.allowed
  pending : job.status = .pending →
    holder = none ∧ dispatches ≤ job.attempts ∧ job.attempts < job.allowed
  held : holder ≠ none → dispatches ≤ job.attempts + 1

def Account.Balanced (account : Account Worker) : Prop :=
  match account.job with
  | none => account.dispatches = 0 ∧ account.holder = none
  | some job => job.Balanced account.dispatches account.holder

namespace Account

variable {worker other : Worker} {before after : Account Worker}

theorem Step.balanced (step : Step worker before after) (balanced : before.Balanced) :
    after.Balanced := by
  have ofJob {job : Job} {dispatches : Nat} {holder : Option Worker}
      (balanced : Account.Balanced ⟨some job, dispatches, holder⟩) :
      job.Balanced dispatches holder := balanced
  cases step with
  | stays => exact balanced
  | @enqueued job dispatches holder pending unattempted =>
    obtain ⟨rfl, rfl⟩ : dispatches = 0 ∧ holder = none := balanced
    have positive : 0 < job.allowed := lt_of_lt_of_le Nat.zero_lt_one (Nat.le_max_left 1 _)
    exact ⟨Nat.zero_le _, fun _ => ⟨rfl, Nat.zero_le _, by rwa [unattempted]⟩,
      fun held => absurd rfl held⟩
  | taken pending =>
    obtain ⟨-, counted, left⟩ := (ofJob balanced).pending pending
    exact ⟨Nat.succ_le_of_lt (lt_of_le_of_lt counted left), nofun,
      fun _ => Nat.succ_le_succ counted⟩
  | lost => exact ⟨(ofJob balanced).bounded, nofun, (ofJob balanced).held⟩
  | acked still => exact ⟨(ofJob balanced).bounded, nofun, fun _ => (ofJob balanced).held nofun⟩
  | buried => exact ⟨(ofJob balanced).bounded, nofun, fun held => absurd rfl held⟩
  | @retried job dispatches now message retryAfter left =>
    have more : job.attempts + 1 < job.allowed := lt_of_lt_of_le left (Nat.le_max_right 1 _)
    exact ⟨(ofJob balanced).bounded, fun _ => ⟨rfl, (ofJob balanced).held nofun, more⟩,
      fun held => absurd rfl held⟩
  | @dropped job dispatches =>
    cases job with
    | none => exact ⟨balanced.1, rfl⟩
    | some job =>
      refine ⟨(ofJob balanced).bounded, fun isPending => ?_, fun held => absurd rfl held⟩
      exact absurd ((ofJob balanced).pending isPending).1 nofun

theorem Balanced.le_allowed {account : Account Worker} (balanced : account.Balanced) {job : Job}
    (found : account.job = some job) : account.dispatches ≤ job.allowed := by
  unfold Balanced at balanced
  rw [found] at balanced
  exact balanced.bounded

/-- The attempts of the job with the most that are allowed. -/
def counts (account : Account Worker) : Option (Nat × Nat) :=
  account.job.map fun job => (job.attempts, job.maxAttempts)

/-- A step of another worker leaves a job to the one who holds it. -/
theorem Step.spares (step : Step worker before after) (balanced : before.Balanced)
    (held : before.holder = some other) (different : other ≠ worker) :
    after.holder = some other ∧ after.counts = before.counts := by
  have impossible (same : some worker = some other) : False :=
    different (Option.some.inj same).symm
  cases step with
  | stays => exact ⟨held, rfl⟩
  | enqueued pending unattempted => exact absurd (balanced.2.symm.trans held) nofun
  | taken pending =>
    have free := (Job.Balanced.pending balanced pending).1
    exact absurd (free.symm.trans held) nofun
  | lost => exact ⟨held, rfl⟩
  | acked still => exact (impossible held).elim
  | buried => exact (impossible held).elim
  | retried left => exact (impossible held).elim
  | dropped => exact (impossible held).elim

end Account

/-- What a worker knows at a stage of the job with the id. -/
def Stage.Knows (id : String) (worker : Worker) (account : Account Worker) : Stage → Prop
  | .idle => True
  | .holding held => held = id → account.holder = some worker
  | .nacking held currentAttempts maxAttempts => held = id →
    account.holder = some worker ∧ account.counts = some (currentAttempts, maxAttempts)

theorem Stage.Knows.after {id : String} {worker other : Worker} {before after : Account Worker}
    {stage : Stage} (knows : stage.Knows id other before) (step : Account.Step worker before after)
    (balanced : before.Balanced) (different : other ≠ worker) : stage.Knows id other after := by
  cases stage with
  | idle => trivial
  | holding held => exact fun same => (step.spares balanced (knows same) different).1
  | nacking held currentAttempts maxAttempts =>
    intro same
    obtain ⟨still, counts⟩ := step.spares balanced (knows same).1 different
    exact ⟨still, counts.trans (knows same).2⟩

/-! ## The account that the calls keep -/

/-- What a call means for a job: a worker has got it, or is done with it. -/
inductive Report where
  | got (id : String)
  | done (id : String)
  deriving DecidableEq

section Reports

variable {State Request : Type} {Value : Request → Type}
  (report : Exchange Worker Circumstance State (Answer Value) → Option Report)
  (getById : State → String → Option Job) (id : String)

/-- How often workers got the job. -/
def dispatchesOf (exchanges : List (Exchange Worker Circumstance State (Answer Value))) : Nat :=
  exchanges.countP fun exchange => report exchange = some (.got id)

/-- The worker who got the job last and is not done with it. -/
def holderOf : List (Exchange Worker Circumstance State (Answer Value)) → Option Worker
  | [] => none
  | exchange :: earlier =>
    if report exchange = some (.got id) then some exchange.worker
    else if report exchange = some (.done id) then none
    else holderOf earlier

def accountOf (world : World Worker Circumstance State (Answer Value)) : Account Worker where
  job := getById world.state id
  dispatches := dispatchesOf report id world.exchanges
  holder := holderOf report id world.exchanges

variable {report getById id}
  {perform : Worker → (call : Call Request) → Circumstance → State → Answer Value call × State}
  {world : World Worker Circumstance State (Answer Value)} {worker : Worker} {call : Call Request}
  {circumstance : Circumstance}

theorem accountOf_after_got
    (reported : report (world.exchange perform worker call circumstance) = some (.got id)) :
    accountOf report getById id (world.after perform worker call circumstance) =
      ⟨getById (world.after perform worker call circumstance).state id,
        (accountOf report getById id world).dispatches + 1, some worker⟩ := by
  simp only [accountOf, World.after, dispatchesOf, holderOf, reported, if_true,
    List.countP_cons, decide_true]
  rfl

theorem accountOf_after_done
    (reported : report (world.exchange perform worker call circumstance) = some (.done id)) :
    accountOf report getById id (world.after perform worker call circumstance) =
      ⟨getById (world.after perform worker call circumstance).state id,
        (accountOf report getById id world).dispatches, none⟩ := by
  simp [accountOf, World.after, dispatchesOf, holderOf, reported]

theorem accountOf_after_of_ne
    (ungot : report (world.exchange perform worker call circumstance) ≠ some (.got id))
    (undone : report (world.exchange perform worker call circumstance) ≠ some (.done id)) :
    accountOf report getById id (world.after perform worker call circumstance) =
      ⟨getById (world.after perform worker call circumstance).state id,
        (accountOf report getById id world).dispatches,
        (accountOf report getById id world).holder⟩ := by
  simp [accountOf, World.after, dispatchesOf, holderOf, ungot, undone]

/-- A call by which the worker gets the job. -/
theorem step_of_got
    (reported : report (world.exchange perform worker call circumstance) = some (.got id))
    (step : Account.Step worker (accountOf report getById id world)
      ⟨getById (perform worker call circumstance world.state).2 id,
        (accountOf report getById id world).dispatches + 1, some worker⟩) :
    Account.Step worker (accountOf report getById id world)
      (accountOf report getById id (world.after perform worker call circumstance)) := by
  rw [accountOf_after_got reported]
  exact step

/-- A call by which a worker is done with the job. -/
theorem step_of_done
    (reported : report (world.exchange perform worker call circumstance) = some (.done id))
    (step : Account.Step worker (accountOf report getById id world)
      ⟨getById (perform worker call circumstance world.state).2 id,
        (accountOf report getById id world).dispatches, none⟩) :
    Account.Step worker (accountOf report getById id world)
      (accountOf report getById id (world.after perform worker call circumstance)) := by
  rw [accountOf_after_done reported]
  exact step

/-- A call by which nobody gets the job or is done with it. -/
theorem step_of_ne
    (ungot : report (world.exchange perform worker call circumstance) ≠ some (.got id))
    (undone : report (world.exchange perform worker call circumstance) ≠ some (.done id))
    (step : Account.Step worker (accountOf report getById id world)
      ⟨getById (perform worker call circumstance world.state).2 id,
        (accountOf report getById id world).dispatches,
        (accountOf report getById id world).holder⟩) :
    Account.Step worker (accountOf report getById id world)
      (accountOf report getById id (world.after perform worker call circumstance)) := by
  rw [accountOf_after_of_ne ungot undone]
  exact step

/-- One that leaves it, too. -/
theorem step_of_same
    (ungot : report (world.exchange perform worker call circumstance) ≠ some (.got id))
    (undone : report (world.exchange perform worker call circumstance) ≠ some (.done id))
    (same : getById (perform worker call circumstance world.state).2 id = getById world.state id) :
    Account.Step worker (accountOf report getById id world)
      (accountOf report getById id (world.after perform worker call circumstance)) := by
  refine step_of_ne ungot undone ?_
  rw [same]
  exact .stays

theorem holder_after_got
    (reported : report (world.exchange perform worker call circumstance) = some (.got id)) :
    (accountOf report getById id (world.after perform worker call circumstance)).holder =
      some worker := by
  rw [accountOf_after_got reported]

theorem holder_after_of_ne
    (ungot : report (world.exchange perform worker call circumstance) ≠ some (.got id))
    (undone : report (world.exchange perform worker call circumstance) ≠ some (.done id)) :
    (accountOf report getById id (world.after perform worker call circumstance)).holder =
      (accountOf report getById id world).holder := by
  rw [accountOf_after_of_ne ungot undone]

/-- A worker gets a job that was pending. -/
theorem step_of_taken {job : Job} {now : Millis} (isThere : getById world.state job.id = some job)
    (after : ∀ other, getById (perform worker call circumstance world.state).2 other =
      if other = job.id then some (job.taken now) else getById world.state other)
    (reported : report (world.exchange perform worker call circumstance) = some (.got job.id))
    (pending : job.id = id → job.status = .pending) :
    Account.Step worker (accountOf report getById id world)
      (accountOf report getById id (world.after perform worker call circumstance)) := by
  by_cases same : job.id = id
  · subst same
    refine step_of_got reported ?_
    change Account.Step worker ⟨getById world.state job.id, _, _⟩ _
    rw [after, if_pos rfl, isThere]
    exact .taken (pending rfl)
  · refine step_of_same ?_ ?_ ((after id).trans (if_neg (Ne.symm same)))
    · rw [reported]
      exact fun own => same (Report.got.inj (Option.some.inj own))
    · rw [reported]
      nofun

/-- A job is taken, but its worker does not get it. -/
theorem step_of_lost {job : Job} {now : Millis} (isThere : getById world.state job.id = some job)
    (after : ∀ other, getById (perform worker call circumstance world.state).2 other =
      if other = job.id then some (job.taken now) else getById world.state other)
    (unreported : report (world.exchange perform worker call circumstance) = none) :
    Account.Step worker (accountOf report getById id world)
      (accountOf report getById id (world.after perform worker call circumstance)) := by
  refine step_of_ne (by rw [unreported]; nofun) (by rw [unreported]; nofun) ?_
  by_cases same : job.id = id
  · subst same
    change Account.Step worker ⟨getById world.state job.id, _, _⟩ _
    rw [after, if_pos rfl, isThere]
    exact .lost
  · rw [after, if_neg (Ne.symm same)]
    exact .stays

/-- A worker is done with a job that it holds. -/
theorem step_of_finished {held : String} {changed : Option Job}
    (reported : report (world.exchange perform worker call circumstance) = some (.done held))
    (after : ∀ other, getById (perform worker call circumstance world.state).2 other =
      if other = held then changed else getById world.state other)
    (holding : held = id → (accountOf report getById id world).holder = some worker)
    (step : held = id → ∀ dispatches,
      Account.Step worker ⟨getById world.state held, dispatches, some worker⟩
        ⟨changed, dispatches, none⟩) :
    Account.Step worker (accountOf report getById id world)
      (accountOf report getById id (world.after perform worker call circumstance)) := by
  by_cases same : held = id
  · subst same
    refine step_of_done reported ?_
    change Account.Step worker ⟨getById world.state held, _,
      (accountOf report getById held world).holder⟩ _
    rw [holding rfl, after, if_pos rfl]
    exact step rfl _
  · refine step_of_same ?_ ?_ ((after id).trans (if_neg (Ne.symm same)))
    · rw [reported]
      nofun
    · rw [reported]
      exact fun own => same (Report.done.inj (Option.some.inj own))

/-- A worker is done with a job that it holds and leaves as it is. -/
theorem step_of_dropped {held : String}
    (reported : report (world.exchange perform worker call circumstance) = some (.done held))
    (same : (perform worker call circumstance world.state).2 = world.state)
    (holding : held = id → (accountOf report getById id world).holder = some worker) :
    Account.Step worker (accountOf report getById id world)
      (accountOf report getById id (world.after perform worker call circumstance)) := by
  refine step_of_finished reported (fun other => ?_) holding fun _ _ => .dropped
  rw [same]
  split
  · rename_i other_held
    rw [other_held]
  · rfl

/-- Where each call is a step on the account of a job, and its worker knows what it has to know at
the next stage, the account is balanced throughout. -/
theorem outlineStep_of_accounts {next : Outline Stage (Answer Value)}
    {condition : Exchange Worker Circumstance State (Answer Value) →
      List (Exchange Worker Circumstance State (Answer Value)) → Prop}
    (step : ∀ {worker stage call circumstance onward world},
      stage.Knows id worker (accountOf report getById id world) →
      next stage call (perform worker call circumstance world.state).1 onward →
      condition (world.exchange perform worker call circumstance) world.exchanges →
        Account.Step worker (accountOf report getById id world)
            (accountOf report getById id (world.after perform worker call circumstance)) ∧
          onward.Knows id worker
            (accountOf report getById id (world.after perform worker call circumstance))) :
    OutlineStep perform next condition
      (fun world => (accountOf report getById id world).Balanced)
      (fun worker stage world => stage.Knows id worker (accountOf report getById id world)) := by
  intro worker stage call circumstance onward world balanced knows made met
  obtain ⟨stepped, known⟩ := step knows made met
  exact ⟨stepped.balanced balanced, known, fun other different stage knows =>
    knows.after stepped balanced different⟩

end Reports

end Ancore.Queue
