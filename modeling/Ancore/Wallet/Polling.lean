import Ancore.Library.Outline

/-! # Polling for the status of a transaction

`confirmAndSubmit` starts a timer once a transaction is submitted.  Each tick of it asks for the
status and nothing waits for the answer to the tick before: answers come in any order, also to a
submission that is not the latest.  Whatever comes is written down as the status, and a terminal
answer clears the timer that was started last.
-/

namespace Ancore.Wallet.Polling

open Library

/-! ## Statuses -/

inductive TransactionStatusKind where
  | pending
  | confirmed
  | failed
  | cancelled
  deriving DecidableEq

inductive TxStatus where
  | idle
  | pending
  | confirmed
  | failed
  | unreachable
  deriving DecidableEq

def TxStatus.text : TxStatus → String
  | idle => "idle"
  | pending => "pending"
  | confirmed => "confirmed"
  | failed => "failed"
  | unreachable => "unreachable"

/-- `RPC_TO_APP` -/
def rpcToApp : List (String × TransactionStatusKind) :=
  [("success", .confirmed), ("failure", .failed), ("pending", .pending), ("not_found", .pending),
    ("error", .failed), ("timeout", .failed), ("idle", .pending), ("confirmed", .confirmed),
    ("failed", .failed), ("unreachable", .pending)]

def mapRpcStatus (raw : String) : TransactionStatusKind :=
  (rpcToApp.lookup raw.toLower).getD .pending

def isTerminalStatus (status : TransactionStatusKind) : Bool :=
  status = .confirmed || status = .failed || status = .cancelled

/-- The status maps to a terminal one. -/
def TxStatus.isFinal (status : TxStatus) : Bool := isTerminalStatus (mapRpcStatus status.text)

/-- `fetchTransactionStatus`, by the HTTP status of the response, if one comes. -/
def fetchTransactionStatus : Option ℕ → TxStatus
  | none => .unreachable
  | some response =>
    if 200 ≤ response ∧ response < 300 then .confirmed
    else if response = 404 then .pending
    else if 500 ≤ response then .unreachable
    else .failed

/-! ## The hook -/

/-- What polling reads and writes.  Submissions are numbered from 0, and a timer and a request
are named by their submission. -/
structure Hook where
  status : TxStatus
  statusCheckFailures : ℕ
  /-- `pollRef.current` -/
  pollRef : Option ℕ
  timers : List ℕ
  requests : List ℕ
  submissions : ℕ
  mounted : Bool
  deriving DecidableEq

def Hook.new : Hook where
  status := .idle
  statusCheckFailures := 0
  pollRef := none
  timers := []
  requests := []
  submissions := 0
  mounted := true

inductive Event where
  /-- `service.submitTransaction` resolves in `confirmAndSubmit`. -/
  | submitted
  /-- The timer of a submission fires. -/
  | ticked (submission : ℕ)
  /-- A request for the status of a submission resolves. -/
  | answered (submission : ℕ) (raw : TxStatus)
  /-- Such a request rejects. -/
  | rejected (submission : ℕ)
  | unmounted
  deriving DecidableEq

namespace Hook

variable (hook : Hook)

/-- `setStatus(status); setStatusCheckFailures(count)`, without effect once unmounted. -/
def setStatus (status : TxStatus) (count : ℕ → ℕ) : Hook :=
  if hook.mounted then
    { hook with status := status, statusCheckFailures := count hook.statusCheckFailures }
  else hook

/-- `if (pollRef.current) clearInterval(pollRef.current)` -/
def clearPollRef : Hook :=
  match hook.pollRef with
  | none => hook
  | some timer => { hook with timers := hook.timers.filter (· ≠ timer) }

def startPolling : Hook :=
  let hook := hook.setStatus .pending fun _ => 0
  { hook with
    pollRef := some hook.submissions
    timers := hook.submissions :: hook.timers
    submissions := hook.submissions + 1 }

/-- The callback of a timer, behind the `await`. -/
def receive (raw : TxStatus) : Hook :=
  let appStatus := mapRpcStatus raw.text
  let hook := hook.setStatus raw fun previous => if raw = .unreachable then previous + 1 else 0
  if isTerminalStatus appStatus then hook.clearPollRef else hook

/-- What an event makes of the hook, if it can happen. -/
def step : Event → Option Hook
  | .submitted => some hook.startPolling
  | .ticked submission =>
    if submission ∈ hook.timers then
      some { hook with requests := submission :: hook.requests }
    else none
  | .answered submission raw =>
    if submission ∈ hook.requests then
      some { hook.receive raw with requests := hook.requests.erase submission }
    else none
  | .rejected submission =>
    if submission ∈ hook.requests then
      some { hook with requests := hook.requests.erase submission }
    else none
  | .unmounted => some { hook.clearPollRef with mounted := false }

end Hook

/-- The hook after events, the latest first, if they can happen one after the other. -/
def hookAfter : List Event → Option Hook
  | [] => some .new
  | event :: earlier => (hookAfter earlier).bind (·.step event)

/-! ## What is asked of a run -/

/-- A final status stays as it is until the next submission. -/
def StatusIsFinal : List Event → Prop :=
  Historically fun event earlier => ∀ before after, hookAfter earlier = some before →
    before.step event = some after → event ≠ .submitted → before.status.isFinal = true →
      after.status = before.status

/-- A terminal answer to a submission has arrived. -/
def Settled (submission : ℕ) (log : List Event) : Prop :=
  ∃ raw : TxStatus, raw.isFinal = true ∧ Event.answered submission raw ∈ log

/-- The timer of each submission runs as long as no terminal answer to it has arrived. -/
def Hook.Polls (hook : Hook) (log : List Event) : Prop :=
  hook.mounted = true → ∀ submission < hook.submissions, ¬ Settled submission log →
    submission ∈ hook.timers

def PollingGoesOn (log : List Event) : Prop :=
  ∀ earlier, earlier <:+ log → ∀ hook, hookAfter earlier = some hook → hook.Polls earlier

/-! ## Answers in order -/

/-- The first terminal answer since the latest submission, whichever submission it is to. -/
def firstFinal : List Event → Option TxStatus
  | [] => none
  | .submitted :: _ => none
  | .answered _ raw :: earlier =>
    (firstFinal earlier).or (if raw.isFinal then some raw else none)
  | _ :: earlier => firstFinal earlier

def submissionsIn (log : List Event) : ℕ := log.count .submitted

/-- Behind a terminal answer there are only answers that are the same. -/
def AgreesWithFirst : Event → List Event → Prop
  | .answered _ raw, earlier => .unmounted ∉ earlier →
    firstFinal earlier = none ∨ firstFinal earlier = some raw
  | _, _ => True

/-- A terminal answer is to the latest submission, unless one to the latest has arrived before. -/
def IsToLatest : Event → List Event → Prop
  | .answered submission raw, earlier => .unmounted ∉ earlier → raw.isFinal = true →
    submission + 1 = submissionsIn earlier ∨ Settled (submissionsIn earlier - 1) earlier
  | _, _ => True

/-- The answers of a run come in order. -/
def InOrder : List Event → Prop :=
  Historically fun event earlier => AgreesWithFirst event earlier ∧ IsToLatest event earlier

/-! ## Steps -/

theorem TxStatus.isFinal_iff {status : TxStatus} :
    status.isFinal = true ↔ status = .confirmed ∨ status = .failed := by
  cases status <;> decide +kernel

section Steps

variable {hook before after : Hook} {event : Event} {earlier log : List Event}

@[simp] theorem Hook.clearPollRef_status : hook.clearPollRef.status = hook.status := by
  unfold Hook.clearPollRef
  split <;> rfl

@[simp] theorem Hook.clearPollRef_mounted : hook.clearPollRef.mounted = hook.mounted := by
  unfold Hook.clearPollRef
  split <;> rfl

@[simp] theorem Hook.clearPollRef_submissions :
    hook.clearPollRef.submissions = hook.submissions := by
  unfold Hook.clearPollRef
  split <;> rfl

@[simp] theorem Hook.clearPollRef_pollRef : hook.clearPollRef.pollRef = hook.pollRef := by
  unfold Hook.clearPollRef
  split <;> rfl

@[simp] theorem Hook.clearPollRef_requests : hook.clearPollRef.requests = hook.requests := by
  unfold Hook.clearPollRef
  split <;> rfl

theorem Hook.mem_clearPollRef_timers {submission : ℕ} :
    submission ∈ hook.clearPollRef.timers ↔
      submission ∈ hook.timers ∧ hook.pollRef ≠ some submission := by
  unfold Hook.clearPollRef
  cases ref : hook.pollRef with
  | none => simp
  | some timer => simp [@eq_comm ℕ timer submission]

section SetStatus

variable {status : TxStatus} {count : ℕ → ℕ}

@[simp] theorem Hook.setStatus_mounted : (hook.setStatus status count).mounted = hook.mounted := by
  unfold Hook.setStatus
  split <;> rfl

@[simp] theorem Hook.setStatus_submissions :
    (hook.setStatus status count).submissions = hook.submissions := by
  unfold Hook.setStatus
  split <;> rfl

@[simp] theorem Hook.setStatus_pollRef :
    (hook.setStatus status count).pollRef = hook.pollRef := by
  unfold Hook.setStatus
  split <;> rfl

@[simp] theorem Hook.setStatus_timers : (hook.setStatus status count).timers = hook.timers := by
  unfold Hook.setStatus
  split <;> rfl

@[simp] theorem Hook.setStatus_requests :
    (hook.setStatus status count).requests = hook.requests := by
  unfold Hook.setStatus
  split <;> rfl

theorem Hook.setStatus_status :
    (hook.setStatus status count).status = if hook.mounted then status else hook.status := by
  unfold Hook.setStatus
  split <;> rfl

end SetStatus

theorem Hook.receive_status (raw : TxStatus) :
    (hook.receive raw).status = if hook.mounted then raw else hook.status := by
  unfold Hook.receive
  dsimp only
  split <;> simp [Hook.setStatus_status]

@[simp] theorem Hook.receive_mounted (raw : TxStatus) :
    (hook.receive raw).mounted = hook.mounted := by
  unfold Hook.receive
  dsimp only
  split <;> simp

@[simp] theorem Hook.receive_submissions (raw : TxStatus) :
    (hook.receive raw).submissions = hook.submissions := by
  unfold Hook.receive
  dsimp only
  split <;> simp

@[simp] theorem Hook.receive_pollRef (raw : TxStatus) :
    (hook.receive raw).pollRef = hook.pollRef := by
  unfold Hook.receive
  dsimp only
  split <;> simp

/-- An answer that is not terminal leaves the timers running, a terminal one stops the timer that
was started last. -/
theorem Hook.mem_receive_timers {raw : TxStatus} {submission : ℕ} :
    submission ∈ (hook.receive raw).timers ↔
      submission ∈ hook.timers ∧ (raw.isFinal = true → hook.pollRef ≠ some submission) := by
  unfold Hook.receive
  dsimp only
  split
  · rename_i terminal
    simp [Hook.mem_clearPollRef_timers, TxStatus.isFinal, terminal]
  · rename_i open'
    simp [TxStatus.isFinal, open']

/-- What a run has made of the hook, told by its events. -/
structure Hook.FollowsLog (hook : Hook) (log : List Event) : Prop where
  mounted : hook.mounted = true ↔ Event.unmounted ∉ log
  submissions : hook.submissions = submissionsIn log
  pollRef : hook.pollRef = if hook.submissions = 0 then none else some (hook.submissions - 1)
  timers : ∀ timer ∈ hook.timers, timer < hook.submissions
  requests : ∀ request ∈ hook.requests, request < hook.submissions

theorem followsLog_step (follows : before.FollowsLog earlier)
    (made : before.step event = some after) : after.FollowsLog (event :: earlier) := by
  obtain ⟨mounted, submissions, pollRef, timers, requests⟩ := follows
  cases event with
  | submitted =>
    cases made
    refine ⟨?_, ?_, ?_, ?_, ?_⟩
    · simpa [Hook.startPolling] using mounted
    · simp [Hook.startPolling, submissionsIn, submissions]
    · simp [Hook.startPolling]
    · intro timer member
      simp only [Hook.startPolling, Hook.setStatus_submissions, Hook.setStatus_timers,
        List.mem_cons] at member ⊢
      rcases member with rfl | member
      · exact Nat.lt_succ_self _
      · exact Nat.lt_succ_of_lt (timers timer member)
    · intro request member
      simp only [Hook.startPolling, Hook.setStatus_submissions,
        Hook.setStatus_requests] at member ⊢
      exact Nat.lt_succ_of_lt (requests request member)
  | ticked submission =>
    simp only [Hook.step, Option.ite_none_right_eq_some, Option.some.injEq] at made
    obtain ⟨running, rfl⟩ := made
    refine ⟨by simpa using mounted, by simpa [submissionsIn] using submissions, pollRef, timers, ?_⟩
    exact List.forall_mem_cons.mpr ⟨timers submission running, requests⟩
  | answered submission raw =>
    simp only [Hook.step, Option.ite_none_right_eq_some, Option.some.injEq] at made
    obtain ⟨waits, rfl⟩ := made
    refine ⟨by simpa using mounted, by simpa [submissionsIn] using submissions,
      by simpa using pollRef, ?_, ?_⟩
    · intro timer member
      rw [Hook.mem_receive_timers] at member
      simpa using timers timer member.1
    · intro request member
      simpa using requests request (List.mem_of_mem_erase member)
  | rejected submission =>
    simp only [Hook.step, Option.ite_none_right_eq_some, Option.some.injEq] at made
    obtain ⟨waits, rfl⟩ := made
    exact ⟨by simpa using mounted, by simpa [submissionsIn] using submissions, pollRef, timers,
      fun request member => requests request (List.mem_of_mem_erase member)⟩
  | unmounted =>
    cases made
    refine ⟨by simp, by simpa [submissionsIn] using submissions, by simpa using pollRef, ?_, ?_⟩
    · intro timer member
      rw [Hook.mem_clearPollRef_timers] at member
      simpa using timers timer member.1
    · simpa using requests

theorem followsLog_of_run (run : hookAfter log = some hook) : hook.FollowsLog log := by
  induction log generalizing hook with
  | nil =>
    cases run
    exact ⟨by simp [Hook.new], rfl, rfl, List.forall_mem_nil _, List.forall_mem_nil _⟩
  | cons event earlier ih =>
    obtain ⟨before, ran, made⟩ := Option.bind_eq_some_iff.mp run
    exact followsLog_step (ih ran) made

end Steps

/-! ## Statuses over a run -/

section Statuses

variable {hook before after : Hook} {event : Event} {earlier log : List Event}

theorem isFinal_of_firstFinal {first : TxStatus} (isFirst : firstFinal log = some first) :
    first.isFinal = true := by
  induction log with
  | nil => cases isFirst
  | cons event earlier ih =>
    cases event with
    | submitted => cases isFirst
    | answered submission raw =>
      rw [firstFinal, Option.or_eq_some_iff] at isFirst
      rcases isFirst with old | ⟨-, new⟩
      · exact ih old
      · split at new
        · rename_i isFinal
          cases new
          exact isFinal
        · cases new
    | ticked submission => exact ih isFirst
    | rejected submission => exact ih isFirst
    | unmounted => exact ih isFirst

/-- The status is final exactly when a terminal answer has come, and then it is that answer. -/
def Hook.Shows (hook : Hook) (log : List Event) : Prop :=
  hook.mounted = true → firstFinal log = if hook.status.isFinal then some hook.status else none

theorem shows_step (follows : before.FollowsLog earlier) (shows : before.Shows earlier)
    (made : before.step event = some after) (agrees : AgreesWithFirst event earlier) :
    after.Shows (event :: earlier) := by
  intro mounted
  cases event with
  | submitted =>
    cases made
    have up : before.mounted = true := by simpa [Hook.startPolling] using mounted
    simp [Hook.startPolling, firstFinal, Hook.setStatus_status, up, TxStatus.isFinal_iff]
  | ticked submission =>
    simp only [Hook.step, Option.ite_none_right_eq_some, Option.some.injEq] at made
    obtain ⟨running, rfl⟩ := made
    exact shows mounted
  | answered submission raw =>
    simp only [Hook.step, Option.ite_none_right_eq_some, Option.some.injEq] at made
    obtain ⟨waits, rfl⟩ := made
    have up : before.mounted = true := by simpa using mounted
    simp only [firstFinal, Hook.receive_status, up, if_true]
    rcases agrees (follows.mounted.mp up) with isNone | isFirst
    · rw [isNone, Option.none_or]
    · rw [isFirst, isFinal_of_firstFinal isFirst]
      rfl
  | rejected submission =>
    simp only [Hook.step, Option.ite_none_right_eq_some, Option.some.injEq] at made
    obtain ⟨waits, rfl⟩ := made
    exact shows mounted
  | unmounted =>
    cases made
    cases mounted

/-- One step leaves a final status as it is exactly when an answer that comes agrees. -/
theorem final_step_iff (follows : before.FollowsLog earlier) (shows : before.Shows earlier)
    (made : before.step event = some after) :
    (event ≠ .submitted → before.status.isFinal = true → after.status = before.status) ↔
      AgreesWithFirst event earlier := by
  cases event with
  | submitted => exact iff_of_true (fun other => absurd rfl other) trivial
  | ticked submission =>
    simp only [Hook.step, Option.ite_none_right_eq_some, Option.some.injEq] at made
    obtain ⟨running, rfl⟩ := made
    exact iff_of_true (fun _ _ => rfl) trivial
  | answered submission raw =>
    simp only [Hook.step, Option.ite_none_right_eq_some, Option.some.injEq] at made
    obtain ⟨waits, rfl⟩ := made
    simp only [Hook.receive_status]
    by_cases up : before.mounted = true
    · rw [if_pos up]
      have shown := shows up
      constructor
      · intro unchanged _
        split at shown
        · rename_i isFinal
          rw [unchanged nofun isFinal]
          exact .inr shown
        · exact .inl shown
      · intro agrees _ isFinal
        rw [if_pos isFinal] at shown
        rcases agrees (follows.mounted.mp up) with isNone | isFirst
        · cases isNone.symm.trans shown
        · exact Option.some.inj (isFirst.symm.trans shown)
    · rw [if_neg up]
      exact iff_of_true (fun _ _ => rfl)
        fun present => absurd (follows.mounted.mpr present) up
  | rejected submission =>
    simp only [Hook.step, Option.ite_none_right_eq_some, Option.some.injEq] at made
    obtain ⟨waits, rfl⟩ := made
    exact iff_of_true (fun _ _ => rfl) trivial
  | unmounted =>
    cases made
    exact iff_of_true (fun _ _ => Hook.clearPollRef_status) trivial

theorem shows_of_run (run : hookAfter log = some hook)
    (agrees : Historically AgreesWithFirst log) : hook.Shows log := by
  induction log generalizing hook with
  | nil =>
    cases run
    intro _
    simp [Hook.new, firstFinal, TxStatus.isFinal_iff]
  | cons event earlier ih =>
    obtain ⟨before, ran, made⟩ := Option.bind_eq_some_iff.mp run
    exact shows_step (followsLog_of_run ran) (ih ran agrees.2) made agrees.1

theorem statusIsFinal_iff (run : hookAfter log = some hook) :
    StatusIsFinal log ↔ Historically AgreesWithFirst log := by
  induction log generalizing hook with
  | nil => exact Iff.rfl
  | cons event earlier ih =>
    obtain ⟨before, ran, made⟩ := Option.bind_eq_some_iff.mp run
    have onlyStep : (∀ state next, hookAfter earlier = some state →
        state.step event = some next → event ≠ .submitted → state.status.isFinal = true →
          next.status = state.status) ↔
        (event ≠ .submitted → before.status.isFinal = true → hook.status = before.status) := by
      constructor
      · intro all
        exact all before hook ran made
      · intro one state next ran' made'
        cases ran.symm.trans ran'
        cases made.symm.trans made'
        exact one
    constructor
    · rintro ⟨step, past⟩
      have agrees := (ih ran).mp past
      have shows := shows_of_run ran agrees
      exact ⟨(final_step_iff (followsLog_of_run ran) shows made).mp (onlyStep.mp step), agrees⟩
    · rintro ⟨step, agrees⟩
      have shows := shows_of_run ran agrees
      exact ⟨onlyStep.mpr ((final_step_iff (followsLog_of_run ran) shows made).mpr step),
        (ih ran).mpr agrees⟩

end Statuses

/-! ## Timers over a run -/

section Timers

variable {hook before after : Hook} {event : Event} {earlier log : List Event}

theorem settled_cons {submission : ℕ} : Settled submission (event :: earlier) ↔
    (∃ raw : TxStatus, raw.isFinal = true ∧ event = .answered submission raw) ∨
      Settled submission earlier := by
  simp only [Settled, List.mem_cons]
  constructor
  · rintro ⟨raw, isFinal, same | member⟩
    · exact .inl ⟨raw, isFinal, same.symm⟩
    · exact .inr ⟨raw, isFinal, member⟩
  · rintro (⟨raw, isFinal, same⟩ | ⟨raw, isFinal, member⟩)
    · exact ⟨raw, isFinal, .inl same.symm⟩
    · exact ⟨raw, isFinal, .inr member⟩

/-- An event that stops no timer keeps the timers that should run. -/
theorem Hook.Polls.keep (polls : before.Polls earlier) (mounted : before.mounted = true)
    (submissions : after.submissions = before.submissions)
    (timers : ∀ timer ∈ before.timers, timer ∈ after.timers) : after.Polls (event :: earlier) := by
  intro _ submission small unsettled
  rw [submissions] at small
  exact timers submission
    (polls mounted submission small fun settled => unsettled (settled_cons.mpr (.inr settled)))

/-- One step keeps the timers running exactly when a terminal answer that comes is to the latest
submission or to one that is settled with the latest. -/
theorem polls_step_iff (follows : before.FollowsLog earlier) (polls : before.Polls earlier)
    (made : before.step event = some after) :
    after.Polls (event :: earlier) ↔ IsToLatest event earlier := by
  cases event with
  | submitted =>
    cases made
    refine iff_of_true ?_ trivial
    intro mounted submission small unsettled
    simp only [Hook.startPolling, Hook.setStatus_submissions, Hook.setStatus_timers,
      List.mem_cons, Hook.setStatus_mounted] at mounted small ⊢
    rcases Nat.lt_succ_iff_lt_or_eq.mp small with old | new
    · exact .inr (polls mounted submission old
        fun settled => unsettled (settled_cons.mpr (.inr settled)))
    · exact .inl new
  | ticked submission =>
    simp only [Hook.step, Option.ite_none_right_eq_some, Option.some.injEq] at made
    obtain ⟨running, rfl⟩ := made
    exact iff_of_true (fun mounted => polls.keep mounted rfl (fun _ => id) mounted)
      trivial
  | answered submission raw =>
    simp only [Hook.step, Option.ite_none_right_eq_some, Option.some.injEq] at made
    obtain ⟨waits, rfl⟩ := made
    by_cases up : before.mounted = true
    · have present := follows.mounted.mp up
      by_cases isFinal : raw.isFinal = true
      · -- the timer of the latest submission is stopped
        have some := follows.requests submission waits
        have latest : before.pollRef = .some (before.submissions - 1) := by
          rw [follows.pollRef, if_neg (by omega)]
        rw [follows.submissions] at latest some
        have stops (timer : ℕ) : timer ∈ (before.receive raw).timers ↔
            timer ∈ before.timers ∧ timer ≠ submissionsIn earlier - 1 := by
          rw [Hook.mem_receive_timers, latest]
          simp [isFinal, @eq_comm ℕ timer]
        constructor
        · rintro polls' - -
          by_contra neither
          push Not at neither
          have unsettled :
              ¬ Settled (submissionsIn earlier - 1) (.answered submission raw :: earlier) := by
            rw [settled_cons]
            rintro (⟨_, -, same⟩ | settled)
            · have := (Event.answered.inj same).1
              omega
            · exact neither.2 settled
          have runs := polls' (by simpa using up) (submissionsIn earlier - 1)
            (by simp only [Hook.receive_submissions, follows.submissions]; omega) unsettled
          exact ((stops _).mp runs).2 rfl
        · intro toLatest _ timer small unsettled
          simp only [Hook.receive_submissions] at small
          rw [settled_cons, not_or] at unsettled
          refine (stops timer).mpr ⟨polls up timer small unsettled.2, ?_⟩
          rintro rfl
          rcases toLatest present isFinal with toIt | settled
          · refine unsettled.1 ⟨raw, isFinal, ?_⟩
            rw [← toIt, Nat.add_sub_cancel]
          · exact unsettled.2 settled
      · refine iff_of_true (polls.keep up (by simp) ?_) ?_
        · intro timer member
          exact Hook.mem_receive_timers.mpr ⟨member, fun isFinal' => absurd isFinal' isFinal⟩
        · exact fun _ isFinal' => absurd isFinal' isFinal
    · refine iff_of_true (fun mounted => absurd (by simpa using mounted) up) ?_
      exact fun present => absurd (follows.mounted.mpr present) up
  | rejected submission =>
    simp only [Hook.step, Option.ite_none_right_eq_some, Option.some.injEq] at made
    obtain ⟨waits, rfl⟩ := made
    exact iff_of_true (fun mounted => polls.keep mounted rfl (fun _ => id) mounted)
      trivial
  | unmounted =>
    cases made
    exact iff_of_true (fun mounted => absurd mounted Bool.false_ne_true) trivial

theorem pollingGoesOn_iff (run : hookAfter log = some hook) :
    PollingGoesOn log ↔ Historically IsToLatest log := by
  induction log generalizing hook with
  | nil =>
    refine iff_of_true ?_ trivial
    intro earlier suffix state ran
    rw [List.suffix_nil.mp suffix] at ran
    cases ran
    exact fun _ _ small => absurd small (Nat.not_lt_zero _)
  | cons event earlier ih =>
    obtain ⟨before, ran, made⟩ := Option.bind_eq_some_iff.mp run
    have past : PollingGoesOn (event :: earlier) ↔
        hook.Polls (event :: earlier) ∧ PollingGoesOn earlier := by
      constructor
      · intro goesOn
        exact ⟨goesOn _ List.suffix_rfl hook run,
          fun log suffix => goesOn log (suffix.trans (List.suffix_cons _ _))⟩
      · rintro ⟨now, goesOn⟩ log suffix state ran'
        rcases List.suffix_cons_iff.mp suffix with rfl | suffix
        · cases run.symm.trans ran'
          exact now
        · exact goesOn log suffix state ran'
    rw [past, Historically, ih ran]
    refine and_congr_left fun toLatest => ?_
    have polls := (ih ran).mpr toLatest earlier List.suffix_rfl before ran
    exact polls_step_iff (followsLog_of_run ran) polls made

end Timers

/-- A run leaves final statuses alone and polls until there is one exactly when the answers come
in order. -/
theorem final_status_is_final_iff {log : List Event} {hook : Hook}
    (run : hookAfter log = some hook) :
    StatusIsFinal log ∧ PollingGoesOn log ↔ InOrder log := by
  rw [statusIsFinal_iff run, pollingGoesOn_iff run]
  constructor
  · rintro ⟨agrees, toLatest⟩
    exact historically_and agrees toLatest
  · intro inOrder
    exact ⟨inOrder.mono fun _ _ both => both.1, inOrder.mono fun _ _ both => both.2⟩

/-- The hook of one submission that has stopped polling. -/
def stoppedHook (status : TxStatus) (requests : List ℕ) : Hook where
  status := status
  statusCheckFailures := 0
  pollRef := some 0
  timers := []
  requests := requests
  submissions := 1
  mounted := true

/-- One answer after the other. -/
def answersInTurn : List Event :=
  [.answered 0 .confirmed, .ticked 0, .answered 0 .pending, .ticked 0, .submitted]

theorem final_status_is_final_in_turn :
    StatusIsFinal answersInTurn ∧ PollingGoesOn answersInTurn := by
  have run : hookAfter answersInTurn = some (stoppedHook .confirmed []) := by decide +kernel
  refine (final_status_is_final_iff run).mpr ⟨⟨?_, ?_⟩, ⟨trivial, trivial⟩, ⟨?_, ?_⟩,
    ⟨trivial, trivial⟩, ⟨trivial, trivial⟩, trivial⟩
  · exact fun _ => .inl (by decide +kernel)
  · exact fun _ _ => .inl rfl
  · exact fun _ => .inl rfl
  · exact fun _ _ => .inl rfl

/-- The answer to the second tick arrives before the one to the first. -/
def lateAnswer : List Event :=
  [.answered 0 (fetchTransactionStatus (some 404)),
    .answered 0 (fetchTransactionStatus (some 200)), .ticked 0, .ticked 0, .submitted]

/-- A late answer takes a confirmation back, and nothing asks any more. -/
theorem late_answer_overwrites_status :
    (∃ hook, hookAfter lateAnswer = some hook ∧ hook.status = .pending ∧ hook.timers = []) ∧
      ¬ ∀ log hook, hookAfter log = some hook → StatusIsFinal log ∧ PollingGoesOn log := by
  have confirmed : hookAfter lateAnswer.tail = some (stoppedHook .confirmed [0]) := by
    decide +kernel
  have overwritten : (stoppedHook .confirmed [0]).step
      (.answered 0 (fetchTransactionStatus (some 404))) = some (stoppedHook .pending []) := by
    decide +kernel
  have run : hookAfter lateAnswer = some (stoppedHook .pending []) := by decide +kernel
  refine ⟨⟨_, run, rfl, rfl⟩, fun always => ?_⟩
  have kept := (always lateAnswer _ run).1.1 _ _ confirmed overwritten nofun (by decide +kernel)
  cases kept

end Ancore.Wallet.Polling
