import Ancore.Library.Runs
import Mathlib.Algebra.Order.Floor.Ring
import Mathlib.Data.Rat.Floor

/-! # The lock after inactivity

The lock manager of the extension and its inactivity detector.  The wallet is locked when
nothing has been heard of the user for the time that is set, not earlier, and later by no
more than the lateness of a timer (`locks_after_inactivity`).  A manager that was destroyed
locks nothing.
-/

namespace Ancore.Wallet.LockManager

open Ancore.Library

/-! ## The detector -/

structure InactivityDetector where
  /-- when the timer is due -/
  timer : Option Nat
  timeoutMs : Nat
  /-- whether it listens to the events of the window -/
  active : Bool

/-- Minutes to milliseconds; 0 is never. -/
def minutesToInactivityMs (minutes : ℚ) : Nat :=
  if minutes ≤ 0 then 0 else ⌊minutes * 60 * 1000⌋.toNat

namespace InactivityDetector

variable (detector : InactivityDetector) (now : Nat)

def clearTimer : InactivityDetector := { detector with timer := none }

def resetTimer : InactivityDetector :=
  if detector.timeoutMs ≤ 0 then detector.clearTimer
  else { detector with timer := some (now + detector.timeoutMs) }

def start : InactivityDetector :=
  if detector.active then detector
  else { detector with active := true }.resetTimer now

def stop : InactivityDetector :=
  if !detector.active then detector else { detector with active := false }.clearTimer

def setTimeoutMs (ms : Nat) : InactivityDetector :=
  let updated := { detector with timeoutMs := ms }
  if updated.active then updated.resetTimer now else updated

def touch : InactivityDetector := if detector.active then detector.resetTimer now else detector

/-- `handleActivity`, which is called only while the detector listens. -/
def handleActivity : InactivityDetector :=
  if detector.active then detector.resetTimer now else detector

end InactivityDetector

/-! ## The manager -/

structure State where
  now : Nat
  locked : Bool
  detector : InactivityDetector

def initial (now : Nat) (autoLockMinutes : ℚ) : State where
  now := now
  locked := true
  detector := ⟨none, minutesToInactivityMs autoLockMinutes, false⟩

/-- How `storageManager.unlock(password)` ends. -/
inductive Answer where
  | confirmed
  | refused
  | thrown

inductive Input where
  | unlock (answer : Answer)
  | lock
  | setAutoLockMinutes (minutes : ℚ)
  | touch
  /-- an event of the window -/
  | activity
  | destroy
  /-- the timer fires -/
  | timer
  /-- a millisecond passes -/
  | tick

inductive Effect where
  | lockStorage
  | onLock
  | onUnlock

/-- `lock()` -/
def State.lock (state : State) : List Effect × State :=
  ([.lockStorage, .onLock], { state with locked := true, detector := state.detector.stop })

def State.unlock (state : State) : Answer → List Effect × State
  | .confirmed =>
    ([.onUnlock], { state with locked := false, detector := state.detector.start state.now })
  -- `Invalid password or corrupted data`
  | .refused => ([.lockStorage], state)
  | .thrown => ([], state)

/-- A timer that is due fires within `late` milliseconds. -/
def State.mayWait (late : Nat) (state : State) : Bool :=
  state.detector.timer.all fun due => state.now < due + late

def step (late : Nat) : Input → State → Option (List Effect × State)
  | .unlock answer, state => some (state.unlock answer)
  | .lock, state => some state.lock
  | .setAutoLockMinutes minutes, state => some ([], { state with
      detector := state.detector.setTimeoutMs state.now (minutesToInactivityMs minutes) })
  | .touch, state => some ([], { state with detector := state.detector.touch state.now })
  | .activity, state =>
    some ([], { state with detector := state.detector.handleActivity state.now })
  | .destroy, state => some ([], { state with detector := state.detector.stop })
  | .timer, state =>
    if state.detector.timer.any fun due => due ≤ state.now then some state.lock else none
  | .tick, state =>
    if state.mayWait late then some ([], { state with now := state.now + 1 }) else none

abbrev LockTransition := Transition State Input (List Effect)

/-! ## Signs of the user -/

/-- When the input counts as a sign of the user: an unlock while locked, any activity while
unlocked, and a new setting. -/
def signOf (transition : LockTransition) : Option Nat :=
  match transition.input with
  | .unlock .confirmed =>
    if transition.before.detector.active then none else some transition.before.now
  | .touch | .activity | .setAutoLockMinutes _ =>
    if transition.before.detector.active then some transition.before.now else none
  | _ => none

def lastSign (past : List LockTransition) : Option Nat := (past.filterMap signOf).getLast?

theorem lastSign_of_sign {past : List LockTransition} {transition : LockTransition} {now : Nat}
    (sign : signOf transition = some now) : lastSign (past ++ [transition]) = some now := by
  simp [lastSign, List.filterMap_append, sign]

theorem lastSign_of_quiet {past : List LockTransition} {transition : LockTransition}
    (quiet : signOf transition = none) : lastSign (past ++ [transition]) = lastSign past := by
  simp [lastSign, List.filterMap_append, quiet]

/-- The manager was destroyed, and there was no unlock since. -/
def Destroyed (past : List LockTransition) : Prop :=
  ∃ earlier transition later, past = earlier ++ transition :: later ∧
    transition.input = .destroy ∧ ∀ other ∈ later, other.input ≠ .unlock .confirmed

/-- The timer counts from the last sign of the user. -/
structure Watched (late : Nat) (past : List LockTransition) (state : State) : Prop where
  /-- the detector listens only while the wallet is unlocked -/
  unlocked : state.detector.active = true → state.locked = false
  watching : state.locked = false → state.detector.active = false → Destroyed past
  idle : state.detector.active = false → state.detector.timer = none
  timed : state.detector.active = true → ∃ since, lastSign past = some since ∧
    state.detector.timer =
      if state.detector.timeoutMs = 0 then none else some (since + state.detector.timeoutMs)
  punctual : ∀ due ∈ state.detector.timer, state.now ≤ due + late

section Watching

variable {late : Nat} {past : List LockTransition} {transition : LockTransition}
  {before after : State} {detector : InactivityDetector} {now : Nat}

theorem resetTimer_timer : (detector.resetTimer now).timer =
    if detector.timeoutMs = 0 then none else some (now + detector.timeoutMs) := by
  simp only [InactivityDetector.resetTimer, Nat.le_zero_eq]
  split <;> rfl

@[simp] theorem resetTimer_active : (detector.resetTimer now).active = detector.active := by
  simp only [InactivityDetector.resetTimer]
  split <;> rfl

@[simp] theorem resetTimer_timeoutMs :
    (detector.resetTimer now).timeoutMs = detector.timeoutMs := by
  simp only [InactivityDetector.resetTimer]
  split <;> rfl

theorem Watched.reset (sign : signOf transition = some after.now) (unlocked : after.locked = false)
    (active : detector.active = true) (same : after.detector = detector.resetTimer after.now) :
    Watched late (past ++ [transition]) after where
  unlocked _ := unlocked
  watching _ idle := by
    rw [same, resetTimer_active, active] at idle
    cases idle
  idle inactive := by
    rw [same, resetTimer_active, active] at inactive
    cases inactive
  timed _ := ⟨after.now, lastSign_of_sign sign, by
    rw [same, resetTimer_timer, resetTimer_timeoutMs]⟩
  punctual due timed := by
    rw [same, resetTimer_timer] at timed
    split at timed
    · cases timed
    · cases timed
      omega

/-- A detector that was active has been stopped, by a lock or with the manager. -/
theorem Watched.stop (watched : Watched late past before)
    (same : after.detector = before.detector.stop)
    (cause : after.locked = true ∨ transition.input = .destroy) :
    Watched late (past ++ [transition]) after := by
  have inactive : after.detector.active = false ∧ after.detector.timer = none := by
    rw [same, InactivityDetector.stop]
    cases active : before.detector.active with
    | true => exact ⟨rfl, rfl⟩
    | false => exact ⟨active, watched.idle active⟩
  obtain ⟨inactive, idle⟩ := inactive
  refine ⟨fun active => ?_, fun unlocked _ => ?_, fun _ => idle, fun active => ?_, ?_⟩
  · rw [inactive] at active
    cases active
  · obtain locked | destroyed := cause
    · rw [locked] at unlocked
      cases unlocked
    · exact ⟨past, transition, [], rfl, destroyed, List.forall_mem_nil _⟩
  · rw [inactive] at active
    cases active
  · rw [idle]
    nofun

/-- Nothing but the clock has changed, or the time that is set while nothing is timed. -/
theorem Watched.quiet (watched : Watched late past before) (begun : transition.before = before)
    (quiet : signOf transition = none)
    (locked : after.locked = before.locked)
    (active : after.detector.active = before.detector.active)
    (timer : after.detector.timer = before.detector.timer)
    (timeoutMs : before.detector.active = true →
      after.detector.timeoutMs = before.detector.timeoutMs)
    (punctual : ∀ due ∈ before.detector.timer, after.now ≤ due + late) :
    Watched late (past ++ [transition]) after where
  unlocked listening := by
    rw [locked]
    exact watched.unlocked (active ▸ listening)
  watching unlocked idle := by
    have inactive : before.detector.active = false := active ▸ idle
    obtain ⟨earlier, destroyed, later, located, isDestroy, unanswered⟩ :=
      watched.watching (locked ▸ unlocked) inactive
    refine ⟨earlier, destroyed, later ++ [transition], by simp [located], isDestroy, ?_⟩
    -- an unlock would have been a sign, as the detector is not active
    have notUnlock : transition.input ≠ .unlock .confirmed := by
      intro unlocks
      simp [signOf, unlocks, begun, inactive] at quiet
    exact List.forall_mem_append.mpr ⟨unanswered, List.forall_mem_singleton.mpr notUnlock⟩
  idle inactive := timer.trans (watched.idle (active ▸ inactive))
  timed listening := by
    obtain ⟨since, sign, timed⟩ := watched.timed (active ▸ listening)
    rw [timer, timeoutMs (active ▸ listening)]
    exact ⟨since, (lastSign_of_quiet quiet).trans sign, timed⟩
  punctual := by
    rw [timer]
    exact punctual

/-- The user is active: a detector that listens starts its timer anew. -/
theorem Watched.sign (watched : Watched late past before) (begun : transition.before = before)
    (sign : signOf transition = if before.detector.active then some before.now else none)
    (changed : after = { before with detector := before.detector.touch before.now }) :
    Watched late (past ++ [transition]) after := by
  subst changed
  cases active : before.detector.active with
  | true =>
    rw [active] at sign
    exact .reset sign (watched.unlocked active) active (if_pos active)
  | false =>
    rw [active] at sign
    have kept : before.detector.touch before.now = before.detector := by
      rw [InactivityDetector.touch, if_neg (by simp [active])]
    exact watched.quiet begun sign rfl (congrArg _ kept) (congrArg _ kept)
      (fun _ => congrArg _ kept) watched.punctual

theorem Watched.step (watched : Watched late past transition.before)
    (performed : transition.Performed (step late)) :
    Watched late (past ++ [transition]) transition.after := by
  obtain ⟨input, before, effects, after⟩ := transition
  have performed : LockManager.step late input before = some (effects, after) := performed
  cases input with
  | unlock answer =>
    cases answer with
    | confirmed =>
      cases performed
      cases active : before.detector.active with
      | true =>
        have kept : before.detector.start before.now = before.detector := by
          rw [InactivityDetector.start, if_pos active]
        have unlocked := watched.unlocked active
        exact watched.quiet rfl (by simp [signOf, active]) unlocked.symm
          (congrArg _ kept) (congrArg _ kept) (fun _ => congrArg _ kept) watched.punctual
      | false =>
        have started : before.detector.start before.now =
            InactivityDetector.resetTimer { before.detector with active := true } before.now := by
          rw [InactivityDetector.start, if_neg (by simp [active])]
        exact .reset (by simp [signOf, active]) rfl rfl started
    | refused =>
      cases performed
      exact watched.quiet rfl rfl rfl rfl rfl (fun _ => rfl) watched.punctual
    | thrown =>
      cases performed
      exact watched.quiet rfl rfl rfl rfl rfl (fun _ => rfl) watched.punctual
  | lock =>
    cases performed
    exact watched.stop rfl (.inl rfl)
  | destroy =>
    cases performed
    exact watched.stop rfl (.inr rfl)
  | timer =>
    obtain ⟨-, equal⟩ := Option.ite_none_right_eq_some.mp performed
    cases equal
    exact watched.stop rfl (.inl rfl)
  | setAutoLockMinutes minutes =>
    cases performed
    cases active : before.detector.active with
    | true =>
      have changed : before.detector.setTimeoutMs before.now (minutesToInactivityMs minutes) =
          InactivityDetector.resetTimer
            { before.detector with timeoutMs := minutesToInactivityMs minutes } before.now := by
        rw [InactivityDetector.setTimeoutMs]
        exact if_pos active
      have listens : InactivityDetector.active
          { before.detector with timeoutMs := minutesToInactivityMs minutes } = true := active
      exact .reset (by simp [signOf, active]) (watched.unlocked active) listens changed
    | false =>
      have changed : before.detector.setTimeoutMs before.now (minutesToInactivityMs minutes) =
          { before.detector with timeoutMs := minutesToInactivityMs minutes } := by
        rw [InactivityDetector.setTimeoutMs]
        exact if_neg (by simp [active])
      have sameActive : (before.detector.setTimeoutMs before.now
          (minutesToInactivityMs minutes)).active = before.detector.active := by rw [changed]
      have sameTimer : (before.detector.setTimeoutMs before.now
          (minutesToInactivityMs minutes)).timer = before.detector.timer := by rw [changed]
      refine watched.quiet rfl (by simp [signOf, active]) rfl sameActive sameTimer
        (fun listening => ?_) watched.punctual
      rw [active] at listening
      cases listening
  | touch =>
    cases performed
    exact watched.sign rfl rfl rfl
  | activity =>
    cases performed
    exact watched.sign rfl rfl rfl
  | tick =>
    obtain ⟨waits, equal⟩ := Option.ite_none_right_eq_some.mp performed
    cases equal
    refine watched.quiet rfl rfl rfl rfl rfl (fun _ => rfl) fun due timed => ?_
    rw [State.mayWait, Option.mem_def.mp timed] at waits
    exact of_decide_eq_true waits

theorem watched_invariant (late start : Nat) (autoLockMinutes : ℚ) :
    HistoryInvariant (LockManager.step late) (initial start autoLockMinutes) (Watched late) where
  init := {
    unlocked := nofun
    watching := nofun
    idle := fun _ => rfl
    timed := nofun
    punctual := nofun }
  preserved := fun _ _ watched performed => watched.step performed

end Watching

/-- In every run the wallet is locked, or it is not to lock by itself, or its manager was destroyed
since the last unlock, or the user was heard of within the time that is set and the lateness of a
timer; and the timer never fires before that time is over, and leaves the wallet locked. -/
theorem locks_after_inactivity (late start : Nat) (autoLockMinutes : ℚ) (inputs : List Input) :
    ((final (step late) (initial start autoLockMinutes) inputs).locked = true ∨
      (final (step late) (initial start autoLockMinutes) inputs).detector.timeoutMs = 0 ∨
      Destroyed (history (step late) (initial start autoLockMinutes) inputs) ∨
      ∃ since, lastSign (history (step late) (initial start autoLockMinutes) inputs) = some since ∧
        (final (step late) (initial start autoLockMinutes) inputs).now ≤ since +
          (final (step late) (initial start autoLockMinutes) inputs).detector.timeoutMs + late) ∧
      ∀ earlier transition later,
        history (step late) (initial start autoLockMinutes) inputs =
          earlier ++ transition :: later →
        transition.input = .timer →
          (∃ since, lastSign earlier = some since ∧
            since + transition.before.detector.timeoutMs ≤ transition.before.now) ∧
          transition.before.locked = false ∧ transition.after.locked = true := by
  have invariant := watched_invariant late start autoLockMinutes
  constructor
  · have watched := invariant.holds_final inputs
    revert watched
    generalize final (step late) (initial start autoLockMinutes) inputs = state
    intro watched
    cases unlocked : state.locked with
    | true => exact .inl rfl
    | false =>
      cases active : state.detector.active with
      | false => exact .inr (.inr (.inl (watched.watching unlocked active)))
      | true =>
        obtain ⟨since, sign, timed⟩ := watched.timed active
        by_cases never : state.detector.timeoutMs = 0
        · exact .inr (.inl never)
        · rw [if_neg never] at timed
          exact .inr (.inr (.inr ⟨since, sign, watched.punctual _ timed⟩))
  · intro earlier transition later located fires
    obtain ⟨watched, performed⟩ := invariant.holds_before located
    obtain ⟨input, before, effects, after⟩ := transition
    cases fires
    have performed : step late .timer before = some (effects, after) := performed
    obtain ⟨elapsed, equal⟩ := Option.ite_none_right_eq_some.mp performed
    cases equal
    obtain ⟨due, timed, isDue⟩ := (Option.any_eq_true _ _).mp elapsed
    cases active : before.detector.active with
    | false =>
      have idle : before.detector.timer = none := watched.idle active
      rw [idle] at timed
      cases timed
    | true =>
      obtain ⟨since, sign, counted⟩ := watched.timed active
      have timed : before.detector.timer = some due := timed
      rw [counted] at timed
      split at timed
      · cases timed
      · cases timed
        exact ⟨⟨since, sign, of_decide_eq_true isDue⟩, watched.unlocked active, rfl⟩

end Ancore.Wallet.LockManager
