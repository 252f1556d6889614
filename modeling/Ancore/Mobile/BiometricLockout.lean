import Mathlib.Data.List.Induction

/-! # The lockout of biometric unlocking

`BiometricLockoutManager` counts failed attempts and locks for a time, or for good.  Its state is
stored after each change, and a manager that starts again loads it.  A lockout that has run out
is cleared together with the count when it is loaded; a manager that goes on keeps both.
-/

namespace Ancore.Mobile.BiometricLockout

/-! ## The manager -/

/-- `BIOMETRIC_MAX_ATTEMPTS` -/
def biometricMaxAttempts : ℕ := 3

/-- `LOCKOUT_DURATION_MS` -/
@[irreducible] def lockoutDurationMs : ℕ := 30000

inductive BiometricFailureReason where
  | userCancel
  | authenticationFailed
  | biometricNotEnrolled
  | biometricNotAvailable
  | lockout
  | lockoutPermanent
  | unknown
  deriving DecidableEq

structure BiometricLockoutState where
  failedAttempts : ℕ
  lockedUntil : Option ℕ
  lastFailureReason : Option BiometricFailureReason
  permanentlyLocked : Bool
  deriving DecidableEq

/-- `DEFAULT_LOCKOUT_STATE` -/
def defaultLockoutState : BiometricLockoutState where
  failedAttempts := 0
  lockedUntil := none
  lastFailureReason := none
  permanentlyLocked := false

/-- What the storage holds: the text of a state, or one that is not. -/
inductive StoredItem where
  | state (persisted : BiometricLockoutState)
  | corrupt
  deriving DecidableEq

/-- A manager, the item of the storage it was made with, and `Date.now()`. -/
structure Device where
  now : ℕ
  storage : Option StoredItem
  state : BiometricLockoutState
  deriving DecidableEq

namespace Device

variable (device : Device)

def isLocked : Bool :=
  if device.state.permanentlyLocked then true
  else
    match device.state.lockedUntil with
    | some lockedUntil => device.now < lockedUntil
    | none => false

def isPermanentlyLocked : Bool := device.state.permanentlyLocked

def persist : Device := { device with storage := some (.state device.state) }

def reset : Device := { device with state := defaultLockoutState, storage := none }

def setTimedLockout (reason : BiometricFailureReason) : Device :=
  persist { device with
    state := { device.state with
      lockedUntil := some (device.now + lockoutDurationMs)
      lastFailureReason := some reason } }

def setPermanentLockout (reason : BiometricFailureReason) : Device :=
  persist { device with
    state := { device.state with
      permanentlyLocked := true
      lockedUntil := none
      lastFailureReason := some reason } }

def clearTimedLockout : Device :=
  persist { device with
    state := { device.state with
      failedAttempts := 0
      lockedUntil := none
      lastFailureReason := none } }

def isTimedLockoutExpired : Bool :=
  match device.state.lockedUntil with
  | some lockedUntil => !device.state.permanentlyLocked && lockedUntil ≤ device.now
  | none => false

def recordFailure (reason : BiometricFailureReason) : Device :=
  match reason with
  | .lockoutPermanent => device.setPermanentLockout reason
  | .lockout => device.setTimedLockout reason
  | .userCancel => device
  | _ =>
    let device := { device with
      state := { device.state with
        failedAttempts := device.state.failedAttempts + 1
        lastFailureReason := some reason } }
    if biometricMaxAttempts ≤ device.state.failedAttempts then device.setTimedLockout reason
    else device.persist

def recordSuccess : Device := device.reset

def initializeManager : Device :=
  match device.storage with
  | none => device
  | some .corrupt => device.reset
  | some (.state persisted) =>
    let device := { device with state := persisted }
    if device.isTimedLockoutExpired then device.clearTimedLockout else device

/-- `new BiometricLockoutManager(storage)`, and `initialize()`. -/
def restart : Device := initializeManager { device with state := defaultLockoutState }

/-- A device where nothing is stored. -/
def new (now : ℕ) : Device where
  now := now
  storage := none
  state := defaultLockoutState

end Device

/-! ## Histories -/

inductive Event where
  | wait (milliseconds : ℕ)
  | recordFailure (reason : BiometricFailureReason)
  | recordSuccess
  | reset
  | restart
  deriving DecidableEq

def Device.step (device : Device) : Event → Device
  | .wait milliseconds => { device with now := device.now + milliseconds }
  | .recordFailure reason => device.recordFailure reason
  | .recordSuccess => device.recordSuccess
  | .reset => device.reset
  | .restart => device.restart

def Device.run (device : Device) (history : List Event) : Device := history.foldl Device.step device

/-- The history without the restarts. -/
def uninterrupted (history : List Event) : List Event := history.filter (· ≠ .restart)

/-- At each place of the history, and whatever is called there, what is locked is what would be
locked without the restarts. -/
def SurvivesRestarts (start : ℕ) (history : List Event) : Prop :=
  ∀ earlier, earlier <+: history → ∀ later, (∀ event ∈ later, event ≠ .restart) →
    ((Device.new start).run (earlier ++ later)).isLocked =
        ((Device.new start).run (uninterrupted (earlier ++ later))).isLocked ∧
      ((Device.new start).run (earlier ++ later)).isPermanentlyLocked =
        ((Device.new start).run (uninterrupted (earlier ++ later))).isPermanentlyLocked

/-- A restart would drop failures that are counted. -/
def Device.Forgets (device : Device) : Prop :=
  device.isTimedLockoutExpired = true ∧ 0 < device.state.failedAttempts

/-- No restart of the history comes when a lockout has run out and failures are counted. -/
def RestartsForgetNothing (start : ℕ) (history : List Event) : Prop :=
  ∀ earlier later, history = earlier ++ .restart :: later →
    ¬ ((Device.new start).run earlier).Forgets

/-! ## The storage -/

section Storage

variable {device : Device}

/-- The storage holds the state, or nothing where the state is the default one. -/
def Device.Persisted (device : Device) : Prop :=
  device.storage = some (.state device.state) ∨
    device.storage = none ∧ device.state = defaultLockoutState

theorem persisted_recordFailure (persisted : device.Persisted) (reason : BiometricFailureReason) :
    (device.recordFailure reason).Persisted := by
  cases reason with
  | userCancel => exact persisted
  | lockout | lockoutPermanent => exact .inl rfl
  | authenticationFailed | biometricNotEnrolled | biometricNotAvailable | unknown =>
    unfold Device.recordFailure
    dsimp only
    split <;> exact .inl rfl

/-- A manager that starts again is the one before, but for a lockout that has run out. -/
theorem restart_eq (persisted : device.Persisted) :
    device.restart = if device.isTimedLockoutExpired then device.clearTimedLockout else device := by
  rcases persisted with stored | ⟨nothing, fresh⟩
  · obtain ⟨now, storage, state⟩ := device
    dsimp only at stored
    rw [stored]
    rfl
  · obtain ⟨now, storage, state⟩ := device
    dsimp only at nothing fresh
    rw [nothing, fresh]
    rfl

theorem persisted_step (persisted : device.Persisted) (event : Event) :
    (device.step event).Persisted := by
  cases event with
  | wait milliseconds => exact persisted
  | recordFailure reason => exact persisted_recordFailure persisted reason
  | recordSuccess | reset => exact .inr ⟨rfl, rfl⟩
  | restart =>
    change (device.restart).Persisted
    rw [restart_eq persisted]
    split
    · exact .inl rfl
    · exact persisted

theorem persisted_run (persisted : device.Persisted) (history : List Event) :
    (device.run history).Persisted := by
  induction history generalizing device with
  | nil => exact persisted
  | cons event history ih => exact ih (persisted_step persisted event)

theorem persisted_new (start : ℕ) : (Device.new start).Persisted := .inr ⟨rfl, rfl⟩

end Storage

/-! ## Two managers -/

/-- The two count alike and lock alike, but for a lockout that has run out. -/
structure Alike (restarted plain : Device) : Prop where
  now : restarted.now = plain.now
  failedAttempts : restarted.state.failedAttempts = plain.state.failedAttempts
  permanentlyLocked : restarted.state.permanentlyLocked = plain.state.permanentlyLocked
  lockedUntil : restarted.state.lockedUntil = plain.state.lockedUntil ∨
    restarted.state.lockedUntil = none ∧
      ∃ lockedUntil ≤ plain.now, plain.state.lockedUntil = some lockedUntil

section Alike

variable {restarted plain : Device}

theorem Alike.isLocked (alike : Alike restarted plain) : restarted.isLocked = plain.isLocked := by
  unfold Device.isLocked
  rw [alike.permanentlyLocked, alike.now]
  rcases alike.lockedUntil with same | ⟨cleared, lockedUntil, expired, locked⟩
  · rw [same]
  · rw [cleared, locked]
    simp [Nat.not_lt.mpr expired]

theorem alike_setTimedLockout {reason : BiometricFailureReason} (now : restarted.now = plain.now)
    (failedAttempts : restarted.state.failedAttempts = plain.state.failedAttempts)
    (permanentlyLocked : restarted.state.permanentlyLocked = plain.state.permanentlyLocked) :
    Alike (restarted.setTimedLockout reason) (plain.setTimedLockout reason) :=
  ⟨now, failedAttempts, permanentlyLocked,
    .inl (congrArg (fun now => some (now + lockoutDurationMs)) now)⟩

theorem alike_recordFailure (alike : Alike restarted plain) (reason : BiometricFailureReason) :
    Alike (restarted.recordFailure reason) (plain.recordFailure reason) := by
  obtain ⟨now, failedAttempts, permanentlyLocked, lockedUntil⟩ := alike
  cases reason with
  | userCancel => exact ⟨now, failedAttempts, permanentlyLocked, lockedUntil⟩
  | lockout => exact alike_setTimedLockout now failedAttempts permanentlyLocked
  | lockoutPermanent => exact ⟨now, failedAttempts, rfl, .inl rfl⟩
  | authenticationFailed | biometricNotEnrolled | biometricNotAvailable | unknown =>
    have counted := congrArg (· + 1) failedAttempts
    unfold Device.recordFailure
    dsimp only at counted ⊢
    rw [counted]
    split
    · exact alike_setTimedLockout now rfl permanentlyLocked
    · exact ⟨now, rfl, permanentlyLocked, lockedUntil⟩

theorem alike_step (alike : Alike restarted plain) {event : Event} (other : event ≠ .restart) :
    Alike (restarted.step event) (plain.step event) := by
  cases event with
  | wait milliseconds =>
    obtain ⟨now, failedAttempts, permanentlyLocked, lockedUntil⟩ := alike
    refine ⟨congrArg (· + milliseconds) now, failedAttempts, permanentlyLocked, ?_⟩
    rcases lockedUntil with same | ⟨cleared, lockedUntil, expired, locked⟩
    · exact .inl same
    · exact .inr ⟨cleared, lockedUntil, Nat.le_add_right_of_le expired, locked⟩
  | recordFailure reason => exact alike_recordFailure alike reason
  | recordSuccess | reset => exact ⟨alike.now, rfl, rfl, .inl rfl⟩
  | restart => exact absurd rfl other

theorem alike_restart (alike : Alike restarted plain) (persisted : restarted.Persisted)
    (keeps : ¬ restarted.Forgets) : Alike restarted.restart plain := by
  rw [restart_eq persisted]
  split
  · rename_i expired
    have none : restarted.state.failedAttempts = 0 :=
      Nat.eq_zero_of_not_pos fun counted => keeps ⟨expired, counted⟩
    refine ⟨alike.now, none.symm.trans alike.failedAttempts, alike.permanentlyLocked,
      .inr ⟨rfl, ?_⟩⟩
    unfold Device.isTimedLockoutExpired at expired
    split at expired
    · rename_i lockedUntil locked
      rw [Bool.and_eq_true, decide_eq_true_eq] at expired
      rcases alike.lockedUntil with same | ⟨cleared, -⟩
      · exact ⟨lockedUntil, alike.now ▸ expired.2, same ▸ locked⟩
      · rw [cleared] at locked
        cases locked
    · cases expired
  · exact alike

theorem alike_run (alike : Alike restarted plain) {later : List Event}
    (calls : ∀ event ∈ later, event ≠ .restart) :
    Alike (restarted.run later) (plain.run later) := by
  induction later generalizing restarted plain with
  | nil => exact alike
  | cons event later ih =>
    obtain ⟨first, rest⟩ := List.forall_mem_cons.mp calls
    exact ih (alike_step alike first) rest

end Alike

/-! ## Runs -/

section Runs

variable {start : ℕ} {history : List Event} {event : Event}

theorem run_append (device : Device) (earlier later : List Event) :
    device.run (earlier ++ later) = (device.run earlier).run later := List.foldl_append

theorem run_concat (device : Device) (earlier : List Event) (event : Event) :
    device.run (earlier ++ [event]) = (device.run earlier).step event := by
  rw [run_append]
  rfl

theorem uninterrupted_append (earlier later : List Event) :
    uninterrupted (earlier ++ later) = uninterrupted earlier ++ uninterrupted later :=
  List.filter_append ..

theorem uninterrupted_of_calls {later : List Event} (calls : ∀ event ∈ later, event ≠ .restart) :
    uninterrupted later = later :=
  List.filter_eq_self.mpr fun event member => decide_eq_true (calls event member)

/-- Restarts of the history with one event more. -/
theorem restartsForgetNothing_concat :
    RestartsForgetNothing start (history ++ [event]) ↔
      RestartsForgetNothing start history ∧
        (event = .restart → ¬ ((Device.new start).run history).Forgets) := by
  constructor
  · intro all
    refine ⟨fun earlier later split => all earlier (later ++ [event]) ?_, ?_⟩
    · rw [split, List.append_assoc, List.cons_append]
    · rintro rfl
      exact all history [] rfl
  · rintro ⟨past, now⟩ earlier later split
    rcases List.eq_nil_or_concat later with rfl | ⟨before, last, rfl⟩
    · obtain ⟨rfl, same⟩ := List.append_inj' split rfl
      exact now (List.cons.inj same).1
    · rw [List.concat_eq_append, ← List.cons_append, ← List.append_assoc] at split
      exact past earlier before (List.append_inj' split rfl).1

theorem alike_of_forgetNothing (keeps : RestartsForgetNothing start history) :
    Alike ((Device.new start).run history)
      ((Device.new start).run (uninterrupted history)) := by
  induction history using List.reverseRecOn with
  | nil => exact ⟨rfl, rfl, rfl, .inl rfl⟩
  | append_singleton history event ih =>
    obtain ⟨past, now⟩ := restartsForgetNothing_concat.mp keeps
    rw [run_concat, uninterrupted_append]
    by_cases restarts : event = .restart
    · subst restarts
      rw [show uninterrupted [.restart] = [] from rfl, List.append_nil]
      exact alike_restart (ih past) (persisted_run (persisted_new start) history) (now rfl)
    · have call : uninterrupted [event] = [event] :=
        uninterrupted_of_calls (List.forall_mem_singleton.mpr restarts)
      rw [call, run_concat]
      exact alike_step (ih past) restarts

theorem isLocked_setTimedLockout (device : Device) (reason : BiometricFailureReason) :
    (device.setTimedLockout reason).isLocked = true := by
  have later : device.now < device.now + lockoutDurationMs := by
    unfold lockoutDurationMs
    omega
  unfold Device.isLocked
  split
  · rfl
  · exact decide_eq_true later

theorem failedAttempts_recordFailure (device : Device) :
    (device.recordFailure .authenticationFailed).state.failedAttempts =
      device.state.failedAttempts + 1 := by
  unfold Device.recordFailure
  dsimp only
  split <;> rfl

theorem isLocked_recordFailure {device : Device}
    (last : biometricMaxAttempts ≤ device.state.failedAttempts + 1) :
    (device.recordFailure .authenticationFailed).isLocked = true := by
  unfold Device.recordFailure
  dsimp only
  rw [if_pos last]
  exact isLocked_setTimedLockout _ _

/-- Two more failures tell a manager that has dropped its count from one that has not. -/
theorem two_failures_differ {device plain : Device} (alike : Alike device plain)
    (persisted : device.Persisted) (forgets : device.Forgets) :
    (device.restart.run [.recordFailure .authenticationFailed,
        .recordFailure .authenticationFailed]).isLocked = false ∧
      (plain.run [.recordFailure .authenticationFailed,
        .recordFailure .authenticationFailed]).isLocked = true := by
  obtain ⟨expired, counted⟩ := forgets
  rw [restart_eq persisted, if_pos expired]
  have temporary : device.state.permanentlyLocked = false := by
    unfold Device.isTimedLockoutExpired at expired
    split at expired
    · rw [Bool.and_eq_true, Bool.not_eq_true'] at expired
      exact expired.1
    · cases expired
  constructor
  · simp [Device.run, Device.step, Device.recordFailure, Device.clearTimedLockout, Device.persist,
      Device.isLocked, biometricMaxAttempts, temporary]
  · rw [alike.failedAttempts] at counted
    refine isLocked_recordFailure ?_
    change biometricMaxAttempts ≤
      (plain.recordFailure .authenticationFailed).state.failedAttempts + 1
    rw [failedAttempts_recordFailure]
    unfold biometricMaxAttempts
    omega

theorem survivesRestarts_iff :
    SurvivesRestarts start history ↔ RestartsForgetNothing start history := by
  constructor
  · intro survives
    induction history using List.reverseRecOn with
    | nil =>
      intro earlier later split
      cases earlier <;> cases split
    | append_singleton history event ih =>
      have past := ih fun earlier isPrefix =>
        survives earlier (isPrefix.trans (List.prefix_append _ _))
      refine restartsForgetNothing_concat.mpr ⟨past, ?_⟩
      rintro rfl forgets
      have same := (survives _ List.prefix_rfl [.recordFailure .authenticationFailed,
        .recordFailure .authenticationFailed] (by decide)).1
      have differ := two_failures_differ (alike_of_forgetNothing past)
        (persisted_run (persisted_new start) history) forgets
      rw [run_append, run_concat, uninterrupted_append, uninterrupted_append, run_append,
        show uninterrupted [.restart] = [] from rfl, List.append_nil] at same
      exact absurd (differ.1.symm.trans (same.trans differ.2)) Bool.false_ne_true
  · intro keeps earlier isPrefix later calls
    have keepsEarlier : RestartsForgetNothing start earlier := by
      obtain ⟨rest, rfl⟩ := isPrefix
      intro first second split
      exact keeps first (second ++ rest) (by rw [split, List.append_assoc, List.cons_append])
    rw [run_append, uninterrupted_append, uninterrupted_of_calls calls, run_append]
    have alike := alike_run (alike_of_forgetNothing keepsEarlier) calls
    exact ⟨alike.isLocked, alike.permanentlyLocked⟩

/-! ### Permanent lockouts -/

theorem permanentlyLocked_recordFailure {device : Device}
    (locked : device.isPermanentlyLocked = true) (reason : BiometricFailureReason) :
    (device.recordFailure reason).isPermanentlyLocked = true := by
  cases reason with
  | userCancel => exact locked
  | lockout => exact locked
  | lockoutPermanent => rfl
  | authenticationFailed | biometricNotEnrolled | biometricNotAvailable | unknown =>
    unfold Device.recordFailure
    dsimp only
    split <;> exact locked

theorem permanentlyLocked_step {device : Device} (persisted : device.Persisted)
    (locked : device.isPermanentlyLocked = true) (noSuccess : event ≠ .recordSuccess)
    (noReset : event ≠ .reset) : (device.step event).isPermanentlyLocked = true := by
  cases event with
  | wait milliseconds => exact locked
  | recordFailure reason => exact permanentlyLocked_recordFailure locked reason
  | recordSuccess => exact absurd rfl noSuccess
  | reset => exact absurd rfl noReset
  | restart =>
    change device.restart.isPermanentlyLocked = true
    rw [restart_eq persisted]
    split <;> exact locked

theorem permanentlyLocked_run {device : Device} (persisted : device.Persisted)
    (locked : device.isPermanentlyLocked = true)
    (kept : ∀ event ∈ history, event ≠ .recordSuccess ∧ event ≠ .reset) :
    (device.run history).isPermanentlyLocked = true := by
  induction history generalizing device with
  | nil => exact locked
  | cons event history ih =>
    obtain ⟨first, rest⟩ := List.forall_mem_cons.mp kept
    exact ih (persisted_step persisted event)
      (permanentlyLocked_step persisted locked first.1 first.2) rest

end Runs

/-- Restarts leave the lockout as it is exactly when none of them comes when a lockout has run out
and failures are counted; and only a success or a reset ends a permanent lockout. -/
theorem lockout_survives_restarts_iff (start : ℕ) (history : List Event) :
    (SurvivesRestarts start history ↔ RestartsForgetNothing start history) ∧
      ∀ later, (∀ event ∈ later, event ≠ .recordSuccess ∧ event ≠ .reset) →
        ((Device.new start).run history).isPermanentlyLocked = true →
          ((Device.new start).run (history ++ later)).isPermanentlyLocked = true := by
  refine ⟨survivesRestarts_iff, fun later kept locked => ?_⟩
  rw [run_append]
  exact permanentlyLocked_run (persisted_run (persisted_new start) history) locked kept

theorem lockout_survives_restarts_of_permanent :
    ((Device.new 0).run ([.recordFailure .lockoutPermanent] ++
      [.wait 60000, .restart, .recordFailure .unknown])).isPermanentlyLocked = true :=
  (lockout_survives_restarts_iff 0 [.recordFailure .lockoutPermanent]).2
    [.wait 60000, .restart, .recordFailure .unknown] (by decide) rfl

/-- Three failures lock for half a minute; then the application is started again. -/
def forgottenFailures : List Event :=
  List.replicate 3 (.recordFailure .authenticationFailed) ++ [.wait 30000, .restart]

/-- With the restart the next failure is the first of three, without it it locks at once. -/
theorem restart_forgets_failures : ¬ ∀ start history, SurvivesRestarts start history := by
  intro survives
  have same := (survives 0 forgottenFailures forgottenFailures List.prefix_rfl
    [.recordFailure .authenticationFailed] (by decide)).1
  revert same
  decide +kernel

end Ancore.Mobile.BiometricLockout
