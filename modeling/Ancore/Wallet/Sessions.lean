import Ancore.Library.Runs
import Ancore.Library.Solo
import Ancore.Wallet.Background

/-! # How long a session lasts

The settings are stored as a text, of which the background reads no minutes, so a
session is persisted for 24 hours; the flag in memory has no expiry at all.  A
lease keeps beside the session when it was last unlocked or refreshed in time, and
whether the service worker was restarted once those 24 hours had passed. -/

namespace Ancore.Wallet

open Ancore.Library Ancore.Vault

variable {Value : Type} {sealing : Sealing (Plaintext Value)}

inductive SessionOperation where
  | unlock
  | refresh
  | restart
  | check
  deriving DecidableEq, Repr

/-- A new service worker restores the session. -/
def restart : WalletProgram sealing Bool := do
  background (.setSessionUnlocked false)
  restoreUnlockSessionFromStorage

def SessionOperation.program : SessionOperation → WalletProgram sealing Bool
  | .unlock => do
    persistUnlockSession
    pure true
  | .refresh => do
    refreshSessionExpiry
    pure true
  | .restart => Wallet.restart
  | .check => isBackgroundSessionUnlockedAsync

/-- When the session was last unlocked or refreshed in time, and whether a restart came after the 24
hours for which it was persisted. -/
structure Lease where
  renewed : Option Millis
  lapsed : Bool
  deriving DecidableEq, Repr

/-- More than the minutes of the settings have passed. -/
def Lease.Over (lease : Lease) (autoLockMinutes : ℚ) (now : Millis) : Prop :=
  ∃ renewed ∈ lease.renewed, (renewed : ℚ) + autoLockMinutes * 60000 < now

instance (lease : Lease) (autoLockMinutes : ℚ) (now : Millis) :
    Decidable (lease.Over autoLockMinutes now) :=
  inferInstanceAs (Decidable (∃ renewed ∈ lease.renewed, _))

/-- The lease after an operation, by the flag it found. -/
def Lease.after (lease : Lease) (autoLockMinutes : ℚ) (now : Millis) (sessionUnlocked : Bool) :
    SessionOperation → Lease
  | .unlock => ⟨some now, false⟩
  | .refresh =>
    if sessionUnlocked ∧ ¬ lease.Over autoLockMinutes now then ⟨some now, false⟩ else lease
  | .restart =>
    if ∃ renewed ∈ lease.renewed, (renewed : ℚ) + defaultUnlockSessionTtlMs ≤ now then
      ⟨lease.renewed, true⟩
    else lease
  | .check => lease

theorem Lease.after_restart (lease : Lease) (autoLockMinutes : ℚ) (now : Millis)
    (sessionUnlocked : Bool) : lease.after autoLockMinutes now sessionUnlocked .restart =
      if ∃ renewed ∈ lease.renewed, (renewed : ℚ) + defaultUnlockSessionTtlMs ≤ now then
        ⟨lease.renewed, true⟩
      else lease := rfl

/-- The service worker with the lease of its session. -/
structure LeasedWorker (sealing : Sealing (Plaintext Value)) where
  worker : ServiceWorker sealing
  lease : Lease

/-- An operation, and when. -/
abbrev SessionStep : Type := SessionOperation × Millis

/-- The operation run alone. -/
def SessionOperation.run (operation : SessionOperation) (conditions : Conditions sealing)
    (now : Millis) (worker : ServiceWorker sealing) :
    Bool × ServiceWorker sealing × List (Conditions sealing) :=
  operation.program.alone performWallet { conditions with dateNow := now } (worker, [])

def sessionStep (autoLockMinutes : ℚ) (conditions : Conditions sealing) (step : SessionStep)
    (state : LeasedWorker sealing) : Option (Bool × LeasedWorker sealing) :=
  some ((step.1.run conditions step.2 state.worker).1,
    ⟨(step.1.run conditions step.2 state.worker).2.1,
      state.lease.after autoLockMinutes step.2 state.worker.background.sessionUnlocked step.1⟩)

/-- A service worker that starts with settings as their store writes them, and no session. -/
def LeasedWorker.start (manager : Manager sealing) (unlockAttempts : Option UnlockAttemptState)
    (auth : Option StoredAuth) (autoLockMinutes : ℚ) (version : Nat) : LeasedWorker sealing where
  worker := ⟨manager, ⟨false, unlockAttempts, none, auth, some (.text ⟨autoLockMinutes⟩ version)⟩⟩
  lease := ⟨none, false⟩

/-- Once the lease is over the session is locked, and a refresh does not revive it. -/
def Honoured (autoLockMinutes : ℚ)
    (transition : Transition (LeasedWorker sealing) SessionStep Bool) : Prop :=
  transition.before.lease.Over autoLockMinutes transition.input.2 →
    match transition.input.1 with
    | .check => transition.output = false
    | .refresh =>
      transition.after.worker.background.unlockSession =
        transition.before.worker.background.unlockSession
    | _ => True

/-- Once the lease is over, the session is asked for and refreshed only after a restart that came
when it had been persisted for 24 hours. -/
def RestartedBefore (autoLockMinutes : ℚ)
    (transition : Transition (LeasedWorker sealing) SessionStep Bool) : Prop :=
  transition.before.lease.Over autoLockMinutes transition.input.2 →
    transition.input.1 = .check ∨ transition.input.1 = .refresh →
      transition.before.lease.lapsed = true

instance (autoLockMinutes : ℚ)
    (transition : Transition (LeasedWorker sealing) SessionStep Bool) :
    Decidable (RestartedBefore autoLockMinutes transition) :=
  inferInstanceAs (Decidable (_ → _ → _))

/-! ## One operation -/

section Operations

variable {conditions : Conditions sealing} {now : Millis} {worker : ServiceWorker sealing}

theorem run_unlock :
    (SessionOperation.unlock.run conditions now worker).2.1.background =
      { worker.background with
        unlockSession := some ⟨now, now + ttlOf worker.background.settings⟩
        sessionUnlocked := true } := rfl

theorem run_refresh :
    (SessionOperation.refresh.run conditions now worker).2.1.background =
      if worker.background.sessionUnlocked then { worker.background with
        unlockSession := some ⟨now, now + ttlOf worker.background.settings⟩
        sessionUnlocked := true }
      else worker.background := by
  obtain ⟨manager, ⟨unlocked, attempts, session, auth, settings⟩⟩ := worker
  cases unlocked with
  | false => rfl
  | true => rfl

/-- A stored session is restored while it is valid, and removed when it is not. -/
def Background.restored (state : Background) (now : Millis) : Background :=
  { state with
    sessionUnlocked := state.unlockSession.any (isUnlockSessionValid · now)
    unlockSession := state.unlockSession.filter (isUnlockSessionValid · now) }

theorem Background.restored_of_missing {state : Background} (missing : state.unlockSession = none)
    (locked : state.sessionUnlocked = false) : state.restored now = state := by
  obtain ⟨unlocked, attempts, session, auth, settings⟩ := state
  obtain rfl : session = none := missing
  obtain rfl : unlocked = false := locked
  rfl

theorem alone_restore :
    (restoreUnlockSessionFromStorage.alone performWallet conditions (worker, [])).1 =
        worker.background.unlockSession.any (isUnlockSessionValid · conditions.dateNow) ∧
      (restoreUnlockSessionFromStorage.alone performWallet conditions
        (worker, [])).2.1.background = worker.background.restored conditions.dateNow := by
  obtain ⟨manager, ⟨unlocked, attempts, session, auth, settings⟩⟩ := worker
  cases session with
  | none => exact ⟨rfl, rfl⟩
  | some record =>
    have unfolded : restoreUnlockSessionFromStorage.alone performWallet conditions
        (⟨manager, ⟨unlocked, attempts, some record, auth, settings⟩⟩, []) =
      Program.alone performWallet conditions
        (if isUnlockSessionValid record conditions.dateNow then do
          background (.setSessionUnlocked true)
          pure true
        else do
          background .removeUnlockSession
          background (.setSessionUnlocked false)
          pure false) (⟨manager, ⟨unlocked, attempts, some record, auth, settings⟩⟩, []) := rfl
    rw [unfolded, Background.restored, Option.any_some, Option.filter_some]
    cases isUnlockSessionValid record conditions.dateNow with
    | false => exact ⟨rfl, rfl⟩
    | true => exact ⟨rfl, rfl⟩

theorem run_restart :
    (SessionOperation.restart.run conditions now worker).2.1.background =
      worker.background.restored now :=
  (@alone_restore _ _ { conditions with dateNow := now } ⟨worker.manager,
    { worker.background with sessionUnlocked := false }⟩).2

theorem run_check :
    SessionOperation.check.run conditions now worker =
      if worker.background.sessionUnlocked then (true, worker, [])
      else restoreUnlockSessionFromStorage.alone performWallet { conditions with dateNow := now }
        (worker, []) := by
  obtain ⟨manager, ⟨unlocked, attempts, session, auth, settings⟩⟩ := worker
  cases unlocked with
  | false => rfl
  | true => rfl

end Operations

/-! ## Runs -/

/-- The session is over, or it lasts from its renewal. -/
inductive Lasting (autoLockMinutes : ℚ) (version : Nat) : LeasedWorker sealing → Prop
  | ended {worker : ServiceWorker sealing} {lease : Lease}
    (settings : worker.background.settings = some (.text ⟨autoLockMinutes⟩ version))
    (locked : worker.background.sessionUnlocked = false)
    (missing : worker.background.unlockSession = none)
    (lapsed : lease.renewed = none ∨ lease.lapsed = true) :
    Lasting autoLockMinutes version ⟨worker, lease⟩
  | lasts {worker : ServiceWorker sealing} (renewed : Millis)
    (settings : worker.background.settings = some (.text ⟨autoLockMinutes⟩ version))
    (unlocked : worker.background.sessionUnlocked = true)
    (persisted : worker.background.unlockSession =
      some ⟨renewed, renewed + defaultUnlockSessionTtlMs⟩) :
    Lasting autoLockMinutes version ⟨worker, ⟨some renewed, false⟩⟩

section Steps

variable {autoLockMinutes : ℚ} {version : Nat} {conditions : Conditions sealing}
  {transition : Transition (LeasedWorker sealing) SessionStep Bool} {now : Millis}

/-- The text of the settings has no minutes to read. -/
theorem ttlOf_text (state : SettingsState) (version : Nat) :
    ttlOf (some (.text state version)) = defaultUnlockSessionTtlMs := rfl

theorem Lasting.settings {state : LeasedWorker sealing}
    (lasting : Lasting autoLockMinutes version state) :
    state.worker.background.settings = some (.text ⟨autoLockMinutes⟩ version) := by
  cases lasting with
  | ended settings => exact settings
  | lasts renewed settings => exact settings

/-- What is persisted now lasts from now. -/
theorem lasting_of_persisted {worker : ServiceWorker sealing} {state : Background}
    (settings : state.settings = some (.text ⟨autoLockMinutes⟩ version))
    (persisted : worker.background = { state with
      unlockSession := some ⟨now, now + ttlOf state.settings⟩
      sessionUnlocked := true }) :
    Lasting autoLockMinutes version ⟨worker, ⟨some now, false⟩⟩ := by
  refine .lasts now ?_ ?_ ?_
  · rw [persisted, settings]
  · rw [persisted]
  · rw [persisted, settings, ttlOf_text]

/-- A refresh that comes in time, or finds the session over, keeps the session as it should be. -/
theorem lasting_refresh {state : LeasedWorker sealing}
    (lasting : Lasting autoLockMinutes version state)
    (honoured : state.lease.Over autoLockMinutes now → state.lease.lapsed = true) :
    Lasting autoLockMinutes version ⟨(SessionOperation.refresh.run conditions now state.worker).2.1,
      state.lease.after autoLockMinutes now state.worker.background.sessionUnlocked .refresh⟩ := by
  cases lasting with
  | @ended worker lease settings locked missing lapsed =>
    have unchanged := @run_refresh _ _ conditions now worker
    rw [locked, if_neg nofun] at unchanged
    have kept : lease.after autoLockMinutes now worker.background.sessionUnlocked .refresh =
        lease := if_neg fun effective => by rw [locked] at effective; cases effective.1
    dsimp only
    rw [kept]
    exact .ended (by rw [unchanged, settings]) (by rw [unchanged, locked])
      (by rw [unchanged, missing]) lapsed
  | @lasts worker renewed settings unlocked persisted =>
    have inTime : ¬ (⟨some renewed, false⟩ : Lease).Over autoLockMinutes now :=
      fun late => absurd (honoured late) nofun
    have renews : (⟨some renewed, false⟩ : Lease).after autoLockMinutes now
        worker.background.sessionUnlocked .refresh = ⟨some now, false⟩ :=
      if_pos ⟨unlocked, inTime⟩
    dsimp only
    rw [renews]
    refine lasting_of_persisted settings ?_
    rw [run_refresh, if_pos unlocked]

/-- A restart ends the session where 24 hours have passed since it was persisted, and only there. -/
theorem lasting_restart {state : LeasedWorker sealing}
    (lasting : Lasting autoLockMinutes version state) :
    Lasting autoLockMinutes version ⟨(SessionOperation.restart.run conditions now state.worker).2.1,
      state.lease.after autoLockMinutes now state.worker.background.sessionUnlocked .restart⟩ := by
  cases lasting with
  | @ended worker lease settings locked missing lapsed =>
    refine .ended ?_ ?_ ?_ ?_
    · rw [run_restart]
      exact settings
    · rw [run_restart, Background.restored, missing]
      rfl
    · rw [run_restart, Background.restored, missing]
      rfl
    · rw [Lease.after_restart]
      split
      · exact .inr rfl
      · exact lapsed
  | @lasts worker renewed settings unlocked persisted =>
    by_cases passed : (renewed : ℚ) + defaultUnlockSessionTtlMs ≤ now
    · have expired : isUnlockSessionValid ⟨renewed, renewed + defaultUnlockSessionTtlMs⟩ now =
          false := decide_eq_false (not_lt.mpr passed)
      refine .ended ?_ ?_ ?_ (.inr ?_)
      · rw [run_restart]
        exact settings
      · rw [run_restart, Background.restored, persisted, Option.any_some, expired]
      · rw [run_restart, Background.restored, persisted, Option.filter_some, expired]
        rfl
      · exact congrArg Lease.lapsed (if_pos ⟨renewed, rfl, passed⟩)
    · have valid : isUnlockSessionValid ⟨renewed, renewed + defaultUnlockSessionTtlMs⟩ now =
          true := decide_eq_true (not_le.mp passed)
      have kept : (⟨some renewed, false⟩ : Lease).after autoLockMinutes now
          worker.background.sessionUnlocked .restart = ⟨some renewed, false⟩ := by
        refine if_neg ?_
        rintro ⟨_, ⟨⟩, lapsed⟩
        exact passed lapsed
      dsimp only
      rw [kept]
      refine .lasts renewed ?_ ?_ ?_
      · rw [run_restart]
        exact settings
      · rw [run_restart, Background.restored, persisted, Option.any_some, valid]
      · rw [run_restart, Background.restored, persisted, Option.filter_some, valid]
        rfl

/-- A check tells whether the session lasts, and changes nothing. -/
theorem run_check_of_lasting {state : LeasedWorker sealing}
    (lasting : Lasting autoLockMinutes version state) :
    (SessionOperation.check.run conditions now state.worker).1 =
        state.worker.background.sessionUnlocked ∧
      (SessionOperation.check.run conditions now state.worker).2.1.background =
        state.worker.background := by
  cases lasting with
  | @ended worker lease settings locked missing lapsed =>
    obtain ⟨told, left⟩ := @alone_restore _ _ { conditions with dateNow := now } worker
    rw [run_check, locked, if_neg nofun, told, left, Background.restored_of_missing missing locked,
      missing]
    exact ⟨rfl, rfl⟩
  | @lasts worker renewed settings unlocked persisted =>
    rw [run_check, if_pos unlocked]
    exact ⟨unlocked.symm, rfl⟩

/-- An operation that is honoured keeps the session over, or lasting from its last renewal. -/
theorem lasting_after {state : LeasedWorker sealing}
    (lasting : Lasting autoLockMinutes version state) {operation : SessionOperation}
    (honoured : state.lease.Over autoLockMinutes now → operation = .refresh →
      state.lease.lapsed = true) :
    Lasting autoLockMinutes version ⟨(operation.run conditions now state.worker).2.1,
      state.lease.after autoLockMinutes now state.worker.background.sessionUnlocked operation⟩ := by
  cases operation with
  | unlock => exact lasting_of_persisted lasting.settings run_unlock
  | refresh => exact lasting_refresh lasting fun late => honoured late rfl
  | restart => exact lasting_restart lasting
  | check =>
    obtain ⟨-, same⟩ := @run_check_of_lasting _ _ _ _ conditions now _ lasting
    cases lasting with
    | ended settings locked missing lapsed =>
      exact .ended (by rw [same, settings]) (by rw [same, locked]) (by rw [same, missing]) lapsed
    | lasts renewed settings unlocked persisted =>
      exact .lasts renewed (by rw [same, settings]) (by rw [same, unlocked])
        (by rw [same, persisted])

/-- Once the lease is over, a check says so exactly where the session has lapsed. -/
theorem check_iff {state : LeasedWorker sealing} (lasting : Lasting autoLockMinutes version state)
    (late : state.lease.Over autoLockMinutes now) :
    (SessionOperation.check.run conditions now state.worker).1 = false ↔
      state.lease.lapsed = true := by
  obtain ⟨told, -⟩ := @run_check_of_lasting _ _ _ _ conditions now _ lasting
  rw [told]
  cases lasting with
  | ended settings locked missing lapsed =>
    obtain ⟨renewed, found, -⟩ := late
    exact iff_of_true locked (lapsed.resolve_left (by rw [found]; nofun))
  | lasts renewed settings unlocked persisted =>
    exact iff_of_false (by rw [unlocked]; nofun) nofun

/-- Once the lease is over, a refresh leaves the session as it is exactly where it has lapsed. -/
theorem refresh_iff (positive : 0 < autoLockMinutes) {state : LeasedWorker sealing}
    (lasting : Lasting autoLockMinutes version state)
    (late : state.lease.Over autoLockMinutes now) :
    (SessionOperation.refresh.run conditions now state.worker).2.1.background.unlockSession =
      state.worker.background.unlockSession ↔ state.lease.lapsed = true := by
  rw [run_refresh]
  cases lasting with
  | ended settings locked missing lapsed =>
    obtain ⟨renewed, found, -⟩ := late
    rw [locked, if_neg nofun]
    exact iff_of_true rfl (lapsed.resolve_left (by rw [found]; nofun))
  | lasts renewed settings unlocked persisted =>
    rw [if_pos unlocked, persisted]
    refine iff_of_false (fun same => ?_) nofun
    obtain ⟨_, ⟨⟩, passed⟩ := late
    have revived : now = renewed := congrArg UnlockSessionRecord.unlockedAt (Option.some.inj same)
    rw [revived] at passed
    linarith

/-- While the session is kept so, a step is honoured where the restart came before. -/
theorem honoured_iff (positive : 0 < autoLockMinutes)
    (performed : transition.Performed (sessionStep autoLockMinutes conditions))
    (lasting : Lasting autoLockMinutes version transition.before) :
    Honoured autoLockMinutes transition ↔ RestartedBefore autoLockMinutes transition := by
  obtain ⟨told, reached⟩ := Prod.mk.inj (Option.some.inj performed)
  obtain ⟨⟨operation, now⟩, before, output, after⟩ := transition
  refine forall_congr' fun late => ?_
  cases operation with
  | unlock => simp
  | restart => simp
  | check =>
    have iff := @check_iff _ _ _ _ conditions _ _ lasting late
    rw [told] at iff
    simpa using iff
  | refresh =>
    have iff := @refresh_iff _ _ _ _ conditions _ positive _ lasting late
    have session := congrArg (fun state => state.worker.background.unlockSession) reached
    dsimp only at session iff ⊢
    rw [session] at iff
    simpa using iff

end Steps

/-- With settings of so many minutes, as their store writes them, auto-lock is honoured in exactly
those runs that restart the service worker before they ask for a session that is over. -/
theorem auto_lock_honoured_iff {autoLockMinutes : ℚ} (positive : 0 < autoLockMinutes)
    (version : Nat) (conditions : Conditions sealing) (manager : Manager sealing)
    (unlockAttempts : Option UnlockAttemptState) (auth : Option StoredAuth)
    (steps : List SessionStep) :
    (∀ transition ∈ history (sessionStep autoLockMinutes conditions)
        (.start manager unlockAttempts auth autoLockMinutes version) steps,
      Honoured autoLockMinutes transition) ↔
    ∀ transition ∈ history (sessionStep autoLockMinutes conditions)
        (.start manager unlockAttempts auth autoLockMinutes version) steps,
      RestartedBefore autoLockMinutes transition := by
  refine history_forall_iff _ (fun _ performed lasting => honoured_iff positive performed lasting)
    (fun transition performed lasting restarted => ?_) (.ended rfl rfl rfl (.inl rfl)) steps
  obtain ⟨-, reached⟩ := Prod.mk.inj (Option.some.inj performed)
  rw [← reached]
  exact lasting_after lasting fun late refreshed => restarted late (.inr refreshed)

/-! ### Settings of one minute -/

def sampleConditions : Conditions (Sealing.symbolic (Plaintext String)) where
  vault := ⟨0, (1 : Nat), (), none, false⟩
  dateNow := 0
  authState := ⟨true, "Ancore Wallet", "G", none⟩

def sampleStart : LeasedWorker (Sealing.symbolic (Plaintext String)) :=
  .start (.fresh fun _ => none) none none 1 0

theorem auto_lock_honoured_after_restart :
    (history (sessionStep 1 sampleConditions) sampleStart
      [(.unlock, 0), (.check, 60000), (.restart, 86400000), (.check, 86400001)]).length = 4 ∧
    ∀ transition ∈ history (sessionStep 1 sampleConditions) sampleStart
      [(.unlock, 0), (.check, 60000), (.restart, 86400000), (.check, 86400001)],
      Honoured 1 transition :=
  ⟨rfl, (auto_lock_honoured_iff one_pos 0 sampleConditions (.fresh fun _ => none) none none
    [(.unlock, 0), (.check, 60000), (.restart, 86400000), (.check, 86400001)]).mpr
      (by decide +kernel)⟩

/-- Two minutes after it was unlocked the session is still unlocked. -/
theorem auto_lock_not_honoured :
    ¬ ∀ transition ∈ history (sessionStep 1 sampleConditions) sampleStart
      [(.unlock, 0), (.check, 120000)], Honoured 1 transition := by
  intro honoured
  have checked : (history (sessionStep 1 sampleConditions) sampleStart
    [(.unlock, 0), (.check, 120000)]).length = 2 := rfl
  have late : ((0 : Millis) : ℚ) + 1 * 60000 < ((120000 : Millis) : ℚ) := by norm_num
  have member := List.getElem_mem (by rw [checked]; exact one_lt_two :
    1 < (history (sessionStep 1 sampleConditions) sampleStart
      [(.unlock, 0), (.check, 120000)]).length)
  exact absurd (honoured _ member ⟨0, rfl, late⟩ : true = false) nofun

end Ancore.Wallet
