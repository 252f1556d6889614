import Ancore.Library.Outline
import Ancore.Vault.Manager

/-! # The background of the wallet

What the background of the extension keeps beside the vault: the unlocked flag in
memory, the session record, the stored auth state, the failed attempts to unlock,
and the settings it reads.  `unlock-rate-limit.ts` and `session-state.ts` are
programs over calls to these. -/

namespace Ancore.Wallet

open Ancore.Library Ancore.Vault

/-! ## What is kept -/

structure AuthState where
  hasOnboarded : Bool
  walletName : String
  accountAddress : String
  smartAccountId : Option String
  deriving DecidableEq, Repr

/-- `ancore_extension_auth` -/
structure StoredAuth where
  authState : AuthState
  isUnlocked : Bool
  deriving DecidableEq, Repr

structure UnlockAttemptState where
  failedAttempts : Nat
  lockedUntil : Option Millis
  deriving DecidableEq, Repr

structure UnlockSessionRecord where
  unlockedAt : Millis
  expiresAt : ℚ
  deriving DecidableEq, Repr

/-- The settings the background reads. -/
structure SettingsState where
  autoLockMinutes : ℚ
  deriving DecidableEq, Repr

/-- A value of `chrome.storage.local`: settings are read off an object, which has none where it is
the text of one. -/
inductive ChromeValue where
  | text (state : SettingsState) (version : Nat)
  | object (state : SettingsState)
  deriving DecidableEq, Repr

/-- What the background keeps; `sessionUnlocked` is the flag in memory. -/
structure Background where
  sessionUnlocked : Bool
  unlockAttempts : Option UnlockAttemptState
  unlockSession : Option UnlockSessionRecord
  auth : Option StoredAuth
  settings : Option ChromeValue
  deriving DecidableEq, Repr

/-! ## Failed attempts -/

def unlockMaxAttempts : Nat := 5

def unlockBaseBackoffMs : Millis := 1000

def unlockMaxBackoffMs : Millis := 60000

def defaultUnlockAttemptState : UnlockAttemptState where
  failedAttempts := 0
  lockedUntil := none

structure UnlockRateLimitResult where
  locked : Bool
  retryAfterMs : Millis
  message : Option String
  deriving DecidableEq, Repr

def calculateUnlockBackoffMs (failedAttempts : Nat) : Millis :=
  if failedAttempts < unlockMaxAttempts then 0
  else min (unlockBaseBackoffMs * 2 ^ (failedAttempts - unlockMaxAttempts)) unlockMaxBackoffMs

def formatRetryMessage (retryAfterMs : Millis) : String :=
  let seconds := -(-retryAfterMs / 1000)
  if seconds ≤ 1 then "Too many failed attempts. Try again in 1 second."
  else "Too many failed attempts. Try again in " ++ toString seconds ++ " seconds."

def checkUnlockRateLimit (state : UnlockAttemptState) (now : Millis) : UnlockRateLimitResult :=
  match state.lockedUntil with
  | none => ⟨false, 0, none⟩
  | some lockedUntil =>
    if now < lockedUntil then
      ⟨true, lockedUntil - now, some (formatRetryMessage (lockedUntil - now))⟩
    else ⟨false, 0, none⟩

def recordUnlockFailure (state : UnlockAttemptState) (now : Millis) : UnlockAttemptState :=
  let failedAttempts := state.failedAttempts + 1
  let backoffMs := calculateUnlockBackoffMs failedAttempts
  if backoffMs = 0 then ⟨failedAttempts, none⟩ else ⟨failedAttempts, some (now + backoffMs)⟩

def resetUnlockAttempts : UnlockAttemptState := defaultUnlockAttemptState

/-! ## Sessions -/

/-- `DEFAULT_UNLOCK_SESSION_TTL_MS`, 24 hours -/
def defaultUnlockSessionTtlMs : ℚ := 24 * 60 * 60 * 1000

def isUnlockSessionValid (record : UnlockSessionRecord) (nowMs : Millis) : Bool :=
  (nowMs : ℚ) < record.expiresAt

/-- `settings?.autoLockMinutes` -/
def autoLockMinutesOf : Option ChromeValue → Option ℚ
  | some (.object state) => some state.autoLockMinutes
  | _ => none

/-- The minutes in milliseconds, if there are any. -/
def ttlOf (settings : Option ChromeValue) : ℚ :=
  match autoLockMinutesOf settings with
  | some autoLockMinutes =>
    if 0 < autoLockMinutes then autoLockMinutes * 60000 else defaultUnlockSessionTtlMs
  | none => defaultUnlockSessionTtlMs

/-! ## Calls -/

inductive Message where
  | unlockWallet (password : String)
  | lockWallet
  deriving DecidableEq, Repr

structure Reply where
  success : Bool
  retryAfterMs : Option Millis
  message : Option String
  deriving DecidableEq, Repr

/-- What the handlers call beside the vault; a handler begins when its message is `sent` and ends
with `respond`. -/
inductive BackgroundCall where
  | sent (message : Message)
  | dateNow
  | getUnlockAttempts
  | saveUnlockAttemptState (state : UnlockAttemptState)
  | readAuthState
  | isSessionUnlocked
  | setSessionUnlocked (unlocked : Bool)
  | getSettings
  | getUnlockSession
  | setUnlockSession (record : UnlockSessionRecord)
  | removeUnlockSession
  | setAuth (auth : StoredAuth)
  | respond (message : Message) (reply : Reply)
  deriving DecidableEq, Repr

@[reducible] def BackgroundAnswer : BackgroundCall → Type
  | .sent _ => Unit
  | .dateNow => Millis
  | .getUnlockAttempts => Option UnlockAttemptState
  | .saveUnlockAttemptState _ => Unit
  | .readAuthState => AuthState
  | .isSessionUnlocked => Bool
  | .setSessionUnlocked _ => Unit
  | .getSettings => Option ChromeValue
  | .getUnlockSession => Option UnlockSessionRecord
  | .setUnlockSession _ => Unit
  | .removeUnlockSession => Unit
  | .setAuth _ => Unit
  | .respond _ _ => Unit

section Programs

variable {Value : Type} {sealing : Sealing (Plaintext Value)}

abbrev WalletCall (sealing : Sealing (Plaintext Value)) : Type :=
  VaultCall sealing ⊕ BackgroundCall

abbrev WalletAnswer (sealing : Sealing (Plaintext Value)) : WalletCall sealing → Type :=
  Sum.elim (VaultAnswer sealing) BackgroundAnswer

abbrev WalletProgram (sealing : Sealing (Plaintext Value)) (α : Type) : Type :=
  Program (WalletAnswer sealing) α

/-- Code that may throw. -/
abbrev WalletAsync (sealing : Sealing (Plaintext Value)) (α : Type) : Type :=
  ExceptT Thrown (Program (WalletAnswer sealing)) α

def background (call : BackgroundCall) : WalletProgram sealing (BackgroundAnswer call) :=
  .call (.inr call) .done

/-- A method of the vault among the programs of the wallet. -/
def vaulted {α : Type} (method : Async sealing α) : WalletAsync sealing α :=
  ExceptT.mk method.run.left

/-! ### Programs of `unlock-rate-limit.ts` -/

/-- A lockout that has elapsed resets the attempts. -/
def loadUnlockAttemptState : WalletProgram sealing UnlockAttemptState := do
  match ← background .getUnlockAttempts with
  | none => pure defaultUnlockAttemptState
  | some state => do
    let now ← background .dateNow
    if !(checkUnlockRateLimit state now).locked && state.lockedUntil.isSome then
      pure resetUnlockAttempts
    else pure state

def clearUnlockAttemptState : WalletProgram sealing Unit :=
  background (.saveUnlockAttemptState resetUnlockAttempts)

/-! ### Programs of `session-state.ts` -/

def getAutoLockTtlMs : WalletProgram sealing ℚ := do
  let settings ← background .getSettings
  pure (ttlOf settings)

/-- Persists a session of a given length. -/
def persistUnlockSessionFor (effectiveTtlMs : ℚ) : WalletProgram sealing Unit := do
  let now ← background .dateNow
  background (.setUnlockSession ⟨now, now + effectiveTtlMs⟩)
  background (.setSessionUnlocked true)

def persistUnlockSession : WalletProgram sealing Unit := do
  let effectiveTtlMs ← getAutoLockTtlMs
  persistUnlockSessionFor effectiveTtlMs

def clearUnlockSession : WalletProgram sealing Unit := do
  background (.setSessionUnlocked false)
  background .removeUnlockSession

def restoreUnlockSessionFromStorage : WalletProgram sealing Bool := do
  match ← background .getUnlockSession with
  | none => do
    background (.setSessionUnlocked false)
    pure false
  | some record => do
    let now ← background .dateNow
    if isUnlockSessionValid record now then do
      background (.setSessionUnlocked true)
      pure true
    else do
      background .removeUnlockSession
      background (.setSessionUnlocked false)
      pure false

def isBackgroundSessionUnlockedAsync : WalletProgram sealing Bool := do
  if ← background .isSessionUnlocked then pure true
  else restoreUnlockSessionFromStorage

def refreshSessionExpiry : WalletProgram sealing Unit := do
  if ← background .isSessionUnlocked then do
    let ttlMs ← getAutoLockTtlMs
    persistUnlockSessionFor ttlMs
  else pure ()

/-! ### Handlers of `lock-unlock.ts` -/

def Reply.failed : Reply where
  success := false
  retryAfterMs := none
  message := none

def Reply.succeeded : Reply where
  success := true
  retryAfterMs := none
  message := none

/-- The answer to an attempt that is throttled. -/
def Reply.throttled (rateLimit : UnlockRateLimitResult) : Reply where
  success := false
  retryAfterMs := some rateLimit.retryAfterMs
  message := rateLimit.message

def executeLockWallet : WalletAsync sealing Unit := do
  ExceptT.lift (background (.setSessionUnlocked false))
  vaulted lock
  ExceptT.lift clearUnlockSession
  let authState ← ExceptT.lift (background .readAuthState)
  ExceptT.lift (background (.setAuth ⟨authState, false⟩))

/-- `success`, unless something was thrown -/
def settleLock : WalletProgram sealing Reply := do
  match ← executeLockWallet.run with
  | .ok () => pure .succeeded
  | .error _ => pure .failed

def lockWallet : WalletProgram sealing Reply := do
  background (.sent .lockWallet)
  let reply ← settleLock
  background (.respond .lockWallet reply)
  pure reply

/-- After a password that did not unlock. -/
def rejectPassword (attemptState : UnlockAttemptState) : WalletProgram sealing Reply := do
  let now ← background .dateNow
  let nextState := recordUnlockFailure attemptState now
  background (.saveUnlockAttemptState nextState)
  let later ← background .dateNow
  let lockout := checkUnlockRateLimit nextState later
  pure (if lockout.locked then .throttled lockout else .failed)

/-- After a password that unlocked. -/
def acceptPassword (authState : AuthState) : WalletProgram sealing Reply := do
  clearUnlockAttemptState
  persistUnlockSession
  background (.setAuth ⟨authState, true⟩)
  pure .succeeded

/-- A password that is not throttled is tried. -/
def tryPassword (password : String) (attemptState : UnlockAttemptState) (authState : AuthState) :
    WalletAsync sealing Reply := do
  let isUnlocked ← vaulted (unlock password)
  if isUnlocked then ExceptT.lift (acceptPassword authState)
  else ExceptT.lift (rejectPassword attemptState)

def handleUnlockWallet (password : String) : WalletAsync sealing Reply := do
  if password = "" then pure .failed
  else do
    let attemptState ← ExceptT.lift loadUnlockAttemptState
    let now ← ExceptT.lift (background .dateNow)
    let rateLimit := checkUnlockRateLimit attemptState now
    if rateLimit.locked then pure (.throttled rateLimit)
    else do
      let authState ← ExceptT.lift (background .readAuthState)
      if !authState.hasOnboarded then pure .failed
      else tryPassword password attemptState authState

/-- What was thrown on the way locks the session. -/
def recoverUnlock : WalletProgram sealing Reply := do
  background (.setSessionUnlocked false)
  clearUnlockSession
  pure .failed

def settleUnlock (password : String) : WalletProgram sealing Reply := do
  match ← (handleUnlockWallet password).run with
  | .ok reply => pure reply
  | .error _ => recoverUnlock

def unlockWallet (password : String) : WalletProgram sealing Reply := do
  background (.sent (.unlockWallet password))
  let reply ← settleUnlock password
  background (.respond (.unlockWallet password) reply)
  pure reply

/-- The handler of a message. -/
def handle : Message → WalletProgram sealing Reply
  | .unlockWallet password => unlockWallet password
  | .lockWallet => lockWallet

end Programs

/-! ## Carrying out the calls -/

variable {Value : Type} {sealing : Sealing (Plaintext Value)}

/-- The state of the service worker and of what it stores. -/
structure ServiceWorker (sealing : Sealing (Plaintext Value)) where
  manager : Manager sealing
  background : Background

/-- What the service worker does not decide of a call; `authState` is what the storage of the page
holds. -/
structure Conditions (sealing : Sealing (Plaintext Value)) where
  vault : Circumstance sealing
  dateNow : Millis
  authState : AuthState

def performBackground (call : BackgroundCall) (conditions : Conditions sealing)
    (state : Background) : BackgroundAnswer call × Background :=
  match call with
  | .sent _ => ((), state)
  | .dateNow => (conditions.dateNow, state)
  | .getUnlockAttempts => (state.unlockAttempts, state)
  | .saveUnlockAttemptState attempts => ((), { state with unlockAttempts := some attempts })
  | .readAuthState => (conditions.authState, state)
  | .isSessionUnlocked => (state.sessionUnlocked, state)
  | .setSessionUnlocked unlocked => ((), { state with sessionUnlocked := unlocked })
  | .getSettings => (state.settings, state)
  | .getUnlockSession => (state.unlockSession, state)
  | .setUnlockSession record => ((), { state with unlockSession := some record })
  | .removeUnlockSession => ((), { state with unlockSession := none })
  | .setAuth auth => ((), { state with auth := some auth })
  | .respond _ _ => ((), state)

def performWallet (call : WalletCall sealing) (conditions : Conditions sealing)
    (worker : ServiceWorker sealing) : WalletAnswer sealing call × ServiceWorker sealing :=
  match call with
  | .inl call => (perform call conditions.vault worker.manager).map id
      fun manager => { worker with manager := manager }
  | .inr call => (performBackground call conditions worker.background).map id
      fun background => { worker with background := background }

end Ancore.Wallet
