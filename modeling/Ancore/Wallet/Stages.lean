import Ancore.Wallet.Background

/-! # The stages of a message

What the handlers of `UNLOCK_WALLET` and `LOCK_WALLET` can do, said once: at which
stage of a message which call is made, and where it goes on.  The calls to the
vault and those to the rest of the background have an outline each. -/

namespace Ancore.Wallet

open Ancore.Library Ancore.Vault

/-- What locking locks. -/
inductive Piece where
  | sessionUnlocked
  | encryptionKey
  | unlockSession
  | auth
  deriving DecidableEq, Repr

/-- The attempts as they are stored, and as they count. -/
structure Attempts where
  stored : Option UnlockAttemptState
  state : UnlockAttemptState
  deriving DecidableEq, Repr

/-- The stored attempts, as they count at a time. -/
def UnlockAttemptState.countedAt (state : UnlockAttemptState) (now : Millis) :
    UnlockAttemptState :=
  if !(checkUnlockRateLimit state now).locked && state.lockedUntil.isSome then resetUnlockAttempts
  else state

/-- Where a worker stands with its message: a password is evaluated, its key installed, and a key
that opens nothing is removed; locking has cleared some of the pieces. -/
inductive Stage where
  | idle
  | entered
  | loaded (stored : UnlockAttemptState)
  | counted (attempts : Attempts)
  | refused
  | admitted (attempts : Attempts)
  | evaluated (attempts : Attempts)
  | installed (attempts : Attempts)
  | mismatched (attempts : Attempts)
  | rejected (attempts : Attempts)
  | dated (next : UnlockAttemptState)
  | passed
  | thrown
  | locking (cleared : List Piece)

/-- No message is in hand. -/
def Stage.Rests (stage : Stage) : Prop := stage = .idle

/-- The message is about to be answered. -/
inductive Stage.Answers : Stage → Prop
  | entered : Answers .entered
  | refused : Answers .refused
  | passed : Answers .passed
  | thrown : Answers .thrown

/-- Everything is cleared. -/
def Stage.cleared : Stage :=
  .locking [.auth, .unlockSession, .sessionUnlocked, .encryptionKey, .sessionUnlocked]

section Outlines

variable {Value : Type} {sealing : Sealing (Plaintext Value)}

/-- From a stage, the calls to the vault and where they lead. -/
inductive VaultNext : Outline Stage (VaultAnswer sealing)
  | unlocked {attempts} : VaultNext (.admitted attempts) .isUnlocked true .passed
  | locked {attempts} : VaultNext (.admitted attempts) .isUnlocked false (.admitted attempts)
  | salted {attempts answer} :
      VaultNext (.admitted attempts) (.get masterSaltStorageKey) answer (.admitted attempts)
  | drawn {attempts masterSalt} :
      VaultNext (.admitted attempts) .initializeMasterSalt masterSalt (.admitted attempts)
  | derived {attempts password masterSalt encryptionKey} :
      VaultNext (.admitted attempts) (.deriveEncryptionKey password masterSalt) encryptionKey
        (.evaluated attempts)
  | installed {attempts encryptionKey} :
      VaultNext (.evaluated attempts) (.setEncryptionKey (some encryptionKey)) ()
        (.installed attempts)
  | timed {attempts now} : VaultNext (.installed attempts) .dateNow now (.installed attempts)
  | encrypted {attempts plaintext payload} :
      VaultNext (.installed attempts) (.encryptData plaintext) (.ok payload) .passed
  | unencrypted {attempts plaintext error} :
      VaultNext (.installed attempts) (.encryptData plaintext) (.error error) .thrown
  | stored {key value} : VaultNext .passed (.set key value) (.ok ()) .passed
  | unstored {key value error} : VaultNext .passed (.set key value) (.error error) .thrown
  | read {attempts answer payload} (parsed : parseEncryptedPayload answer = some payload) :
      VaultNext (.installed attempts) (.get verificationPayloadStorageKey) answer
        (.installed attempts)
  | missing {attempts answer} (unparsed : parseEncryptedPayload answer = none) :
      VaultNext (.installed attempts) (.get verificationPayloadStorageKey) answer
        (.rejected attempts)
  | opened {attempts payload plaintext} :
      VaultNext (.installed attempts) (.decryptData payload) (.ok plaintext) .passed
  | shut {attempts payload error} :
      VaultNext (.installed attempts) (.decryptData payload) (.error error) (.mismatched attempts)
  | removed {attempts} :
      VaultNext (.mismatched attempts) (.setEncryptionKey none) () (.rejected attempts)
  | cleared : VaultNext (.locking [.sessionUnlocked]) (.setEncryptionKey none) ()
      (.locking [.encryptionKey, .sessionUnlocked])

/-- From a stage, the other calls and where they lead. -/
inductive BackgroundNext : Outline Stage BackgroundAnswer
  | entered {password} : BackgroundNext .idle (.sent (.unlockWallet password)) () .entered
  | unloaded : BackgroundNext .entered .getUnlockAttempts none
      (.counted ⟨none, defaultUnlockAttemptState⟩)
  | loaded {stored} : BackgroundNext .entered .getUnlockAttempts (some stored) (.loaded stored)
  | counted {stored now} : BackgroundNext (.loaded stored) .dateNow now
      (.counted ⟨some stored, stored.countedAt now⟩)
  | throttled {attempts now} (limited : (checkUnlockRateLimit attempts.state now).locked = true) :
      BackgroundNext (.counted attempts) .dateNow now .refused
  | admitted {attempts now} (free : (checkUnlockRateLimit attempts.state now).locked = false) :
      BackgroundNext (.counted attempts) .dateNow now (.admitted attempts)
  | onboarded {attempts authState} :
      BackgroundNext (.admitted attempts) .readAuthState authState (.admitted attempts)
  | unknown {attempts authState} :
      BackgroundNext (.admitted attempts) .readAuthState authState .refused
  | dated {attempts now} : BackgroundNext (.rejected attempts) .dateNow now
      (.dated (recordUnlockFailure attempts.state now))
  | recorded {next} : BackgroundNext (.dated next) (.saveUnlockAttemptState next) () .refused
  | looked {now} : BackgroundNext .refused .dateNow now .refused
  | reset : BackgroundNext .passed (.saveUnlockAttemptState resetUnlockAttempts) () .passed
  | configured {settings} : BackgroundNext .passed .getSettings settings .passed
  | timed {now} : BackgroundNext .passed .dateNow now .passed
  | persisted {record} : BackgroundNext .passed (.setUnlockSession record) () .passed
  | unlocked : BackgroundNext .passed (.setSessionUnlocked true) () .passed
  | authorized {authState} : BackgroundNext .passed (.setAuth ⟨authState, true⟩) () .passed
  | lost : BackgroundNext .thrown (.setSessionUnlocked false) () .thrown
  | dropped : BackgroundNext .thrown .removeUnlockSession () .thrown
  | answered {stage password reply} (answers : stage.Answers) :
      BackgroundNext stage (.respond (.unlockWallet password) reply) () .idle
  | locking : BackgroundNext .idle (.sent .lockWallet) () (.locking [])
  | locked : BackgroundNext (.locking []) (.setSessionUnlocked false) ()
      (.locking [.sessionUnlocked])
  | again : BackgroundNext (.locking [.encryptionKey, .sessionUnlocked]) (.setSessionUnlocked false)
      () (.locking [.sessionUnlocked, .encryptionKey, .sessionUnlocked])
  | ended : BackgroundNext (.locking [.sessionUnlocked, .encryptionKey, .sessionUnlocked])
      .removeUnlockSession ()
      (.locking [.unlockSession, .sessionUnlocked, .encryptionKey, .sessionUnlocked])
  | kept {authState} : BackgroundNext
      (.locking [.unlockSession, .sessionUnlocked, .encryptionKey, .sessionUnlocked])
      .readAuthState authState
      (.locking [.unlockSession, .sessionUnlocked, .encryptionKey, .sessionUnlocked])
  | revoked {authState} : BackgroundNext
      (.locking [.unlockSession, .sessionUnlocked, .encryptionKey, .sessionUnlocked])
      (.setAuth ⟨authState, false⟩) () .cleared
  | closed {reply} : BackgroundNext .cleared (.respond .lockWallet reply) () .idle

/-- From a stage, the calls and where they lead. -/
def WalletNext : Outline Stage (WalletAnswer sealing)
  | stage, .inl call, answer, onward => VaultNext stage call answer onward
  | stage, .inr call, answer, onward => BackgroundNext stage call answer onward

/-! ## The handlers follow the stages -/

variable {attempts : Attempts} {stage : Stage}

/-- A password that unlocks is through, and one that does not is rejected. -/
def Tried (attempts : Attempts) (isUnlocked : Bool) (stage : Stage) : Prop :=
  stage = if isUnlocked then .passed else .rejected attempts

theorem verifyPassword_tracks :
    Tracks VaultNext (Tried attempts) (· = .thrown) (verifyPassword : Async sealing Bool)
      (.installed attempts) := by
  intro answer
  cases parsed : parseEncryptedPayload answer with
  | none =>
    refine ⟨_, .missing parsed, ?_⟩
    conv => arg 3; whnf
    rw [parsed]
    exact Tracks.pure rfl
  | some payload =>
    refine ⟨_, .read parsed, ?_⟩
    conv => arg 3; whnf
    rw [parsed]
    intro decrypted
    cases decrypted with
    | ok plaintext => exact ⟨_, .opened, rfl⟩
    | error error => exact ⟨_, .shut, fun _ => ⟨_, .removed, rfl⟩⟩

theorem useEncryptionKey_tracks (password : String) (masterSalt : sealing.Salt) :
    Tracks VaultNext (fun _ => (· = .installed attempts)) (· = .thrown)
      (useEncryptionKey password masterSalt) (.admitted attempts) :=
  fun _ => ⟨_, .derived, fun _ => ⟨_, .installed, rfl⟩⟩

/-- A write of a new vault. -/
theorem written_tracks (key : String) (value : StoredValue sealing) :
    Tracks VaultNext (fun _ => (· = .passed)) (· = .thrown)
      (ExceptT.mk (awaited (.set key value)) : Async sealing Unit) .passed := by
  intro answer
  cases answer with
  | ok _ => exact ⟨_, .stored, rfl⟩
  | error error => exact ⟨_, .unstored, rfl⟩

theorem createVerificationPayload_tracks :
    Tracks VaultNext (fun _ => (· = .passed)) (· = .thrown)
      (createVerificationPayload : Async sealing Unit) (.installed attempts) := by
  refine fun now => ⟨_, .timed, fun answer => ?_⟩
  cases answer with
  | ok payload => exact ⟨_, .encrypted, written_tracks _ _⟩
  | error error => exact ⟨_, .unencrypted, rfl⟩

theorem unlock_tracks (password : String) :
    Tracks VaultNext (Tried attempts) (· = .thrown) (unlock password : Async sealing Bool)
      (.admitted attempts) := by
  intro isUnlocked
  cases isUnlocked with
  | true => exact ⟨_, .unlocked, rfl⟩
  | false =>
    refine ⟨_, .locked, fun stored => ⟨_, .salted, ?_⟩⟩
    conv => arg 3; whnf
    cases parseMasterSalt stored with
    | none =>
      refine fun masterSalt => ⟨_, .drawn, ?_⟩
      refine Tracks.bind (useEncryptionKey_tracks password masterSalt) ?_
      rintro _ _ rfl
      refine Tracks.bind createVerificationPayload_tracks ?_
      rintro _ _ rfl
      refine Tracks.bind (written_tracks _ _) ?_
      rintro _ _ rfl
      exact Tracks.pure rfl
    | some masterSalt =>
      refine Tracks.bind (useEncryptionKey_tracks password masterSalt) ?_
      rintro _ _ rfl
      exact verifyPassword_tracks

theorem vaulted_tracks {α : Type} {returns : α → Stage → Prop} {rejects : Stage → Prop}
    {method : Async sealing α} (tracks : Tracks VaultNext returns rejects method stage) :
    Tracks WalletNext returns rejects (vaulted method) stage :=
  (Program.Follows.left tracks).outline_mono fun _ request _ _ made => by
    cases request with
    | inl call => exact made
    | inr call => exact made.elim

theorem rejectPassword_follows (attempts : Attempts) :
    (rejectPassword attempts.state : WalletProgram sealing Reply).Follows WalletNext
      (fun _ => Stage.Answers) (.rejected attempts) :=
  fun _ => ⟨_, .dated, fun _ => ⟨_, .recorded, fun _ => ⟨_, .looked, .refused⟩⟩⟩

theorem acceptPassword_follows (authState : AuthState) :
    (acceptPassword authState : WalletProgram sealing Reply).Follows WalletNext
      (fun _ => Stage.Answers) .passed :=
  fun _ => ⟨_, .reset, fun _ => ⟨_, .configured, fun _ => ⟨_, .timed, fun _ => ⟨_, .persisted,
    fun _ => ⟨_, .unlocked, fun _ => ⟨_, .authorized, .passed⟩⟩⟩⟩⟩⟩

theorem recoverUnlock_follows :
    (recoverUnlock : WalletProgram sealing Reply).Follows WalletNext (fun _ => Stage.Answers)
      .thrown :=
  fun _ => ⟨_, .lost, fun _ => ⟨_, .lost, fun _ => ⟨_, .dropped, .thrown⟩⟩⟩

theorem loadUnlockAttemptState_follows :
    (loadUnlockAttemptState : WalletProgram sealing UnlockAttemptState).Follows WalletNext
      (fun state stage => ∃ stored, stage = .counted ⟨stored, state⟩) .entered := by
  intro found
  cases found with
  | none => exact ⟨_, .unloaded, none, rfl⟩
  | some state =>
    refine ⟨_, .loaded, fun now => ⟨_, .counted, ?_⟩⟩
    change Program.Follows _ _ (if !(checkUnlockRateLimit state now).locked &&
      state.lockedUntil.isSome then pure resetUnlockAttempts else pure state) _
    unfold UnlockAttemptState.countedAt
    split
    · exact ⟨_, rfl⟩
    · exact ⟨_, rfl⟩

theorem tryPassword_tracks (password : String) (attempts : Attempts) (authState : AuthState) :
    Tracks WalletNext (fun _ => Stage.Answers) (· = .thrown)
      (tryPassword password attempts.state authState : WalletAsync sealing Reply)
      (.admitted attempts) := by
  refine Tracks.bind (vaulted_tracks (unlock_tracks password)) ?_
  rintro isUnlocked _ rfl
  cases isUnlocked with
  | true => exact Tracks.lift (acceptPassword_follows authState)
  | false => exact Tracks.lift (rejectPassword_follows attempts)

theorem handleUnlockWallet_tracks (password : String) :
    Tracks WalletNext (fun _ => Stage.Answers) (· = .thrown)
      (handleUnlockWallet password : WalletAsync sealing Reply) .entered := by
  unfold handleUnlockWallet
  split
  · exact Tracks.pure .entered
  refine Tracks.bind (Tracks.lift loadUnlockAttemptState_follows) ?_
  rintro state _ ⟨stored, rfl⟩ now
  cases free : (checkUnlockRateLimit state now).locked with
  | true =>
    refine ⟨_, .throttled free, ?_⟩
    change Tracks _ _ _ (if (checkUnlockRateLimit state now).locked then _ else _) _
    rw [if_pos free]
    exact Tracks.pure .refused
  | false =>
    refine ⟨_, .admitted free, ?_⟩
    change Tracks _ _ _ (if (checkUnlockRateLimit state now).locked then _ else _) _
    rw [if_neg (by rw [free]; nofun)]
    intro authState
    by_cases onboarded : (!authState.hasOnboarded) = true
    · refine ⟨_, .unknown, ?_⟩
      change Tracks _ _ _ (if !authState.hasOnboarded then _ else _) _
      rw [if_pos onboarded]
      exact Tracks.pure .refused
    · refine ⟨_, .onboarded, ?_⟩
      change Tracks _ _ _ (if !authState.hasOnboarded then _ else _) _
      rw [if_neg onboarded]
      exact tryPassword_tracks password ⟨stored, state⟩ authState

theorem unlockWallet_follows (password : String) :
    (unlockWallet password : WalletProgram sealing Reply).Follows WalletNext
      (fun _ => Stage.Rests) .idle := by
  have answered (reply : Reply) {stage : Stage} (answers : stage.Answers) :
      Program.Follows WalletNext (fun _ => Stage.Rests)
        (background (.respond (.unlockWallet password) reply) >>= fun _ => pure reply :
          WalletProgram sealing Reply) stage :=
    fun _ => ⟨_, .answered answers, rfl⟩
  refine fun _ => ⟨_, .entered, ?_⟩
  change (settleUnlock password >>= fun reply => _).Follows _ _ _
  refine Program.Follows.bind (Program.Follows.bind (Program.Follows.mono
    (handleUnlockWallet_tracks password) fun outcome stage ended => ?_))
  cases outcome with
  | ok reply => exact answered reply ended
  | error error =>
    obtain rfl : stage = .thrown := ended
    exact recoverUnlock_follows.mono fun reply _ answers => answered reply answers

theorem lockWallet_follows :
    (lockWallet : WalletProgram sealing Reply).Follows WalletNext (fun _ => Stage.Rests) .idle :=
  fun _ => ⟨_, .locking, fun _ => ⟨_, .locked, fun _ => ⟨_, VaultNext.cleared, fun _ => ⟨_, .again,
    fun _ => ⟨_, .ended, fun _ => ⟨_, .kept, fun _ => ⟨_, .revoked,
      fun _ => ⟨_, .closed, rfl⟩⟩⟩⟩⟩⟩⟩⟩

/-- A message is handled, and its reply is not looked at. -/
def handled (message : Message) : WalletProgram sealing Unit := do
  let _ ← handle message
  pure ()

theorem handled_follows (message : Message) (stage : Stage) (rests : stage.Rests) :
    (handled message : WalletProgram sealing Unit).Follows WalletNext (fun _ => Stage.Rests)
      stage := by
  obtain rfl : stage = .idle := rests
  cases message with
  | unlockWallet password => exact Program.Follows.bind (unlockWallet_follows password)
  | lockWallet => exact Program.Follows.bind lockWallet_follows

/-! ## Runs -/

section Runs

/-- A call, with its worker and circumstances. -/
abbrev WalletExchange (Worker : Type) (sealing : Sealing (Plaintext Value)) : Type :=
  Exchange Worker (Conditions sealing) (ServiceWorker sealing) (WalletAnswer sealing)

/-- The calls made, the latest first. -/
abbrev WalletLog (Worker : Type) (sealing : Sealing (Plaintext Value)) : Type :=
  List (WalletExchange Worker sealing)

abbrev WalletWorld (Worker : Type) (sealing : Sealing (Plaintext Value)) : Type :=
  World Worker (Conditions sealing) (ServiceWorker sealing) (WalletAnswer sealing)

variable {Worker : Type}

/-- The world after a call of the worker. -/
abbrev afterCall (world : WalletWorld Worker sealing) (worker : Worker)
    (request : WalletCall sealing) (conditions : Conditions sealing) : WalletWorld Worker sealing :=
  world.after (fun _ => performWallet) worker request conditions

/-- The world after messages were handled in turns. -/
abbrev messagesHandled [DecidableEq Worker] (start : ServiceWorker sealing)
    (turns : List (Turn Worker Message (Conditions sealing))) : WalletWorld Worker sealing :=
  (interleaved (fun _ => performWallet) handled start turns).world

end Runs

end Outlines

/-! ## A wallet with a vault -/

/-- A vault is stored, and nothing is unlocked. -/
def lockedWallet : ServiceWorker (Sealing.symbolic (Plaintext String)) where
  manager := .fresh fun key =>
    if key = masterSaltStorageKey then some (.masterSalt (1 : Nat))
    else if key = verificationPayloadStorageKey then
      some (.payload (("right", 1), .verification 0))
    else none
  background := ⟨false, none, none, none, none⟩

/-- Calls by the page of an onboarded wallet, at a time. -/
def onboardedAt (dateNow : Millis) : Conditions (Sealing.symbolic (Plaintext String)) where
  vault := ⟨dateNow, (2 : Nat), (), none, false⟩
  dateNow := dateNow
  authState := ⟨true, "Ancore Wallet", "G", none⟩

/-- A worker begins with a message and makes some of its calls. -/
def turnsOf {Worker : Type} (worker : Worker) (message : Message) (calls : Nat)
    (dateNow : Millis) :
    List (Turn Worker Message (Conditions (Sealing.symbolic (Plaintext String)))) :=
  .start worker message :: List.replicate calls (.resume worker (onboardedAt dateNow))

end Ancore.Wallet
