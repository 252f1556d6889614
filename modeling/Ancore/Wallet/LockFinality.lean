import Ancore.Wallet.Stages

/-! # Whether a lock is final

Locking clears four pieces of state one by one and unlocking fills them one by one,
and nothing keeps the two apart.  What an unlocking fills after a lock has cleared
it stays filled when the lock has been answered.  Where no unlocking does so, and
none takes away a key that others rely on, a lock is final. -/

namespace Ancore.Wallet

open Ancore.Library Ancore.Vault

variable {Worker Value : Type} {sealing : Sealing (Plaintext Value)}

/-! ## Pieces and what the calls do to them -/

def Unlocked (worker : ServiceWorker sealing) : Piece → Prop
  | .sessionUnlocked => worker.background.sessionUnlocked = true
  | .encryptionKey => worker.manager.encryptionKey.isSome = true
  | .unlockSession => worker.background.unlockSession.isSome = true
  | .auth => ∃ auth ∈ worker.background.auth, auth.isUnlocked = true

/-- The piece that a call locks. -/
def clears : WalletCall sealing → Option Piece
  | .inl (.setEncryptionKey none) => some .encryptionKey
  | .inr (.setSessionUnlocked false) => some .sessionUnlocked
  | .inr .removeUnlockSession => some .unlockSession
  | .inr (.setAuth ⟨_, false⟩) => some .auth
  | _ => none

/-- The piece that a call unlocks. -/
def fills : WalletCall sealing → Option Piece
  | .inl (.setEncryptionKey (some _)) => some .encryptionKey
  | .inr (.setSessionUnlocked true) => some .sessionUnlocked
  | .inr (.setUnlockSession _) => some .unlockSession
  | .inr (.setAuth ⟨_, true⟩) => some .auth
  | _ => none

/-- The piece that an unlocking leaves unlocked: a key is only tried until it opens or seals
something, or there is nothing to open. -/
def leaves : (request : WalletCall sealing) → WalletAnswer sealing request → Option Piece
  | .inl (.decryptData _), .ok _ => some .encryptionKey
  | .inl (.encryptData _), .ok _ => some .encryptionKey
  | .inl (.get key), answer =>
    if key = verificationPayloadStorageKey ∧ parseEncryptedPayload answer = none then
      some .encryptionKey
    else none
  | .inl _, _ => none
  | .inr call, _ => fills (.inr call : WalletCall sealing)

section Effects

variable {request : WalletCall sealing} {conditions : Conditions sealing}
  {worker : ServiceWorker sealing} {piece : Piece}

theorem not_unlocked_of_clears (clearing : clears request = some piece) :
    ¬ Unlocked (performWallet request conditions worker).2 piece := by
  unfold clears at clearing
  split at clearing <;> cases clearing
  all_goals simp [Unlocked, performWallet, performBackground, perform]

/-- Only setting the key changes it. -/
theorem encryptionKey_perform {call : VaultCall sealing} {circumstance : Circumstance sealing}
    {manager : Manager sealing} (other : ∀ encryptionKey, call ≠ .setEncryptionKey encryptionKey) :
    (perform call circumstance manager).2.encryptionKey = manager.encryptionKey := by
  unfold perform
  cases call with
  | setEncryptionKey encryptionKey => exact absurd rfl (other encryptionKey)
  | encryptData plaintext =>
    dsimp only
    split <;> rfl
  | decryptData payload =>
    dsimp only
    split
    · rfl
    · split <;> rfl
  | set key value | delete key =>
    dsimp only
    split <;> rfl
  | isUnlocked | deriveEncryptionKey _ _ | initializeMasterSalt | dateNow | get _ => rfl

/-- A call changes no piece but the one it clears or fills. -/
theorem unlocked_after_iff (uncleared : clears request ≠ some piece)
    (unfilled : fills request ≠ some piece) :
    Unlocked (performWallet request conditions worker).2 piece ↔ Unlocked worker piece := by
  obtain call | call := request
  · cases piece with
    | sessionUnlocked | unlockSession | auth => exact Iff.rfl
    | encryptionKey =>
      refine iff_of_eq (congrArg (fun key => Option.isSome key = true) (encryptionKey_perform ?_))
      rintro (_ | key) rfl
      · exact uncleared rfl
      · exact unfilled rfl
  · cases piece with
    | encryptionKey => exact Iff.rfl
    | sessionUnlocked =>
      match call with
      | .setSessionUnlocked false => exact absurd rfl uncleared
      | .setSessionUnlocked true => exact absurd rfl unfilled
      | .sent _ | .dateNow | .getUnlockAttempts | .saveUnlockAttemptState _ | .readAuthState
      | .isSessionUnlocked | .getSettings | .getUnlockSession | .setUnlockSession _
      | .removeUnlockSession | .setAuth _ | .respond _ _ => exact Iff.rfl
    | unlockSession =>
      match call with
      | .setUnlockSession _ => exact absurd rfl unfilled
      | .removeUnlockSession => exact absurd rfl uncleared
      | .sent _ | .dateNow | .getUnlockAttempts | .saveUnlockAttemptState _ | .readAuthState
      | .isSessionUnlocked | .getSettings | .getUnlockSession | .setSessionUnlocked _
      | .setAuth _ | .respond _ _ => exact Iff.rfl
    | auth =>
      match call with
      | .setAuth ⟨_, false⟩ => exact absurd rfl uncleared
      | .setAuth ⟨_, true⟩ => exact absurd rfl unfilled
      | .sent _ | .dateNow | .getUnlockAttempts | .saveUnlockAttemptState _ | .readAuthState
      | .isSessionUnlocked | .getSettings | .getUnlockSession | .setSessionUnlocked _
      | .setUnlockSession _ | .removeUnlockSession | .respond _ _ => exact Iff.rfl

theorem unlocked_after_of_unlocked (uncleared : clears request ≠ some piece)
    (unlocked : Unlocked worker piece) :
    Unlocked (performWallet request conditions worker).2 piece := by
  by_cases filled : fills request = some piece
  · unfold fills at filled
    split at filled <;> cases filled
    all_goals simp [Unlocked, performWallet, performBackground, perform]
  · exact (unlocked_after_iff uncleared filled).mpr unlocked

end Effects

/-! ## Messages in progress -/

/-- Where a message stands, as its calls tell: an unlocking has installed a key it does not know to
be right, or is through; a locking has cleared some of the pieces. -/
inductive Progress where
  | idle
  | unlocking
  | keyed
  | passed
  | locking (cleared : List Piece)
  deriving DecidableEq, Repr

/-- An `UNLOCK_WALLET` is in progress. -/
inductive Progress.Unlocks : Progress → Prop
  | unlocking : Unlocks .unlocking
  | keyed : Unlocks .keyed
  | passed : Unlocks .passed

/-- A `LOCK_WALLET` is in progress that has cleared the piece. -/
inductive Progress.Clears (piece : Piece) : Progress → Prop
  | locking {cleared : List Piece} (member : piece ∈ cleared) : Clears piece (.locking cleared)

/-- The progress after a piece is cleared. -/
def Progress.afterClearing (piece : Piece) : Progress → Progress
  | .locking cleared => .locking (piece :: cleared)
  | .keyed => if piece = .encryptionKey then .unlocking else .keyed
  | progress => progress

instance (piece : Piece) : (progress : Progress) → Decidable (progress.Clears piece)
  | .locking cleared =>
    decidable_of_iff (piece ∈ cleared) ⟨.locking, fun | .locking member => member⟩
  | .idle | .unlocking | .keyed | .passed => isFalse nofun

instance : (progress : Progress) → Decidable progress.Unlocks
  | .unlocking => isTrue .unlocking
  | .keyed => isTrue .keyed
  | .passed => isTrue .passed
  | .idle | .locking _ => isFalse nofun

/-- The progress after a call. -/
def Progress.after (progress : Progress) :
    (request : WalletCall sealing) → WalletAnswer sealing request → Progress
  | .inr (.sent (.unlockWallet _)), _ => .unlocking
  | .inr (.sent .lockWallet), _ => .locking []
  | .inr (.respond _ _), _ => .idle
  | .inl .isUnlocked, true => .passed
  | .inl (.setEncryptionKey (some _)), _ => .keyed
  | .inl (.decryptData _), .ok _ => .passed
  | .inl (.encryptData _), .ok _ => .passed
  | .inl (.encryptData _), .error _ => .unlocking
  | .inl (.set _ _), .error _ => .unlocking
  | .inl (.get _), answer =>
    if parseEncryptedPayload answer = none then .unlocking else progress
  | request, _ => (clears request).elim progress fun piece => progress.afterClearing piece

def Stage.progress : Stage → Progress
  | .idle => .idle
  | .installed _ | .mismatched _ => .keyed
  | .passed => .passed
  | .locking cleared => .locking cleared
  | _ => .unlocking

section Inversions

variable {request : WalletCall sealing} {conditions : Conditions sealing}
  {worker : ServiceWorker sealing} {answer : WalletAnswer sealing request} {piece : Piece}
  {stage onward : Stage}

/-- The calls tell where a message stands. -/
theorem progress_of_next (made : WalletNext stage request answer onward) :
    onward.progress = stage.progress.after request answer := by
  obtain call | call := request
  · cases made with
    | read parsed => exact (if_neg (by rw [parsed]; nofun)).symm
    | missing unparsed => exact (if_pos unparsed).symm
    | salted => exact (ite_self _).symm
    | _ => rfl
  · cases made with
    | _ => rfl

/-- A piece is filled by an unlocking that is through, except that a key is only tried. -/
theorem leaves_of_fills (made : WalletNext stage request answer onward)
    (filled : fills request = some piece) :
    piece = .encryptionKey ∧ onward.progress = .keyed ∨
      leaves request answer = some piece ∧ stage.progress = .passed := by
  obtain call | call := request
  · cases made with
    | installed =>
      cases filled
      exact .inl ⟨rfl, rfl⟩
    | _ => cases filled
  · cases made with
    | persisted | unlocked | authorized => exact .inr ⟨filled, rfl⟩
    | _ => cases filled

theorem unlocks_of_leaves (made : WalletNext stage request answer onward)
    (left : leaves request answer = some piece) : stage.progress.Unlocks := by
  obtain call | call := request
  · cases made with
    | encrypted | opened | missing => exact .keyed
    | salted =>
      have other : masterSaltStorageKey ≠ verificationPayloadStorageKey := by decide
      simp [leaves, other] at left
    | read parsed => simp [leaves, parsed] at left
    | _ => cases left
  · cases made with
    | persisted | unlocked | authorized => exact .passed
    | _ => cases left

/-- A message is done with the key it installed when it leaves it, clears it, or finds it gone. -/
theorem leaves_of_keyed (made : WalletNext stage request answer onward)
    (performed : (performWallet request conditions worker).1 = answer)
    (keyed : stage.progress = .keyed) (done : onward.progress ≠ .keyed) :
    leaves request answer = some .encryptionKey ∨ clears request = some .encryptionKey ∨
      ¬ Unlocked worker .encryptionKey := by
  obtain call | call := request
  · cases made with
    | installed | timed | read | shut => exact absurd rfl done
    | encrypted | opened => exact .inl rfl
    | missing unparsed => exact .inl (if_pos ⟨rfl, unparsed⟩)
    | removed => exact .inr (.inl rfl)
    | @unencrypted _ plaintext error =>
      refine .inr (.inr fun held => ?_)
      obtain ⟨key, held⟩ := Option.isSome_iff_exists.mp held
      have sealed : (perform (.encryptData plaintext) conditions.vault worker.manager).1 =
          .error error := performed
      rw [perform_encryptData plaintext held] at sealed
      cases sealed
    | _ => cases keyed
  · cases made with
    | answered answers => cases answers <;> cases keyed
    | _ => cases keyed

/-- A piece is cleared by a locking, which clears the flag before the key, or by an unlocking that
failed. -/
theorem progress_of_clears (made : WalletNext stage request answer onward)
    (clearing : clears request = some piece) :
    (∃ cleared, stage.progress = .locking cleared) ∧
        (piece = .encryptionKey → stage.progress.Clears .sessionUnlocked) ∨
      piece = .encryptionKey ∧ stage.progress = .keyed ∨
      piece ≠ .encryptionKey ∧ stage.progress = .unlocking := by
  obtain call | call := request
  · cases made with
    | removed =>
      cases clearing
      exact .inr (.inl ⟨rfl, rfl⟩)
    | cleared => exact .inl ⟨⟨_, rfl⟩, fun _ => .locking List.mem_cons_self⟩
    | _ => cases clearing
  · cases made with
    | lost | dropped =>
      cases clearing
      exact .inr (.inr ⟨nofun, rfl⟩)
    | locked | again | ended | revoked =>
      cases clearing
      exact .inl ⟨⟨_, rfl⟩, nofun⟩
    | _ => cases clearing

/-- A message is through when the key is there. -/
theorem unlocked_of_passed (made : WalletNext stage request answer onward)
    (performed : (performWallet request conditions worker).1 = answer)
    (before : stage.progress ≠ .passed) (passed : onward.progress = .passed) :
    Unlocked (performWallet request conditions worker).2 .encryptionKey := by
  obtain call | call := request
  · cases made with
    | unlocked => exact performed
    | @encrypted _ plaintext payload =>
      cases held : worker.manager.encryptionKey with
      | none => simp [performWallet, perform, held] at performed
      | some key => simp [Unlocked, performWallet, perform, held]
    | @opened _ payload plaintext =>
      cases held : worker.manager.encryptionKey with
      | none => simp [performWallet, perform, held] at performed
      | some key =>
        refine unlocked_after_of_unlocked (Option.some_ne_none _).symm ?_
        rw [Unlocked, held]
        rfl
    | stored => exact absurd rfl before
    | _ => cases passed
  · cases made with
    | reset | configured | timed | persisted | unlocked | authorized => exact absurd rfl before
    | _ => cases passed

theorem clears_of_afterClearing {progress : Progress} {cleared : Piece}
    (clearing : (progress.afterClearing cleared).Clears piece) :
    cleared = piece ∨ progress.Clears piece := by
  cases progress with
  | idle | unlocking | passed => exact .inr clearing
  | keyed =>
    by_cases key : cleared = .encryptionKey
    · rw [Progress.afterClearing, if_pos key] at clearing
      cases clearing
    · rw [Progress.afterClearing, if_neg key] at clearing
      cases clearing
  | locking earlier =>
    cases clearing with
    | locking member =>
      cases member with
      | head => exact .inl rfl
      | tail _ member => exact .inr (.locking member)

/-- A locking has cleared what it clears, and what it had cleared. -/
theorem clears_of_after {progress : Progress}
    (clearing : (progress.after request answer).Clears piece) :
    clears request = some piece ∨ progress.Clears piece := by
  unfold Progress.after at clearing
  split at clearing
  · cases clearing
  · cases clearing with
    | locking member => cases member
  · cases clearing
  · cases clearing
  · cases clearing
  · cases clearing
  · cases clearing
  · cases clearing
  · cases clearing
  · split at clearing
    · cases clearing
    · exact .inr clearing
  · cases cleared : clears request with
    | none =>
      rw [cleared] at clearing
      exact .inr clearing
    | some piece' =>
      rw [cleared] at clearing
      exact (clears_of_afterClearing clearing).imp_left (congrArg some)

/-- A locking that is answered has cleared everything. -/
theorem clears_of_answered {reply : Reply}
    {answer : WalletAnswer sealing (.inr (.respond .lockWallet reply))}
    (made : WalletNext stage (.inr (.respond .lockWallet reply)) answer onward) :
    stage.progress.Clears piece := by
  cases made with
  | closed => exact .locking (by cases piece <;> decide)

/-- An unlocking begins when its message is sent. -/
theorem unlocks_of_unlocks (made : WalletNext stage request answer onward)
    (unlocks : onward.progress.Unlocks) :
    (∃ password, request = .inr (.sent (.unlockWallet password))) ∨ stage.progress.Unlocks := by
  obtain call | call := request
  · cases made with
    | cleared => cases unlocks
    | unlocked | locked | salted | drawn | derived | installed => exact .inr .unlocking
    | timed | encrypted | unencrypted | read | missing | opened | shut | removed =>
      exact .inr .keyed
    | stored | unstored => exact .inr .passed
  · cases made with
    | entered => exact .inl ⟨_, rfl⟩
    | answered | locking | locked | again | ended | kept | revoked | closed => cases unlocks
    | unloaded | loaded | counted | throttled | admitted | onboarded | unknown | dated | recorded
    | looked | lost | dropped => exact .inr .unlocking
    | reset | configured | timed | persisted | unlocked | authorized => exact .inr .passed

end Inversions

/-! ## What the log tells -/

variable [DecidableEq Worker]

/-- Where the message of a worker stands. -/
def inHand (worker : Worker) : WalletLog Worker sealing → Progress
  | [] => .idle
  | exchange :: earlier =>
    if exchange.worker = worker then
      (inHand worker earlier).after exchange.request exchange.answer
    else inHand worker earlier

/-- A `LOCK_WALLET` was answered with success, and no `UNLOCK_WALLET` was sent since. -/
def locked : WalletLog Worker sealing → Bool
  | [] => false
  | exchange :: earlier =>
    match exchange.request with
    | .inr (.sent (.unlockWallet _)) => false
    | .inr (.respond .lockWallet reply) => reply.success || locked earlier
    | _ => locked earlier

def isSent : WalletCall sealing → Bool
  | .inr (.sent _) => true
  | _ => false

theorem exists_of_isSent {request : WalletCall sealing} (sent : isSent request = true) :
    ∃ message, request = .inr (.sent message) := by
  unfold isSent at sent
  split at sent
  · exact ⟨_, rfl⟩
  · cases sent

/-- When the message of a worker was sent or since, a `LOCK_WALLET` that had cleared the piece was
in progress. -/
def Overlapped (piece : Piece) (worker : Worker) : WalletLog Worker sealing → Prop
  | [] => False
  | exchange :: earlier =>
    (∃ other, (inHand other (exchange :: earlier)).Clears piece) ∨
      ¬ (exchange.worker = worker ∧ isSent exchange.request = true) ∧
        Overlapped piece worker earlier

/-- An unlocking leaves a piece unlocked only where no locking that cleared it came in between, and
takes its key away only where the flag is down and no other unlocking is through. -/
def Undisturbed (exchange : WalletExchange Worker sealing) (earlier : WalletLog Worker sealing) :
    Prop :=
  (∀ piece ∈ leaves exchange.request exchange.answer,
    ¬ Overlapped piece exchange.worker earlier) ∧
  (clears exchange.request = some .encryptionKey → inHand exchange.worker earlier = .keyed →
    ¬ Unlocked exchange.found .sessionUnlocked ∧ ∀ other, inHand other earlier ≠ .passed)

/-- Once a lock was answered and no unlocking is in progress everything is locked; and where no
message is in progress the flag says unlocked only if there is a key. -/
structure LockIsFinal (world : WalletWorld Worker sealing) : Prop where
  locked : locked world.exchanges = true →
    (∀ worker, ¬ (inHand worker world.exchanges).Unlocks) → ∀ piece, ¬ Unlocked world.state piece
  held : (∀ worker, inHand worker world.exchanges = .idle) →
    Unlocked world.state .sessionUnlocked → Unlocked world.state .encryptionKey

section Decidable

variable [Fintype Worker]

instance (worker : ServiceWorker sealing) : (piece : Piece) → Decidable (Unlocked worker piece)
  | .sessionUnlocked | .encryptionKey | .unlockSession =>
    inferInstanceAs (Decidable (_ = true))
  | .auth => inferInstanceAs (Decidable (∃ auth ∈ worker.background.auth, _))

instance overlappedDecidable (piece : Piece) (worker : Worker) :
    (log : WalletLog Worker sealing) → Decidable (Overlapped piece worker log)
  | [] => isFalse nofun
  | _ :: earlier =>
    have : Decidable (Overlapped piece worker earlier) := overlappedDecidable piece worker earlier
    inferInstanceAs (Decidable (_ ∨ _ ∧ _))

instance (exchange : WalletExchange Worker sealing) (earlier : WalletLog Worker sealing) :
    Decidable (Undisturbed exchange earlier) :=
  inferInstanceAs (Decidable ((∀ piece ∈ leaves _ _, _) ∧ (_ → _ → _ ∧ ∀ _, _)))

end Decidable

section Logs

variable {request : WalletCall sealing} {conditions : Conditions sealing} {piece : Piece}
  {worker other : Worker}
  {world : WalletWorld Worker sealing}

theorem inHand_after_self :
    inHand worker (afterCall world worker request conditions).exchanges =
      (inHand worker world.exchanges).after request
        (performWallet request conditions world.state).1 := if_pos rfl

theorem inHand_after_of_ne (different : other ≠ worker) :
    inHand other (afterCall world worker request conditions).exchanges =
      inHand other world.exchanges := if_neg (Ne.symm different)

theorem overlapped_of_clears {log : WalletLog Worker sealing}
    (clearing : (inHand other log).Clears piece) : Overlapped piece worker log := by
  cases log with
  | nil => cases clearing
  | cons exchange earlier => exact .inl ⟨other, clearing⟩

theorem overlapped_after (unsent : isSent request = true → other ≠ worker)
    (overlapped : Overlapped piece other world.exchanges) :
    Overlapped piece other (afterCall world worker request conditions).exchanges := by
  refine .inr ⟨?_, overlapped⟩
  rintro ⟨same, sent⟩
  exact unsent sent same.symm

end Logs

/-! ## Every run -/

/-- No locking has a hold on the piece. -/
def Free (piece : Piece) (log : WalletLog Worker sealing) : Prop :=
  locked log = false ∧ ∀ worker, ¬ (inHand worker log).Clears piece

/-- What is unlocked is free of locks, a key on trial apart; the unlockings that a lock must fear
are overlapped. -/
structure Consistent (world : WalletWorld Worker sealing) : Prop where
  free : ∀ piece, Unlocked world.state piece → Free piece world.exchanges ∨
    piece = .encryptionKey ∧ ∃ worker, inHand worker world.exchanges = .keyed
  overlapped : locked world.exchanges = true → ∀ piece worker,
    (inHand worker world.exchanges).Unlocks → Overlapped piece worker world.exchanges
  held : Unlocked world.state .sessionUnlocked → Unlocked world.state .encryptionKey
  passed : ∀ worker, inHand worker world.exchanges = .passed →
    Unlocked world.state .encryptionKey ∨ Overlapped .sessionUnlocked worker world.exchanges

theorem Consistent.isFinal {world : WalletWorld Worker sealing} (consistent : Consistent world) :
    LockIsFinal world where
  locked answered idle piece unlocked := by
    obtain ⟨unanswered, -⟩ | ⟨-, worker, keyed⟩ := consistent.free piece unlocked
    · exact absurd (answered.symm.trans unanswered) nofun
    · exact idle worker (keyed ▸ .keyed)
  held _ := consistent.held

section Steps

variable {request : WalletCall sealing} {conditions : Conditions sealing} {piece : Piece}
  {worker other : Worker} {stage onward : Stage}
  {world : WalletWorld Worker sealing}

/-- What a step of a consistent world is given. -/
structure StepFrom (world : WalletWorld Worker sealing) (worker : Worker)
    (request : WalletCall sealing) (conditions : Conditions sealing) (stage onward : Stage) :
    Prop where
  consistent : Consistent world
  stands : inHand worker world.exchanges = stage.progress
  made : WalletNext stage request (performWallet request conditions world.state).1 onward
  undisturbed : Undisturbed (world.exchange (fun _ => performWallet) worker request conditions)
    world.exchanges

omit [DecidableEq Worker] in
/-- The log answers a lock after a call when it did before, or when the call does. -/
theorem locked_of_after
    (answered : locked (afterCall world worker request conditions).exchanges = true) :
    (∃ reply, request = .inr (.respond .lockWallet reply)) ∨
      locked world.exchanges = true ∧
        ∀ password, request ≠ .inr (.sent (.unlockWallet password)) := by
  unfold afterCall World.after at answered
  unfold locked at answered
  dsimp only [World.exchange] at answered
  split at answered
  · cases answered
  · exact .inl ⟨_, rfl⟩
  · rename_i unsent _
    exact .inr ⟨answered, unsent⟩

namespace StepFrom

variable (step : StepFrom world worker request conditions stage onward)

include step

theorem stands_after :
    inHand worker (afterCall world worker request conditions).exchanges = onward.progress := by
  rw [inHand_after_self, step.stands, progress_of_next step.made]

/-- What an unlocking leaves is free of locks. -/
theorem free_of_leaves
    (left : leaves request (performWallet request conditions world.state).1 = some piece) :
    Free piece world.exchanges := by
  have undisturbed : ¬ Overlapped piece worker world.exchanges := step.undisturbed.1 piece left
  have unlocks := step.stands ▸ unlocks_of_leaves step.made left
  refine ⟨Bool.eq_false_iff.mpr fun answered => ?_, fun other clearing => ?_⟩
  · exact undisturbed (step.consistent.overlapped answered piece worker unlocks)
  · exact undisturbed (overlapped_of_clears clearing)

/-- What is free stays free unless it is cleared. -/
theorem free_after (uncleared : clears request ≠ some piece) (free : Free piece world.exchanges) :
    Free piece (afterCall world worker request conditions).exchanges := by
  refine ⟨Bool.eq_false_iff.mpr fun answered => ?_, fun other clearing => ?_⟩
  · obtain ⟨reply, rfl⟩ | ⟨already, -⟩ := locked_of_after answered
    · exact free.2 worker (step.stands ▸ clears_of_answered step.made)
    · exact absurd (already.symm.trans free.1) nofun
  · by_cases same : other = worker
    · subst same
      rw [inHand_after_self] at clearing
      obtain cleared | already := clears_of_after clearing
      · exact uncleared cleared
      · exact free.2 other already
    · rw [inHand_after_of_ne same] at clearing
      exact free.2 other clearing

theorem free_step (unlocked : Unlocked (afterCall world worker request conditions).state piece) :
    Free piece (afterCall world worker request conditions).exchanges ∨
      piece = .encryptionKey ∧ ∃ trying,
        inHand trying (afterCall world worker request conditions).exchanges = .keyed := by
  have uncleared : clears request ≠ some piece := fun clearing =>
    not_unlocked_of_clears clearing unlocked
  by_cases filled : fills request = some piece
  · obtain ⟨rfl, keyed⟩ | ⟨left, -⟩ := leaves_of_fills step.made filled
    · exact .inr ⟨rfl, worker, step.stands_after.trans keyed⟩
    · exact .inl (step.free_after uncleared (step.free_of_leaves left))
  have before : Unlocked world.state piece := (unlocked_after_iff uncleared filled).mp unlocked
  obtain free | ⟨rfl, trying, keyed⟩ := step.consistent.free piece before
  · exact .inl (step.free_after uncleared free)
  by_cases same : trying = worker
  · subst same
    by_cases still : onward.progress = .keyed
    · exact .inr ⟨rfl, trying, step.stands_after.trans still⟩
    obtain left | cleared | gone :=
      leaves_of_keyed step.made rfl (step.stands.symm.trans keyed) still
    · exact .inl (step.free_after uncleared (step.free_of_leaves left))
    · exact absurd cleared uncleared
    · exact absurd before gone
  · exact .inr ⟨rfl, trying, (inHand_after_of_ne same).trans keyed⟩

/-- Where a lock is answered, the unlockings in progress are overlapped. -/
theorem overlapped_step
    (answered : locked (afterCall world worker request conditions).exchanges = true)
    (unlocks : (inHand other (afterCall world worker request conditions).exchanges).Unlocks) :
    Overlapped piece other (afterCall world worker request conditions).exchanges := by
  have unsent (sent : isSent request = true) : other ≠ worker := by
    rintro rfl
    obtain ⟨message, rfl⟩ := exists_of_isSent sent
    cases message with
    | unlockWallet password => cases answered
    | lockWallet =>
      rw [inHand_after_self] at unlocks
      cases unlocks
  obtain ⟨reply, rfl⟩ | ⟨already, unsent'⟩ := locked_of_after answered
  · exact overlapped_after unsent
      (overlapped_of_clears (step.stands ▸ clears_of_answered step.made))
  · refine overlapped_after unsent (step.consistent.overlapped already piece other ?_)
    by_cases same : other = worker
    · subst same
      rw [step.stands_after] at unlocks
      obtain ⟨password, sent⟩ | before := unlocks_of_unlocks step.made unlocks
      · exact absurd sent (unsent' password)
      · exact step.stands ▸ before
    · rwa [inHand_after_of_ne same] at unlocks

/-- The key is cleared only where the flag is down. -/
theorem not_unlocked_of_clears_key (clearing : clears request = some .encryptionKey) :
    ¬ Unlocked world.state .sessionUnlocked := by
  obtain ⟨-, flag⟩ | ⟨-, keyed⟩ | ⟨other, -⟩ := progress_of_clears step.made clearing
  · intro unlocked
    obtain free | ⟨⟨⟩, -⟩ := step.consistent.free _ unlocked
    exact free.2 worker (step.stands ▸ flag rfl)
  · exact (step.undisturbed.2 clearing (step.stands.trans keyed)).1
  · exact absurd rfl other

/-- An unlocking that is through clears nothing. -/
theorem uncleared_of_passed (passed : stage.progress = .passed) : clears request ≠ some piece := by
  intro clearing
  obtain ⟨⟨_, locking⟩, -⟩ | ⟨-, keyed⟩ | ⟨-, unlocking⟩ := progress_of_clears step.made clearing
  · exact absurd (passed.symm.trans locking) nofun
  · exact absurd (passed.symm.trans keyed) nofun
  · exact absurd (passed.symm.trans unlocking) nofun

theorem held_step
    (unlocked : Unlocked (afterCall world worker request conditions).state .sessionUnlocked) :
    Unlocked (afterCall world worker request conditions).state .encryptionKey := by
  by_cases filled : fills request = some .sessionUnlocked
  · obtain ⟨⟨⟩, -⟩ | ⟨left, passed⟩ := leaves_of_fills step.made filled
    obtain held | overlapped := step.consistent.passed worker (step.stands.trans passed)
    · exact unlocked_after_of_unlocked (step.uncleared_of_passed passed) held
    · exact absurd overlapped (step.undisturbed.1 _ left)
  · have before : Unlocked world.state .sessionUnlocked :=
      (unlocked_after_iff (fun clearing => not_unlocked_of_clears clearing unlocked) filled).mp
        unlocked
    exact unlocked_after_of_unlocked
      (fun clearing => step.not_unlocked_of_clears_key clearing before)
      (step.consistent.held before)

theorem passed_step
    (passed : inHand other (afterCall world worker request conditions).exchanges = .passed) :
    Unlocked (afterCall world worker request conditions).state .encryptionKey ∨
      Overlapped .sessionUnlocked other (afterCall world worker request conditions).exchanges := by
  by_cases same : other = worker
  · subst same
    have unsent (sent : isSent request = true) : other ≠ other := by
      obtain ⟨message, rfl⟩ := exists_of_isSent sent
      rw [inHand_after_self] at passed
      cases message <;> cases passed
    rw [step.stands_after] at passed
    by_cases before : stage.progress = .passed
    · obtain held | overlapped := step.consistent.passed other (step.stands.trans before)
      · exact .inl (unlocked_after_of_unlocked (step.uncleared_of_passed before) held)
      · exact .inr (overlapped_after unsent overlapped)
    · exact .inl (unlocked_of_passed step.made rfl before passed)
  · have unsent (_ : isSent request = true) : other ≠ worker := same
    rw [inHand_after_of_ne same] at passed
    obtain held | overlapped := step.consistent.passed other passed
    · by_cases clearing : clears request = some .encryptionKey
      · obtain ⟨-, flag⟩ | ⟨-, keyed⟩ | ⟨otherPiece, -⟩ := progress_of_clears step.made clearing
        · exact .inr (overlapped_after unsent (overlapped_of_clears (step.stands ▸ flag rfl)))
        · exact absurd passed ((step.undisturbed.2 clearing (step.stands.trans keyed)).2 other)
        · exact absurd rfl otherPiece
      · exact .inl (unlocked_after_of_unlocked clearing held)
    · exact .inr (overlapped_after unsent overlapped)

theorem consistent_after : Consistent (afterCall world worker request conditions) where
  free _ := step.free_step
  overlapped answered _ _ := step.overlapped_step answered
  held := step.held_step
  passed _ := step.passed_step

end StepFrom

end Steps

/-- The message of a worker stands at a stage. -/
def Stands (worker : Worker) (stage : Stage)
    (world : WalletWorld Worker sealing) : Prop :=
  inHand worker world.exchanges = stage.progress

theorem lock_outlineStep :
    OutlineStep (fun _ => performWallet) WalletNext Undisturbed
      (@Consistent Worker _ sealing _) Stands := by
  intro worker stage request conditions onward world consistent stands made undisturbed
  have step : StepFrom world worker request conditions stage onward :=
    ⟨consistent, stands, made, undisturbed⟩
  exact ⟨step.consistent_after, step.stands_after,
    fun other different stage stands => (inHand_after_of_ne different).trans stands⟩

/-- In every run that is undisturbed a lock is final. -/
theorem lock_is_final (start : ServiceWorker sealing)
    (held : Unlocked start .sessionUnlocked → Unlocked start .encryptionKey)
    (turns : List (Turn Worker Message (Conditions sealing)))
    (undisturbed : Historically Undisturbed (messagesHandled start turns).exchanges) :
    LockIsFinal (messagesHandled start turns) := by
  have initial : Consistent (⟨start, []⟩ : WalletWorld Worker sealing) :=
    ⟨fun _ _ => .inl ⟨rfl, nofun⟩, nofun, held, nofun⟩
  exact (invariant_of_outline handled_follows lock_outlineStep initial
    (fun _ => ⟨.idle, rfl, rfl⟩) turns undisturbed).1.isFinal

/-- A wallet is unlocked, and locked. -/
theorem lock_is_final_after_unlock :
    LockIsFinal (messagesHandled lockedWallet
      (turnsOf true (.unlockWallet "right") 17 0 ++ turnsOf false .lockWallet 8 1)) :=
  lock_is_final lockedWallet nofun _ (by decide +kernel)

/-- Locked between the check of a password and what it unlocks, the wallet says that it is unlocked
when the lock has long been answered. -/
theorem lock_is_not_final :
    ¬ LockIsFinal (messagesHandled lockedWallet
      (turnsOf true (.unlockWallet "right") 10 0 ++ turnsOf false .lockWallet 8 1 ++
        List.replicate 7 (.resume true (onboardedAt 2)))) := by
  intro final
  have answered := final.locked (by decide +kernel) (by decide +kernel) .sessionUnlocked
  exact answered (by decide +kernel)

end Ancore.Wallet
