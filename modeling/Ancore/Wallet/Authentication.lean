import Ancore.Library.Runs
import Ancore.Library.Solo
import Ancore.Vault.Methods
import Ancore.Wallet.Background

/-! # Unlocking and authentication

A message to unlock is answered with success where the vault was unlocked before,
whatever the password; and a vault whose unlocking failed may be left with a key.
Both are told from what the state was and from what the storage answered. -/

namespace Ancore.Wallet

open Ancore.Library Ancore.Vault

variable {Value : Type} {sealing : Sealing (Plaintext Value)}

/-! ## What the storage answered -/

/-- The calls of the vault among those of the wallet. -/
def vaultCalls (made : CallLog (WalletAnswer sealing)) : CallLog (VaultAnswer sealing) :=
  made.filterMap fun
    | ⟨.inl call, answer⟩ => some ⟨call, answer⟩
    | ⟨.inr _, _⟩ => none

/-- What was read under a key. -/
def readings (key : String) (made : CallLog (VaultAnswer sealing)) :
    List (Option (StoredValue sealing)) :=
  made.filterMap fun
    | ⟨.get name, answer⟩ => if name = key then some answer else none
    | _ => none

/-- No salt was read. -/
def SaltMissed (made : CallLog (VaultAnswer sealing)) : Prop :=
  ∃ read ∈ readings masterSaltStorageKey made, parseMasterSalt read = none

/-- No verification payload was read. -/
def PayloadMissed (made : CallLog (VaultAnswer sealing)) : Prop :=
  ∃ read ∈ readings verificationPayloadStorageKey made, parseEncryptedPayload read = none

/-- What the writes threw. -/
def failures (made : CallLog (VaultAnswer sealing)) : List Thrown :=
  made.filterMap fun
    | ⟨.set _ _, .error error⟩ => some error
    | _ => none

/-- A write threw. -/
def WriteFailed (made : CallLog (VaultAnswer sealing)) : Prop := failures made ≠ []

/-- The password opens the verification payload that was read, with the salt that was. -/
def Opened (password : String) (made : CallLog (VaultAnswer sealing)) : Prop :=
  ∃ salt ∈ (readings masterSaltStorageKey made).filterMap parseMasterSalt,
    ∃ payload ∈ (readings verificationPayloadStorageKey made).filterMap parseEncryptedPayload,
      (sealing.decrypt (sealing.derive password salt) payload).isSome

/-- How an unlocking went. -/
inductive Unlocking (password : String) (before : Manager sealing) :
    Except Thrown Bool → CallLog (VaultAnswer sealing) → Manager sealing → Prop
  | unlocked {made : CallLog (VaultAnswer sealing)} (held : before.encryptionKey ≠ none)
    (read : ¬ PayloadMissed made) (written : ¬ WriteFailed made) :
    Unlocking password before (.ok true) made before
  | created {made : CallLog (VaultAnswer sealing)} {after : Manager sealing}
    (locked : before.encryptionKey = none) (missed : SaltMissed made)
    (read : ¬ PayloadMissed made) (written : ¬ WriteFailed made) :
    Unlocking password before (.ok true) made after
  | interrupted {made : CallLog (VaultAnswer sealing)} {after : Manager sealing} {error : Thrown}
    (locked : before.encryptionKey = none) (failed : WriteFailed made)
    (left : after.encryptionKey ≠ none) :
    Unlocking password before (.error error) made after
  | unverified {made : CallLog (VaultAnswer sealing)} {after : Manager sealing}
    (locked : before.encryptionKey = none) (missed : PayloadMissed made)
    (left : after.encryptionKey ≠ none) :
    Unlocking password before (.ok false) made after
  | verified {made : CallLog (VaultAnswer sealing)} {after : Manager sealing}
    (locked : before.encryptionKey = none) (salted : ¬ SaltMissed made)
    (read : ¬ PayloadMissed made) (written : ¬ WriteFailed made) (opened : Opened password made) :
    Unlocking password before (.ok true) made after
  | refused {made : CallLog (VaultAnswer sealing)} {after : Manager sealing}
    (locked : before.encryptionKey = none) (salted : ¬ SaltMissed made)
    (read : ¬ PayloadMissed made) (written : ¬ WriteFailed made) (shut : ¬ Opened password made)
    (left : after.encryptionKey = none) :
    Unlocking password before (.ok false) made after

theorem salt_ne_payload : masterSaltStorageKey ≠ verificationPayloadStorageKey := by decide

theorem verifyPassword_course {manager : Manager sealing} {key : sealing.Key}
    {made : CallLog (VaultAnswer sealing)}
    {post : Except Thrown Bool → CallLog (VaultAnswer sealing) → Manager sealing → Prop}
    (held : manager.encryptionKey = some key)
    (missed : ∀ read, parseEncryptedPayload read = none →
      post (.ok false) (⟨.get verificationPayloadStorageKey, read⟩ :: made) manager)
    (right : ∀ read payload answer, parseEncryptedPayload read = some payload →
      (sealing.decrypt key payload).isSome →
        post (.ok true) (⟨.decryptData payload, answer⟩ ::
          ⟨.get verificationPayloadStorageKey, read⟩ :: made) manager)
    (wrong : ∀ read payload answer, parseEncryptedPayload read = some payload →
      sealing.decrypt key payload = none →
        post (.ok false) (⟨.setEncryptionKey none, ()⟩ :: ⟨.decryptData payload, answer⟩ ::
          ⟨.get verificationPayloadStorageKey, read⟩ :: made) ⟨none, manager.storage⟩) :
    verifyPassword.run.Throughout perform (fun _ => True) (fun _ _ => True) post made manager := by
  refine Program.throughout_bindExcept (Program.throughout_bindExcept
    ⟨trivial, fun again _ => ⟨trivial, trivial, ?_⟩⟩)
  change Program.Throughout perform _ _ _ _ _ manager
  generalize (perform (.get verificationPayloadStorageKey) again manager).1 = read
  cases parsed : parseEncryptedPayload read with
  | none => exact ⟨trivial, missed read parsed⟩
  | some payload =>
    refine ⟨trivial, fun _ _ => ?_⟩
    rw [perform_decryptData payload held]
    cases opened : sealing.decrypt key payload with
    | none => exact ⟨trivial, fun _ _ => ⟨trivial, wrong read payload _ parsed opened⟩⟩
    | some text => exact ⟨trivial, right read payload _ parsed (by rw [opened]; rfl)⟩

theorem unlock_course (password : String) (manager : Manager sealing) :
    (unlock password).run.Throughout perform (fun _ => True) (fun _ _ => True)
      (fun result made after => made ≠ [] ∧ Unlocking password manager result made after) []
      manager := by
  have other := salt_ne_payload
  refine ⟨trivial, fun _ _ => ?_⟩
  rw [perform_isUnlocked]
  cases held : manager.encryptionKey with
  | some key =>
    have holds : manager.encryptionKey ≠ none := by rw [held]; nofun
    exact ⟨trivial, nofun, .unlocked holds (by simp [PayloadMissed, readings])
      (by simp [WriteFailed, failures])⟩
  | none =>
    refine Program.throughout_bindExcept (Program.throughout_bindExcept
      ⟨trivial, fun read _ => ⟨trivial, trivial, ?_⟩⟩)
    change Program.Throughout perform _ _ _ _ _ manager
    generalize (perform (.get masterSaltStorageKey) read manager).1 = stored
    cases salted : parseMasterSalt stored with
    | none =>
      -- The first unlocking writes a verification payload and a salt, and each write may throw.
      refine ⟨trivial, fun drawn _ => ⟨trivial, fun _ _ => ⟨trivial, fun _ _ => ?_⟩⟩⟩
      refine Program.throughout_bindExcept (Program.throughout_bindExcept ⟨trivial, fun timed _ =>
        ⟨trivial, ⟨trivial, fun encrypted _ => ?_⟩⟩⟩)
      rw [@perform_encryptData _ _ encrypted _ (sealing.derive password drawn.salt) _ rfl]
      refine ⟨trivial, fun first _ => ?_⟩
      rw [perform_set]
      split
      · exact ⟨trivial, nofun, .interrupted held (by simp [WriteFailed, failures]) nofun⟩
      · refine ⟨trivial, trivial, fun second _ => ?_⟩
        rw [perform_set]
        split
        · exact ⟨trivial, nofun, .interrupted held (by simp [WriteFailed, failures]) nofun⟩
        · exact ⟨trivial, nofun, .created held ⟨stored, by simp [readings], salted⟩
            (by simp [PayloadMissed, readings, other]) (by simp [WriteFailed, failures])⟩
    | some salt =>
      refine ⟨trivial, fun _ _ => ⟨trivial, fun _ _ => ?_⟩⟩
      refine verifyPassword_course rfl (fun read missed => ?_)
        (fun read payload answer parsed opens => ?_) fun read payload answer parsed shut => ?_
      · exact ⟨nofun, .unverified held ⟨read, by simp [readings], missed⟩ nofun⟩
      · refine ⟨nofun, .verified held (by simp [SaltMissed, readings, other.symm, salted])
          (by simp [PayloadMissed, readings, other, parsed]) (by simp [WriteFailed, failures]) ?_⟩
        exact ⟨salt, by simp [readings, other.symm, salted], payload,
          by simp [readings, other, parsed], opens⟩
      · refine ⟨nofun, .refused held (by simp [SaltMissed, readings, other.symm, salted])
          (by simp [PayloadMissed, readings, other, parsed]) (by simp [WriteFailed, failures]) ?_
          rfl⟩
        simp only [Opened, readings, other, other.symm, salted, parsed, List.filterMap_cons,
          List.filterMap_nil, ite_true, ite_false, List.mem_singleton, exists_eq_left,
          Bool.not_eq_true, Option.isSome_eq_false_iff, Option.isNone_iff_eq_none]
        exact shut

/-! ## The methods among the programs of the wallet -/

/-- In all conditions the program run alone ends as stated. -/
abbrev Comes {α : Type} (program : WalletProgram sealing α) (made : CallLog (WalletAnswer sealing))
    (worker : ServiceWorker sealing)
    (post : α → CallLog (WalletAnswer sealing) → ServiceWorker sealing → Prop) : Prop :=
  program.Throughout performWallet (fun _ => True) (fun _ _ => True) post made worker

/-- A method of the vault comes to the same among the programs of the wallet. -/
theorem vaulted_comes {α : Type} {method : Async sealing α} {worker : ServiceWorker sealing}
    {made : CallLog (WalletAnswer sealing)}
    {post : Except Thrown α → CallLog (VaultAnswer sealing) → Manager sealing → Prop}
    {next : Except Thrown α → CallLog (WalletAnswer sealing) → ServiceWorker sealing → Prop}
    (course : method.run.Throughout perform (fun _ => True) (fun _ _ => True) post
      (vaultCalls made) worker.manager)
    (onward : ∀ result later manager, post result (vaultCalls later) manager →
      next result later { worker with manager := manager }) :
    Comes (vaulted method).run made worker next := by
  unfold vaulted
  change Comes method.run.left made worker next
  generalize method.run = program at course
  induction program generalizing made worker with
  | done result => exact ⟨trivial, onward result made worker.manager course.2⟩
  | call request resume inductionHypothesis =>
    refine ⟨trivial, fun conditions _ => ?_⟩
    exact inductionHypothesis _ onward (course.2 conditions.vault trivial)

section Handlers

variable {made : CallLog (WalletAnswer sealing)} {worker : ServiceWorker sealing}

/-- The program calls nothing of the vault. -/
abbrev Beside {α : Type} (program : WalletProgram sealing α) (returns : α → Prop) : Prop :=
  ∀ made worker next, (∀ result later background, returns result →
    vaultCalls later = vaultCalls made →
      next result later { worker with background := background }) →
        Comes program made worker next

theorem rejectPassword_beside (attemptState : UnlockAttemptState) :
    Beside (rejectPassword attemptState : WalletProgram sealing Reply)
      fun reply => reply.success = false := by
  intro made worker next onward
  refine ⟨trivial, fun _ _ => ⟨trivial, fun _ _ => ⟨trivial, fun _ _ => ⟨trivial, ?_⟩⟩⟩⟩
  refine onward _ _ _ ?_ rfl
  dsimp only
  split
  · rfl
  · rfl

theorem acceptPassword_beside (authState : AuthState) :
    Beside (acceptPassword authState : WalletProgram sealing Reply)
      fun reply => reply.success = true :=
  fun _ _ _ onward => ⟨trivial, fun _ _ => ⟨trivial, fun _ _ => ⟨trivial, fun _ _ =>
    ⟨trivial, fun _ _ => ⟨trivial, fun _ _ => ⟨trivial, fun _ _ =>
      ⟨trivial, onward _ _ _ rfl rfl⟩⟩⟩⟩⟩⟩⟩

theorem recoverUnlock_beside :
    Beside (recoverUnlock : WalletProgram sealing Reply) fun reply => reply.success = false :=
  fun _ _ _ onward => ⟨trivial, fun _ _ => ⟨trivial, fun _ _ => ⟨trivial, fun _ _ =>
    ⟨trivial, onward _ _ _ rfl rfl⟩⟩⟩⟩

theorem loadUnlockAttemptState_beside :
    Beside (loadUnlockAttemptState : WalletProgram sealing UnlockAttemptState) fun _ => True := by
  intro made worker next onward
  refine ⟨trivial, fun conditions _ => ?_⟩
  change Comes (match worker.background.unlockAttempts with | none => _ | some state => _) _ _ _
  cases worker.background.unlockAttempts with
  | none => exact ⟨trivial, onward _ _ worker.background trivial rfl⟩
  | some state =>
    refine ⟨trivial, fun later _ => ?_⟩
    change Comes (if _ then _ else _) _ _ _
    split
    · exact ⟨trivial, onward _ _ worker.background trivial rfl⟩
    · exact ⟨trivial, onward _ _ worker.background trivial rfl⟩

/-- How a message to unlock went: its password was not tried, or the answer tells whether the vault
was unlocked with it. -/
inductive Answering (password : String) (before : Manager sealing) :
    Except Thrown Reply → CallLog (VaultAnswer sealing) → Manager sealing → Prop
  | turnedAway {reply : Reply} (failed : reply.success = false) :
    Answering password before (.ok reply) [] before
  | told {reply : Reply} {result : Except Thrown Bool} {made : CallLog (VaultAnswer sealing)}
    {after : Manager sealing} (tried : made ≠ [])
    (course : Unlocking password before result made after)
    (tells : reply.success = true ↔ result = .ok true) :
    Answering password before (.ok reply) made after
  | thrown {error : Thrown} {result : Except Thrown Bool} {made : CallLog (VaultAnswer sealing)}
    {after : Manager sealing} (tried : made ≠ [])
    (course : Unlocking password before result made after)
    (failed : result ≠ .ok true) : Answering password before (.error error) made after

theorem tryPassword_comes (password : String) (attemptState : UnlockAttemptState)
    (authState : AuthState) {made : CallLog (WalletAnswer sealing)}
    {worker : ServiceWorker sealing} (untried : vaultCalls made = []) :
    Comes (tryPassword password attemptState authState).run made worker fun outcome later after =>
      Answering password worker.manager outcome (vaultCalls later) after.manager := by
  refine Program.throughout_bindExcept (vaulted_comes
    (by rw [untried]; exact unlock_course password _) fun result later manager ended => ?_)
  obtain ⟨tried, course⟩ := ended
  obtain error | _ | _ := result
  · exact .thrown tried course nofun
  · refine Program.throughout_lift (rejectPassword_beside attemptState _ _ _
      fun reply last background failed same => same ▸ .told tried course ?_)
    exact iff_of_false (fun succeeded => absurd (failed.symm.trans succeeded) nofun) nofun
  · refine Program.throughout_lift (acceptPassword_beside authState _ _ _
      fun reply last background succeeded same => same ▸ .told tried course ?_)
    exact iff_of_true succeeded rfl

theorem handleUnlockWallet_comes (password : String) {made : CallLog (WalletAnswer sealing)}
    {worker : ServiceWorker sealing} (untried : vaultCalls made = []) :
    Comes (handleUnlockWallet password).run made worker fun outcome later after =>
      Answering password worker.manager outcome (vaultCalls later) after.manager := by
  have away {reply : Reply} (failed : reply.success = false)
      {later : CallLog (WalletAnswer sealing)} (untried : vaultCalls later = []) :
      Answering password worker.manager (.ok reply) (vaultCalls later) worker.manager :=
    untried ▸ .turnedAway failed
  unfold handleUnlockWallet
  split
  · exact ⟨trivial, away rfl untried⟩
  refine Program.throughout_bindExcept (Program.throughout_lift
    (loadUnlockAttemptState_beside _ _ _ fun attemptState later background _ same => ?_))
  have untried := same.trans untried
  refine Program.throughout_bindExcept ⟨trivial, fun conditions _ => ⟨trivial, ?_⟩⟩
  dsimp only
  split
  · exact ⟨trivial, away rfl untried⟩
  refine Program.throughout_bindExcept ⟨trivial, fun conditions _ => ⟨trivial, ?_⟩⟩
  dsimp only
  split
  · exact ⟨trivial, away rfl untried⟩
  · exact @tryPassword_comes _ _ password attemptState _ _ ⟨worker.manager, background⟩ untried

theorem unlockWallet_comes (password : String) (worker : ServiceWorker sealing) :
    Comes (unlockWallet password) [] worker fun reply made after =>
      Answering password worker.manager (.ok reply) (vaultCalls made) after.manager := by
  refine ⟨trivial, fun _ _ => ?_⟩
  change Comes (settleUnlock password >>= fun reply => _) _ _ _
  refine Program.throughout_bind (Program.throughout_bind (Program.throughout_mono
    (handleUnlockWallet_comes password rfl) fun outcome made after _ answering => ?_))
  cases outcome with
  | ok reply => exact ⟨trivial, trivial, fun _ _ => ⟨trivial, answering⟩⟩
  | error error =>
    refine recoverUnlock_beside _ _ _ fun reply later background failed same =>
      ⟨trivial, fun _ _ => ⟨trivial, ?_⟩⟩
    obtain _ | _ | ⟨tried, course, unsuccessful⟩ := answering
    refine .told (same ▸ tried) (same ▸ course) (iff_of_false (fun succeeded => ?_) unsuccessful)
    exact absurd (failed.symm.trans succeeded) nofun

end Handlers

/-! ## Sequences of calls and messages -/

inductive Operation where
  | unlock (password : String)
  | lock
  | changePassword (currentPassword newPassword : String) (additionalKeys : List String)
  | reset (additionalKeys : List String)
  | message (message : Message)
  deriving DecidableEq, Repr

/-- The program of an operation; it ends with whether the operation succeeded. -/
def Operation.program : Operation → WalletProgram sealing (Except Thrown Bool)
  | .unlock password => (vaulted (Vault.unlock password)).run
  | .lock => ((fun () => true) <$> vaulted Vault.lock : WalletAsync sealing Bool).run
  | .changePassword currentPassword newPassword additionalKeys =>
    (vaulted (Vault.changePassword currentPassword newPassword additionalKeys)).run
  | .reset additionalKeys =>
    ((fun () => true) <$> vaulted (Vault.reset additionalKeys) : WalletAsync sealing Bool).run
  | .message received => do
    let reply ← handle received
    pure (.ok reply.success)

/-- An operation, with the conditions of its calls. -/
abbrev Step (sealing : Sealing (Plaintext Value)) : Type := Operation × List (Conditions sealing)

/-- What an operation came to, and its calls to the vault. -/
structure Outcome (sealing : Sealing (Plaintext Value)) where
  result : Except Thrown Bool
  calls : CallLog (VaultAnswer sealing)

/-- The operation run alone. -/
def step (calm : Conditions sealing) (step : Step sealing) (worker : ServiceWorker sealing) :
    Option (Outcome sealing × ServiceWorker sealing) :=
  let (result, made, after) := step.1.program.traced performWallet calm worker step.2 []
  some (⟨result, vaultCalls made⟩, after)

/-- The password opens the stored verification payload, with the stored salt. -/
def Right (password : String) (storage : Storage sealing) : Prop :=
  ∃ salt, storage masterSaltStorageKey = some (.masterSalt salt) ∧
    accepts (sealing.derive password salt) storage = true

/-- There is a vault: a master salt is stored. -/
def VaultExists (storage : Storage sealing) : Prop :=
  ∃ salt, storage masterSaltStorageKey = some (.masterSalt salt)

/-- An operation authenticates: a message to unlock a vault that exists succeeds with the right
password only, and an unlocking that fails leaves a locked vault locked. -/
def Authenticates (transition : Transition (ServiceWorker sealing) (Step sealing)
    (Outcome sealing)) : Prop :=
  match transition.input.1 with
  | .message (.unlockWallet password) =>
    (VaultExists transition.before.manager.storage → transition.output.result = .ok true →
      Right password transition.before.manager.storage) ∧
    (transition.before.manager.encryptionKey = none → transition.output.result ≠ .ok true →
      transition.after.manager.encryptionKey = none)
  | .unlock _ =>
    transition.before.manager.encryptionKey = none → transition.output.result ≠ .ok true →
      transition.after.manager.encryptionKey = none
  | _ => True

/-- The storage answers an unlocking soundly: a verification payload is read if it is looked for,
and no write throws. -/
def Sound (calls : CallLog (VaultAnswer sealing)) : Prop :=
  ¬ PayloadMissed calls ∧ ¬ WriteFailed calls

/-- A wrong password that is tried finds the vault locked, and the storage answers with a salt, and
with no payload that the password opens. -/
def Verified (transition : Transition (ServiceWorker sealing) (Step sealing)
    (Outcome sealing)) : Prop :=
  match transition.input.1 with
  | .message (.unlockWallet password) =>
    Sound transition.output.calls ∧
      (VaultExists transition.before.manager.storage → transition.output.calls ≠ [] →
        Right password transition.before.manager.storage ∨
          transition.before.manager.encryptionKey = none ∧ ¬ SaltMissed transition.output.calls ∧
            ¬ Opened password transition.output.calls)
  | .unlock _ => Sound transition.output.calls
  | _ => True

section Transitions

variable {calm : Conditions sealing}
  {transition : Transition (ServiceWorker sealing) (Step sealing) (Outcome sealing)}

/-- What an operation in all conditions ends with, the step of it ends with. -/
theorem performed_comes {post : Except Thrown Bool → CallLog (WalletAnswer sealing) →
      ServiceWorker sealing → Prop}
    (performed : transition.Performed (step calm))
    (comes : Comes transition.input.1.program [] transition.before post) :
    ∃ made, vaultCalls made = transition.output.calls ∧
      post transition.output.result made transition.after := by
  unfold Transition.Performed step at performed
  obtain ⟨told, reached⟩ := Prod.mk.inj (Option.some.inj performed)
  refine ⟨_, congrArg Outcome.calls told, ?_⟩
  have ended := @Program.traced_of_throughout _ _ _ _ _ _ _ calm _ _ _ _ _ comes
    transition.input.2 (fun _ _ => trivial) trivial
  rw [← reached, ← told]
  exact ended

/-- An unlocking that fails leaves a locked vault locked where the storage answers soundly. -/
theorem Unlocking.sound_iff {password : String} {before after : Manager sealing}
    {result : Except Thrown Bool} {made : CallLog (VaultAnswer sealing)}
    (course : Unlocking password before result made after) :
    Sound made ↔
      (before.encryptionKey = none → result ≠ .ok true → after.encryptionKey = none) := by
  cases course with
  | unlocked held read written =>
    exact iff_of_true ⟨read, written⟩ fun _ failed => absurd rfl failed
  | created locked missed read written =>
    exact iff_of_true ⟨read, written⟩ fun _ failed => absurd rfl failed
  | interrupted locked failed left =>
    exact iff_of_false (fun sound => sound.2 failed) fun empty => left (empty locked nofun)
  | unverified locked missed left =>
    exact iff_of_false (fun sound => sound.1 missed) fun empty => left (empty locked nofun)
  | verified locked salted read written opened =>
    exact iff_of_true ⟨read, written⟩ fun _ failed => absurd rfl failed
  | refused locked salted read written shut left =>
    exact iff_of_true ⟨read, written⟩ fun _ _ => left

/-- A sound unlocking succeeds unless the vault is locked, a salt is read and no payload opens. -/
theorem Unlocking.ok_iff {password : String} {before after : Manager sealing}
    {result : Except Thrown Bool} {made : CallLog (VaultAnswer sealing)}
    (course : Unlocking password before result made after) (sound : Sound made) :
    result = .ok true ↔
      ¬ (before.encryptionKey = none ∧ ¬ SaltMissed made ∧ ¬ Opened password made) := by
  cases course with
  | unlocked held read written => exact iff_of_true rfl fun shut => held shut.1
  | created locked missed read written => exact iff_of_true rfl fun shut => shut.2.1 missed
  | interrupted locked failed left => exact absurd failed sound.2
  | unverified locked missed left => exact absurd missed sound.1
  | verified locked salted read written opened => exact iff_of_true rfl fun shut => shut.2.2 opened
  | refused locked salted read written shut left =>
    exact iff_of_false nofun fun refusal => refusal ⟨locked, salted, shut⟩

/-- A message that is told how its unlocking went authenticates where the unlocking is sound, and
where a wrong password has no way to succeed. -/
theorem Answering.iff {password : String} {before after : Manager sealing} {reply : Reply}
    {calls : CallLog (VaultAnswer sealing)} {vault right : Prop}
    (answering : Answering password before (.ok reply) calls after) :
    ((vault → (Except.ok reply.success : Except Thrown Bool) = .ok true → right) ∧
      (before.encryptionKey = none → (Except.ok reply.success : Except Thrown Bool) ≠ .ok true →
        after.encryptionKey = none)) ↔
    Sound calls ∧ (vault → calls ≠ [] →
      right ∨ before.encryptionKey = none ∧ ¬ SaltMissed calls ∧ ¬ Opened password calls) := by
  cases answering with
  | turnedAway failed =>
    have unsuccessful : (Except.ok reply.success : Except Thrown Bool) ≠ .ok true := by
      rw [failed]
      nofun
    refine iff_of_true ⟨fun _ succeeded => absurd succeeded unsuccessful, fun locked _ => locked⟩
      ⟨⟨?_, ?_⟩, fun _ tried => absurd rfl tried⟩
    · simp [PayloadMissed, readings]
    · simp [WriteFailed, failures]
  | @told _ result _ _ tried course tells =>
    have same : (Except.ok reply.success : Except Thrown Bool) = .ok true ↔ result = .ok true := by
      rw [← tells, Except.ok.injEq]
    rw [Ne, same, ← course.sound_iff, and_comm]
    refine and_congr_right fun sound => forall_congr' fun _ => ?_
    rw [course.ok_iff sound]
    constructor
    · intro rightly _
      by_cases shut : before.encryptionKey = none ∧ ¬ SaltMissed calls ∧ ¬ Opened password calls
      · exact .inr shut
      · exact .inl (rightly shut)
    · intro either succeeds
      exact (either tried).resolve_right succeeds

theorem authenticates_iff (performed : transition.Performed (step calm)) :
    Authenticates transition ↔ Verified transition := by
  obtain ⟨⟨operation, conditions⟩, before, ⟨result, calls⟩, after⟩ := transition
  match operation with
  | .unlock password =>
    have comes : Comes (Operation.program (.unlock password)) [] before fun result later after =>
        Unlocking password before.manager result (vaultCalls later) after.manager :=
      vaulted_comes (unlock_course password before.manager)
        fun result later manager ended => ended.2
    obtain ⟨made, rfl, course⟩ := performed_comes performed comes
    exact course.sound_iff.symm
  | .message (.unlockWallet password) =>
    have comes : Comes (Operation.program (.message (.unlockWallet password))) [] before
        fun result later after => ∃ reply, result = .ok reply.success ∧
          Answering password before.manager (.ok reply) (vaultCalls later) after.manager :=
      Program.throughout_bind (Program.throughout_mono (unlockWallet_comes password before)
        fun reply later after _ answering => ⟨trivial, reply, rfl, answering⟩)
    obtain ⟨made, rfl, reply, rfl, answering⟩ := performed_comes performed comes
    exact answering.iff
  | .lock | .changePassword _ _ _ | .reset _ | .message .lockWallet => exact Iff.rfl

/-- In every run the operations authenticate exactly where wrong passwords find the vault locked and
the storage answers unlockings soundly. -/
theorem unlock_authenticates_iff (calm : Conditions sealing) (start : ServiceWorker sealing)
    (steps : List (Step sealing)) :
    (∀ transition ∈ history (step calm) start steps, Authenticates transition) ↔
      ∀ transition ∈ history (step calm) start steps, Verified transition :=
  forall₂_congr fun _ member => authenticates_iff (performed_of_mem_history _ member)

end Transitions

/-! ### The prompt of a payment -/

/-- Calls by the page of an onboarded wallet. -/
def onboarded : Conditions (Sealing.symbolic (Plaintext String)) where
  vault := ⟨0, (1 : Nat), (), none, false⟩
  dateNow := 0
  authState := ⟨true, "Ancore Wallet", "G", none⟩

/-- Nothing is stored yet. -/
def emptyWallet : ServiceWorker (Sealing.symbolic (Plaintext String)) where
  manager := .fresh fun _ => none
  background := ⟨false, none, none, none, none⟩

/-- A wallet is unlocked, and prompts for its password. -/
def promptSteps : List (Step (Sealing.symbolic (Plaintext String))) :=
  [(.unlock "right", []), (.message (.unlockWallet "wrong"), [])]

/-- The prompt accepts a wrong password. -/
theorem prompt_accepts_wrong_password :
    ¬ ∀ transition ∈ history (step onboarded) emptyWallet promptSteps,
      Authenticates transition := by
  intro authenticate
  have prompted : (history (step onboarded) emptyWallet promptSteps).length = 2 := rfl
  obtain ⟨rightly, -⟩ := authenticate _ (List.getElem_mem (by rw [prompted]; exact one_lt_two))
  obtain ⟨salt, stored, accepted⟩ := rightly ⟨(1 : Nat), rfl⟩ rfl
  cases stored
  exact absurd (accepted : false = true) nofun

end Ancore.Wallet
