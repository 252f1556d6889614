import Ancore.Vault.Manager

/-! # What the methods of the vault come to

Each method is followed from call to call once, under a condition on the writes
that were carried out and on the storage, so that what it ends with and what it
leaves when it is stopped are read off together. -/

namespace Ancore.Vault

open Ancore.Library

variable {Value : Type} {sealing : Sealing (Plaintext Value)}

/-! ## Runs that may be stopped -/

/-- The values written by a call, if it was carried out. -/
def written : ((call : VaultCall sealing) × VaultAnswer sealing call) →
    Option (String × StoredValue sealing)
  | ⟨.set key value, .ok ()⟩ => some (key, value)
  | _ => none

/-- The writes carried out, latest first. -/
def writes (made : CallLog (VaultAnswer sealing)) : List (String × StoredValue sealing) :=
  made.filterMap written

/-- A condition on the writes and on the storage they lead to. -/
abbrev During (crash : List (String × StoredValue sealing) → Storage sealing → Prop) :
    CallLog (VaultAnswer sealing) → Manager sealing → Prop :=
  fun made manager => crash (writes made) manager.storage

/-- What the key decrypts of the item stored under a name. -/
def decrypted (key : sealing.Key) (storage : Storage sealing) (name : String) :
    Option (Plaintext Value) :=
  (parseEncryptedPayload (storage name)).bind (sealing.decrypt key)

/-- The key decrypts the verification payload. -/
def accepts (key : sealing.Key) (storage : Storage sealing) : Bool :=
  (decrypted key storage verificationPayloadStorageKey).isSome

/-- What the key decrypts under some names. -/
def contents (key : sealing.Key) (storage : Storage sealing) (names : List String) :
    List (String × Plaintext Value) :=
  names.filterMap fun name => (decrypted key storage name).map (Prod.mk name)

/-- The manager has no key, or nothing to try one on. -/
def Cleared (manager : Manager sealing) : Prop :=
  manager.encryptionKey = none ∨
    parseEncryptedPayload (manager.storage verificationPayloadStorageKey) = none

/-- Some of the items cannot be decrypted with the key. -/
def Unreadable (key : sealing.Key) (storage : Storage sealing) (names : List String) : Prop :=
  ∃ name ∈ names, ∃ payload, parseEncryptedPayload (storage name) = some payload ∧
    sealing.decrypt key payload = none

theorem Unreadable.cons {key : sealing.Key} {storage : Storage sealing} {names : List String}
    (unreadable : Unreadable key storage names) (name : String) :
    Unreadable key storage (name :: names) := by
  obtain ⟨other, member, unread⟩ := unreadable
  exact ⟨other, List.mem_cons_of_mem name member, unread⟩

section Helpers

variable {permits : Circumstance sealing → Prop}
  {crash : List (String × StoredValue sealing) → Storage sealing → Prop}
  {made : CallLog (VaultAnswer sealing)} {manager : Manager sealing} {α : Type}
  {post : Except Thrown α → CallLog (VaultAnswer sealing) → Manager sealing → Prop}

theorem loadMasterSalt_throughout
    {post : Except Thrown (Option sealing.Salt) → CallLog (VaultAnswer sealing) →
      Manager sealing → Prop}
    (reads : ∀ circumstance, permits circumstance → circumstance.corrupted = none)
    (current : crash (writes made) manager.storage)
    (next : ∀ later, writes later = writes made →
      post (.ok (parseMasterSalt (manager.storage masterSaltStorageKey))) later manager) :
    loadMasterSalt.run.Throughout perform permits (During crash) post made manager := by
  refine Program.throughout_bindExcept ⟨current, fun circumstance permitted => ?_⟩
  rw [perform_get _ (reads circumstance permitted)]
  exact ⟨current, current, next _ rfl⟩

theorem readEncryptedPayload_throughout {key : String}
    {post : Except Thrown (Option sealing.Box) → CallLog (VaultAnswer sealing) →
      Manager sealing → Prop}
    (reads : ∀ circumstance, permits circumstance → circumstance.corrupted = none)
    (current : crash (writes made) manager.storage)
    (next : ∀ later, writes later = writes made →
      post (.ok (parseEncryptedPayload (manager.storage key))) later manager) :
    (readEncryptedPayload key).run.Throughout perform permits (During crash) post made manager := by
  refine Program.throughout_bindExcept ⟨current, fun circumstance permitted => ?_⟩
  rw [perform_get _ (reads circumstance permitted)]
  exact ⟨current, current, next _ rfl⟩

theorem useEncryptionKey_throughout {password : String} {masterSalt : sealing.Salt}
    {post : Except Thrown Unit → CallLog (VaultAnswer sealing) → Manager sealing → Prop}
    (current : crash (writes made) manager.storage)
    (next : ∀ later, writes later = writes made → post (.ok ()) later
      { manager with encryptionKey := some (sealing.derive password masterSalt) }) :
    (useEncryptionKey password masterSalt).run.Throughout perform permits (During crash) post made
      manager :=
  ⟨current, fun _ _ => ⟨current, fun _ _ => ⟨current, next _ rfl⟩⟩⟩

theorem lock_throughout {post : Except Thrown Unit → CallLog (VaultAnswer sealing) →
      Manager sealing → Prop}
    (current : crash (writes made) manager.storage)
    (next : ∀ later, writes later = writes made →
      post (.ok ()) later { manager with encryptionKey := none }) :
    lock.run.Throughout perform permits (During crash) post made manager :=
  ⟨current, fun _ _ => ⟨current, next _ rfl⟩⟩

theorem verifyPassword_throughout {key : sealing.Key}
    {post : Except Thrown Bool → CallLog (VaultAnswer sealing) → Manager sealing → Prop}
    (reads : ∀ circumstance, permits circumstance → circumstance.corrupted = none)
    (held : manager.encryptionKey = some key) (current : crash (writes made) manager.storage)
    (right : accepts key manager.storage = true → ∀ later, writes later = writes made →
      post (.ok true) later manager)
    (wrong : accepts key manager.storage = false → ∀ later after, writes later = writes made →
      after.storage = manager.storage → Cleared after → post (.ok false) later after) :
    verifyPassword.run.Throughout perform permits (During crash) post made manager := by
  refine Program.throughout_bindExcept
    (readEncryptedPayload_throughout reads current fun later same => ?_)
  rw [← same] at current
  cases stored : parseEncryptedPayload (manager.storage verificationPayloadStorageKey) with
  | none =>
    exact ⟨current, wrong (by simp [accepts, decrypted, stored]) later manager same rfl
      (.inr stored)⟩
  | some payload =>
    refine ⟨current, fun circumstance permitted => ?_⟩
    rw [perform_decryptData payload held]
    cases opened : sealing.decrypt key payload with
    | none =>
      have refused : accepts key manager.storage = false := by
        simp [accepts, decrypted, stored, opened]
      exact ⟨current, fun _ _ => ⟨current, wrong refused _ _ same rfl (.inl rfl)⟩⟩
    | some text => exact ⟨current, right (by simp [accepts, decrypted, stored, opened]) _ same⟩

theorem decryptAll_throughout {key : sealing.Key} (keys : List String)
    {post : Except Thrown (List (String × Plaintext Value)) → CallLog (VaultAnswer sealing) →
      Manager sealing → Prop}
    (reads : ∀ circumstance, permits circumstance → circumstance.corrupted = none)
    (held : manager.encryptionKey = some key) (current : crash (writes made) manager.storage)
    (next : ∀ later, writes later = writes made →
      post (.ok (contents key manager.storage keys)) later manager)
    (failed : Unreadable key manager.storage keys → ∀ error later after,
      writes later = writes made → after.storage = manager.storage →
        post (.error error) later after) :
    (decryptAll keys).run.Throughout perform permits (During crash) post made manager := by
  induction keys generalizing made post with
  | nil => exact ⟨current, next made rfl⟩
  | cons name keys inductionHypothesis =>
    refine Program.throughout_bindExcept
      (readEncryptedPayload_throughout reads current fun later same => ?_)
    rw [← same] at current next failed
    cases stored : parseEncryptedPayload (manager.storage name) with
    | none =>
      have nothing : contents key manager.storage (name :: keys) =
          contents key manager.storage keys := by
        simp [contents, decrypted, stored]
      exact inductionHypothesis current (nothing ▸ next) fun unreadable =>
        failed (unreadable.cons name)
    | some payload =>
      refine ⟨current, fun circumstance permitted => ?_⟩
      rw [perform_decryptData payload held]
      cases opened : sealing.decrypt key payload with
      | none =>
        have unreadable : Unreadable key manager.storage (name :: keys) :=
          ⟨name, List.mem_cons_self, payload, stored, opened⟩
        exact ⟨current, fun _ _ => ⟨current, failed unreadable _ _ _ rfl rfl⟩⟩
      | some text =>
        have found : contents key manager.storage (name :: keys) =
            (name, text) :: contents key manager.storage keys := by
          simp [contents, decrypted, stored, opened]
        rw [found] at next
        exact Program.throughout_bindExcept (inductionHypothesis current
          (fun later same => ⟨(congrArg (crash · manager.storage) same).mpr current,
            next later same⟩) fun unreadable => failed (unreadable.cons name))

theorem storeEncrypted_throughout {key : sealing.Key} {name : String} {text : Plaintext Value}
    {post : Except Thrown Unit → CallLog (VaultAnswer sealing) → Manager sealing → Prop}
    (held : manager.encryptionKey = some key) (current : crash (writes made) manager.storage)
    (stored : ∀ later payload, writes later = (name, .payload payload) :: writes made →
      (∃ nonce, payload = sealing.encrypt key nonce text) →
      crash (writes later) (Function.update manager.storage name (some (.payload payload))) ∧
        post (.ok ()) later { manager with
          storage := Function.update manager.storage name (some (.payload payload)) })
    (failed : ∀ circumstance, permits circumstance → circumstance.throws = true →
      ∀ error later, writes later = writes made → post (.error error) later manager) :
    (storeEncrypted name text).run.Throughout perform permits (During crash) post made
      manager := by
  refine ⟨current, fun circumstance permitted => ?_⟩
  rw [perform_encryptData text held]
  refine ⟨current, fun circumstance permitted => ?_⟩
  rw [perform_set]
  split
  · exact ⟨current, failed circumstance permitted ‹_› _ _ rfl⟩
  · exact stored _ _ rfl ⟨_, rfl⟩

theorem unlock_throughout {password : String} {masterSalt : sealing.Salt}
    {post : Except Thrown Bool → CallLog (VaultAnswer sealing) → Manager sealing → Prop}
    (reads : ∀ circumstance, permits circumstance → circumstance.corrupted = none)
    (locked : manager.encryptionKey = none)
    (salted : manager.storage masterSaltStorageKey = some (.masterSalt masterSalt))
    (current : crash (writes made) manager.storage)
    (right : accepts (sealing.derive password masterSalt) manager.storage = true →
      ∀ later, writes later = writes made → post (.ok true) later
        { manager with encryptionKey := some (sealing.derive password masterSalt) })
    (wrong : accepts (sealing.derive password masterSalt) manager.storage = false →
      ∀ later after, writes later = writes made → after.storage = manager.storage →
        Cleared after → post (.ok false) later after) :
    (unlock password).run.Throughout perform permits (During crash) post made manager := by
  refine ⟨current, fun circumstance permitted => ?_⟩
  rw [perform_isUnlocked, locked]
  refine Program.throughout_bindExcept (loadMasterSalt_throughout reads current
    fun later same => ?_)
  rw [salted]
  have current' : crash (writes later) manager.storage :=
    (congrArg (crash · manager.storage) same).mpr current
  refine Program.throughout_bindExcept (useEncryptionKey_throughout current'
    fun further same' => ?_)
  have current'' : crash (writes further) manager.storage :=
    (congrArg (crash · manager.storage) same').mpr current'
  have unchanged {last : CallLog (VaultAnswer sealing)} (still : writes last = writes further) :
      writes last = writes made := still.trans (same'.trans same)
  exact verifyPassword_throughout reads rfl current''
    (fun accepted last still => right accepted last (unchanged still))
    fun refused last after still => wrong refused last after (unchanged still)

theorem getItem_throughout {key : sealing.Key} {name : String}
    {post : Except Thrown (Option (Plaintext Value)) → CallLog (VaultAnswer sealing) →
      Manager sealing → Prop}
    (reads : ∀ circumstance, permits circumstance → circumstance.corrupted = none)
    (held : manager.encryptionKey = some key) (current : crash (writes made) manager.storage)
    (next : ∀ later, writes later = writes made →
      post (.ok (decrypted key manager.storage name)) later manager) :
    (getItem name).run.Throughout perform permits (During crash) post made manager := by
  refine ⟨current, fun circumstance permitted => ?_⟩
  rw [perform_isUnlocked, held]
  refine Program.throughout_bindExcept (readEncryptedPayload_throughout reads current
    fun later same => ?_)
  have current' : crash (writes later) manager.storage :=
    (congrArg (crash · manager.storage) same).mpr current
  cases stored : parseEncryptedPayload (manager.storage name) with
  | none =>
    simp only [decrypted, stored] at next
    exact ⟨current', next later same⟩
  | some payload =>
    refine ⟨current', fun circumstance permitted => ?_⟩
    rw [perform_decryptData payload held]
    simp only [decrypted, stored, Option.bind_some] at next
    cases opened : sealing.decrypt key payload with
    | none =>
      rw [opened] at next
      exact ⟨current', next _ same⟩
    | some text =>
      rw [opened] at next
      exact ⟨current', next _ same⟩

end Helpers

/-! ## New managers -/

/-- What the method comes to in a new manager over the storage. -/
def anew {α : Type} (calm : Circumstance sealing) (method : Async sealing α)
    (storage : Storage sealing) : Except Thrown α :=
  (method.run.alone perform calm (.fresh storage, [])).1

theorem anew_of_throughout {α : Type} {calm : Circumstance sealing} (isCalm : calm.Calm)
    {method : Async sealing α} {storage : Storage sealing} {value : Except Thrown α}
    (throughout : method.run.Throughout perform Circumstance.Calm (During fun _ _ => True)
      (fun result _ _ => result = value) [] (.fresh storage)) :
    anew calm method storage = value := by
  obtain ⟨-, ended⟩ := Program.alone_of_always (Program.always_of_throughout throughout)
    (fun _ member => absurd member List.not_mem_nil) isCalm
  exact ended

theorem anew_unlock {calm : Circumstance sealing} (isCalm : calm.Calm) (password : String)
    {masterSalt : sealing.Salt} {storage : Storage sealing}
    (salted : storage masterSaltStorageKey = some (.masterSalt masterSalt)) :
    anew calm (unlock password) storage =
      .ok (accepts (sealing.derive password masterSalt) storage) :=
  anew_of_throughout isCalm (unlock_throughout (fun _ calm => calm.1) rfl salted trivial
    (fun accepted _ _ => by rw [← accepted]; rfl) fun refused _ _ _ _ _ => by rw [← refused]; rfl)

/-- Unlock, and read an item. -/
def unlockAndGet (password name : String) : Async sealing (Option (Plaintext Value)) := do
  let _ ← unlock password
  getItem name

theorem anew_unlockAndGet {calm : Circumstance sealing} (isCalm : calm.Calm) {password : String}
    (name : String) {masterSalt : sealing.Salt} {storage : Storage sealing}
    (salted : storage masterSaltStorageKey = some (.masterSalt masterSalt))
    (accepted : accepts (sealing.derive password masterSalt) storage = true) :
    anew calm (unlockAndGet password name) storage =
      .ok (decrypted (sealing.derive password masterSalt) storage name) :=
  anew_of_throughout isCalm (Program.throughout_bindExcept (unlock_throughout
    (fun _ calm => calm.1) rfl salted trivial
    (fun _ _ _ => getItem_throughout (fun _ calm => calm.1) rfl trivial fun _ _ => rfl)
    fun refused => absurd (refused.symm.trans accepted) nofun))

end Ancore.Vault

