import Ancore.Vault.Methods

/-! # Changing the password

A change writes every item anew, then the verification payload and at last the
master salt.  An item is readable under the key of the password and of the salt in
force, so what is written before the salt is not readable until the salt is. -/

namespace Ancore.Vault

open Ancore.Library

variable {Value : Type} {sealing : Sealing (Plaintext Value)}

/-! ## The writes of a change -/

/-- Of the names some are stored anew under the key, and the others are as they were. -/
structure Writing (key : sealing.Key) (storage : Storage sealing)
    (done : List (String × Plaintext Value)) (after : Storage sealing) : Prop where
  untouched : ∀ name, name ∉ done.map Prod.fst → after name = storage name
  rewritten : ∀ entry ∈ done, ∃ nonce,
    after entry.1 = some (.payload (sealing.encrypt key nonce entry.2))

theorem Writing.store {key : sealing.Key} {storage after : Storage sealing}
    {done : List (String × Plaintext Value)} {name : String} {text : Plaintext Value}
    {payload : sealing.Box} (writing : Writing key storage done after)
    (new : name ∉ done.map Prod.fst)
    (isSealed : ∃ nonce, payload = sealing.encrypt key nonce text) :
    Writing key storage (done ++ [(name, text)])
      (Function.update after name (some (.payload payload))) where
  untouched other absent := by
    rw [List.map_append, List.mem_append, not_or] at absent
    have different : other ≠ name := by simpa using absent.2
    rw [Function.update_of_ne different, writing.untouched other absent.1]
  rewritten entry member := by
    obtain earlier | last := List.mem_append.mp member
    · have different : entry.1 ≠ name := fun same =>
        new (List.mem_map.mpr ⟨entry, earlier, same⟩)
      rw [Function.update_of_ne different]
      exact writing.rewritten entry earlier
    · obtain rfl := List.mem_singleton.mp last
      obtain ⟨nonce, rfl⟩ := isSealed
      exact ⟨nonce, Function.update_self ..⟩

section Writes

variable {permits : Circumstance sealing → Prop}
  {crash : List (String × StoredValue sealing) → Storage sealing → Prop}
  {manager : Manager sealing} {key : sealing.Key} {storage : Storage sealing}

theorem encryptAll_throughout {pending done : List (String × Plaintext Value)}
    {made : CallLog (VaultAnswer sealing)}
    {post : Except Thrown Unit → CallLog (VaultAnswer sealing) → Manager sealing → Prop}
    (held : manager.encryptionKey = some key)
    (distinct : ((done ++ pending).map Prod.fst).Nodup)
    (writing : Writing key storage done manager.storage)
    (crashes : ∀ done' pending' later after, done ++ pending = done' ++ pending' →
      (writes later).map Prod.fst = (done'.map Prod.fst).reverse →
      Writing key storage done' after → crash (writes later) after)
    (sofar : (writes made).map Prod.fst = (done.map Prod.fst).reverse)
    (next : ∀ later after,
      (writes later).map Prod.fst = ((done ++ pending).map Prod.fst).reverse →
      after.encryptionKey = some key → Writing key storage (done ++ pending) after.storage →
      post (.ok ()) later after)
    (failed : ∀ circumstance, permits circumstance → circumstance.throws = true →
      ∀ error later after, crash (writes later) after.storage → post (.error error) later after) :
    (encryptAll pending).run.Throughout perform permits (During crash) post made manager := by
  have current := crashes done pending made manager.storage rfl sofar writing
  induction pending generalizing done made manager with
  | nil =>
    rw [List.append_nil] at next
    exact ⟨current, next made manager sofar held writing⟩
  | cons entry pending inductionHypothesis =>
    have new : entry.1 ∉ done.map Prod.fst := by
      rw [List.map_append, List.nodup_append] at distinct
      intro member
      exact distinct.2.2 _ member _ (List.mem_cons_self ..) rfl
    have shifted : done ++ entry :: pending = (done ++ [entry]) ++ pending := by simp
    rw [shifted] at distinct next
    refine Program.throughout_bindExcept (storeEncrypted_throughout held current
      (fun later payload stored isSealed => ?_)
      fun circumstance permitted throws error later same =>
        failed circumstance permitted throws error later manager (same ▸ current))
    have onward := writing.store new isSealed
    have counted : (writes later).map Prod.fst =
        ((done ++ [entry]).map Prod.fst).reverse := by
      simp [stored, sofar]
    have crashing := crashes (done ++ [entry]) pending later _ shifted counted onward
    exact ⟨crashing, inductionHypothesis held distinct onward
      (fun done' pending' later after split => crashes done' pending' later after
        (shifted.trans split)) counted next crashing⟩

end Writes

/-! ## Where a change can be stopped -/

/-- The last write of a change is among the writes. -/
def SaltWritten (written : List (String × StoredValue sealing)) : Prop :=
  masterSaltStorageKey ∈ written.map Prod.fst

instance (written : List (String × StoredValue sealing)) : Decidable (SaltWritten written) :=
  inferInstanceAs (Decidable (_ ∈ _))

section Change

variable (key : sealing.Key) (names : List String) (storage : Storage sealing) (salt : sealing.Salt)
  (newPassword : String)

/-- The verification payload, or an item the key reads. -/
def Matters (name : String) : Prop :=
  name = verificationPayloadStorageKey ∨ name ∈ names ∧ (decrypted key storage name).isSome

/-- Something that matters is stored anew while the salt is still the old one. -/
def Torn (after : Storage sealing) : Prop :=
  after masterSaltStorageKey = some (.masterSalt salt) ∧
    ∃ newSalt name nonce text, newSalt ≠ salt ∧ Matters key names storage name ∧
      after name = some (.payload
        (sealing.encrypt (sealing.derive newPassword newSalt) nonce text))

/-- All that matters is stored anew, and the salt with it. -/
structure Rekeyed (newSalt : sealing.Salt) (after : Storage sealing) : Prop where
  salted : after masterSaltStorageKey = some (.masterSalt newSalt)
  verification : ∃ nonce text, after verificationPayloadStorageKey =
    some (.payload (sealing.encrypt (sealing.derive newPassword newSalt) nonce text))
  items : ∀ name ∈ names, name ≠ verificationPayloadStorageKey →
    ∀ text, decrypted key storage name = some text →
      ∃ nonce, after name = some (.payload
        (sealing.encrypt (sealing.derive newPassword newSalt) nonce text))

/-- What the writes carried out have come to. -/
def Reached (written : List (String × StoredValue sealing)) (after : Storage sealing) : Prop :=
  written = [] ∧ after = storage ∨
    written ≠ [] ∧ ¬ SaltWritten written ∧ Torn key names storage salt newPassword after ∨
    SaltWritten written ∧ ∃ newSalt, Rekeyed key names storage newPassword newSalt after

variable {key names storage salt newPassword}

theorem mem_contents {entry : String × Plaintext Value} :
    entry ∈ contents key storage names ↔
      entry.1 ∈ names ∧ decrypted key storage entry.1 = some entry.2 := by
  obtain ⟨name, text⟩ := entry
  simp [contents]

theorem map_fst_contents :
    (contents key storage names).map Prod.fst =
      names.filter fun name => (decrypted key storage name).isSome := by
  induction names with
  | nil => rfl
  | cons name names inductionHypothesis =>
    unfold contents at inductionHypothesis ⊢
    cases found : decrypted key storage name with
    | none => simpa [found] using inductionHypothesis
    | some text => simpa [found] using inductionHypothesis

/-- The salt is not among the items. -/
theorem master_not_mem_contents
    (salted : storage masterSaltStorageKey = some (.masterSalt salt)) :
    masterSaltStorageKey ∉ (contents key storage names).map Prod.fst := by
  rw [map_fst_contents]
  simp [decrypted, salted, parseEncryptedPayload]

theorem reached_of_writing {newSalt : sealing.Salt} {done pending : List (String × Plaintext Value)}
    {written : List (String × StoredValue sealing)} {after : Storage sealing}
    (salted : storage masterSaltStorageKey = some (.masterSalt salt)) (fresh : newSalt ≠ salt)
    (split : contents key storage names = done ++ pending)
    (counted : written.map Prod.fst = (done.map Prod.fst).reverse)
    (writing : Writing (sealing.derive newPassword newSalt) storage done after) :
    Reached key names storage salt newPassword written after := by
  have saltless : masterSaltStorageKey ∉ done.map Prod.fst := fun member =>
    master_not_mem_contents salted
      (by rw [split, List.map_append]; exact List.mem_append_left _ member)
  cases done with
  | nil =>
    refine .inl ⟨by simpa using counted, ?_⟩
    exact funext fun name => writing.untouched name List.not_mem_nil
  | cons entry done =>
    refine .inr (.inl ⟨?_, ?_, ?_, newSalt, entry.1, ?_⟩)
    · rintro rfl
      simp at counted
    · rw [SaltWritten, counted, List.mem_reverse]
      exact saltless
    · rw [writing.untouched _ saltless, salted]
    · obtain ⟨nonce, stored⟩ := writing.rewritten entry List.mem_cons_self
      obtain ⟨named, read⟩ := mem_contents.mp (split ▸ List.mem_cons_self :
        entry ∈ contents key storage names)
      exact ⟨nonce, entry.2, fresh, .inr ⟨named, by rw [read]; rfl⟩, stored⟩

theorem reached_of_verification {newSalt : sealing.Salt} {nonce : sealing.Nonce}
    {text : Plaintext Value} {written onward : List (String × StoredValue sealing)}
    {after : Storage sealing} {value : StoredValue sealing}
    (salted : after masterSaltStorageKey = some (.masterSalt salt)) (fresh : newSalt ≠ salt)
    (unsalted : ¬ SaltWritten written)
    (stored : onward = (verificationPayloadStorageKey, value) :: written) :
    Reached key names storage salt newPassword onward
      (Function.update after verificationPayloadStorageKey (some (.payload
        (sealing.encrypt (sealing.derive newPassword newSalt) nonce text)))) := by
  subst stored
  refine .inr (.inl ⟨nofun, ?_, ?_, newSalt, _, nonce, text, fresh, .inl rfl,
    Function.update_self ..⟩)
  · rw [SaltWritten, List.map_cons, List.mem_cons, not_or]
    exact ⟨(by decide : masterSaltStorageKey ≠ verificationPayloadStorageKey), unsalted⟩
  · rw [Function.update_of_ne (by decide), salted]

theorem rekeyed_of_salt {newSalt : sealing.Salt} (nonce : sealing.Nonce) (text : Plaintext Value)
    {after : Storage sealing}
    (salted : storage masterSaltStorageKey = some (.masterSalt salt))
    (writing : Writing (sealing.derive newPassword newSalt) storage (contents key storage names)
      after) :
    Rekeyed key names storage newPassword newSalt
      (Function.update (Function.update after verificationPayloadStorageKey (some (.payload
        (sealing.encrypt (sealing.derive newPassword newSalt) nonce text))))
        masterSaltStorageKey (some (.masterSalt newSalt))) where
  salted := Function.update_self ..
  verification := by
    rw [Function.update_of_ne (by decide), Function.update_self]
    exact ⟨nonce, text, rfl⟩
  items name named other text read := by
    have member : (name, text) ∈ contents key storage names := mem_contents.mpr ⟨named, read⟩
    have notSalt : name ≠ masterSaltStorageKey := by
      rintro rfl
      exact master_not_mem_contents salted (List.mem_map.mpr ⟨_, member, rfl⟩)
    rw [Function.update_of_ne notSalt, Function.update_of_ne other]
    exact writing.rewritten _ member

end Change

theorem rekey_throughout {permits : Circumstance sealing → Prop} {key : sealing.Key}
    {names : List String} {salt : sealing.Salt} {newPassword : String}
    {made : CallLog (VaultAnswer sealing)} {manager : Manager sealing}
    {post : Except Thrown Unit → CallLog (VaultAnswer sealing) → Manager sealing → Prop}
    (fresh : ∀ circumstance, permits circumstance → circumstance.salt ≠ salt)
    (distinct : names.Nodup)
    (salted : manager.storage masterSaltStorageKey = some (.masterSalt salt))
    (nothing : writes made = [])
    (next : ∀ later after, Reached key names manager.storage salt newPassword (writes later)
      after.storage → SaltWritten (writes later) → post (.ok ()) later after)
    (failed : ∀ error later after, post (.error error) later after) :
    (rekey newPassword (contents key manager.storage names)).run.Throughout perform permits
      (During (Reached key names manager.storage salt newPassword)) post made manager := by
  have current : Reached key names manager.storage salt newPassword (writes made)
      manager.storage := .inl ⟨nothing, rfl⟩
  refine ⟨current, fun drawn permitted => ?_⟩
  have renewed := fresh drawn permitted
  refine Program.throughout_bindExcept (useEncryptionKey_throughout current fun later same => ?_)
  have quiet : writes later = [] := same.trans nothing
  have distinctNames : ((contents key manager.storage names).map Prod.fst).Nodup := by
    rw [map_fst_contents]
    exact distinct.filter _
  have untouched : Writing (sealing.derive newPassword drawn.salt) manager.storage []
      manager.storage := ⟨fun _ _ => rfl, nofun⟩
  refine Program.throughout_bindExcept (encryptAll_throughout rfl distinctNames untouched
    (fun done pending later after split counted writing =>
      reached_of_writing salted renewed split counted writing)
    (by rw [quiet]; rfl) (fun later after counted held writing => ?_)
    fun _ _ _ error later after _ => failed error later after)
  -- Everything but the verification payload and the salt is written.
  have rewritten := reached_of_writing salted renewed (List.append_nil _).symm counted writing
  have saltless : ¬ SaltWritten (writes later) := by
    rw [SaltWritten, counted, List.mem_reverse]
    exact master_not_mem_contents salted
  have masterKept : after.storage masterSaltStorageKey = some (.masterSalt salt) := by
    rw [writing.untouched _ (master_not_mem_contents salted), salted]
  refine Program.throughout_bindExcept (Program.throughout_bindExcept
    ⟨rewritten, fun timed _ => ⟨rewritten, storeEncrypted_throughout held rewritten
      (fun last payload stored isSealed => ?_) fun _ _ _ error last _ => failed error last after⟩⟩)
  obtain ⟨nonce, rfl⟩ := isSealed
  have torn : Reached key names manager.storage salt newPassword (writes last)
      (Function.update after.storage verificationPayloadStorageKey (some (.payload
        (sealing.encrypt (sealing.derive newPassword drawn.salt) nonce
          (.verification timed.dateNow))))) :=
    reached_of_verification masterKept renewed saltless stored
  refine ⟨torn, torn, fun circumstance _ => ?_⟩
  rw [perform_set]
  split
  · exact ⟨torn, failed _ _ _⟩
  · have rekeyed := rekeyed_of_salt nonce (.verification timed.dateNow) salted writing
    exact ⟨.inr (.inr ⟨List.mem_cons_self, _, rekeyed⟩),
      next _ _ (.inr (.inr ⟨List.mem_cons_self, _, rekeyed⟩)) List.mem_cons_self⟩

theorem changePassword_throughout {permits : Circumstance sealing → Prop} {salt : sealing.Salt}
    {currentPassword newPassword : String} {additionalKeys : List String}
    {manager : Manager sealing}
    (reads : ∀ circumstance, permits circumstance → circumstance.corrupted = none)
    (fresh : ∀ circumstance, permits circumstance → circumstance.salt ≠ salt)
    (salted : manager.storage masterSaltStorageKey = some (.masterSalt salt))
    (accepted : accepts (sealing.derive currentPassword salt) manager.storage = true) :
    (changePassword currentPassword newPassword additionalKeys).run.Throughout perform permits
      (During (Reached (sealing.derive currentPassword salt) (dataKeys additionalKeys)
        manager.storage salt newPassword))
      (fun result made _ => result = .ok true → SaltWritten (writes made)) [] manager := by
  have nothing {made : CallLog (VaultAnswer sealing)} (none : writes made = []) :
      Reached (sealing.derive currentPassword salt) (dataKeys additionalKeys) manager.storage salt
        newPassword (writes made) manager.storage := .inl ⟨none, rfl⟩
  refine Program.throughout_bindExcept (loadMasterSalt_throughout reads (nothing rfl)
    fun made none => ?_)
  rw [salted]
  refine Program.throughout_bindExcept (lock_throughout (nothing none) fun made none' => ?_)
  have none := none'.trans none
  refine Program.throughout_bindExcept (useEncryptionKey_throughout (nothing none)
    fun made none' => ?_)
  have none := none'.trans none
  refine Program.throughout_bindExcept (verifyPassword_throughout reads rfl (nothing none)
    (fun _ made none' => ?_) fun refused => absurd (refused.symm.trans accepted) nofun)
  have none := none'.trans none
  refine Program.throughout_bindExcept (decryptAll_throughout (dataKeys additionalKeys) reads rfl
    (nothing none) (fun made none' => ?_) fun _ _ _ _ _ _ => nofun)
  exact Program.throughout_bindExcept (rekey_throughout fresh (nodup_setOf _) salted
    (none'.trans none) (fun later after reached written => ⟨reached, fun _ => written⟩)
    fun _ _ _ => nofun)

/-! ## What is left readable -/

section Recovery

variable (calm : Circumstance sealing) (names : List String) (oldPassword newPassword : String)
  (before : Storage sealing)

/-- The password unlocks the storage, and reads of each item what the old one read before. -/
structure Recovers (password : String) (after : Storage sealing) : Prop where
  unlocks : anew calm (unlock password) after = .ok true
  reads : ∀ name ∈ names, name ≠ verificationPayloadStorageKey → ∀ text,
    anew calm (unlockAndGet oldPassword name) before = .ok (some text) →
      anew calm (unlockAndGet password name) after = .ok (some text)

/-- A stopped change leaves the old or the new password to recover everything with, and a completed
one the new password only. -/
structure CrashSafe (run : Program.Stopped (Manager sealing) (VaultAnswer sealing)
    (Except Thrown Bool)) : Prop where
  recovers : ∃ password ∈ [oldPassword, newPassword],
    Recovers calm names oldPassword before password run.state.storage
  completed : run.rest = .done (.ok true) →
    Recovers calm names oldPassword before newPassword run.state.storage ∧
      ∀ password, password ≠ newPassword →
        anew calm (unlock password) run.state.storage = .ok false

variable {calm names oldPassword newPassword before} {salt newSalt : sealing.Salt}
  {after : Storage sealing}

/-- Nothing that is torn can be recovered with any password. -/
theorem not_recovers_of_torn (sound : sealing.Sound) (isCalm : calm.Calm)
    (salted : before masterSaltStorageKey = some (.masterSalt salt))
    (accepted : accepts (sealing.derive oldPassword salt) before = true)
    (torn : Torn (sealing.derive oldPassword salt) names before salt newPassword after)
    (password : String) : ¬ Recovers calm names oldPassword before password after := by
  obtain ⟨kept, newSalt, name, nonce, text, fresh, matters, stored⟩ := torn
  intro recovers
  have other : sealing.derive password salt ≠ sealing.derive newPassword newSalt :=
    fun same => fresh (sound.derive_inj same).2.symm
  have unread : decrypted (sealing.derive password salt) after name = none := by
    rw [decrypted, stored]
    exact sound.decrypt_other nonce text other
  have unlocks := recovers.unlocks
  rw [anew_unlock isCalm password kept, Except.ok.injEq] at unlocks
  by_cases verification : name = verificationPayloadStorageKey
  · rw [accepts, ← verification, unread] at unlocks
    cases unlocks
  · obtain ⟨named, read⟩ := matters.resolve_left verification
    obtain ⟨original, read⟩ := Option.isSome_iff_exists.mp read
    have readBefore := anew_unlockAndGet isCalm name salted accepted
    rw [read] at readBefore
    have readAfter := recovers.reads name named verification original readBefore
    rw [anew_unlockAndGet isCalm name kept unlocks, unread] at readAfter
    cases readAfter

theorem recovers_of_rekeyed (sound : sealing.Sound) (isCalm : calm.Calm)
    (salted : before masterSaltStorageKey = some (.masterSalt salt))
    (accepted : accepts (sealing.derive oldPassword salt) before = true)
    (rekeyed : Rekeyed (sealing.derive oldPassword salt) names before newPassword newSalt after) :
    Recovers calm names oldPassword before newPassword after ∧
      ∀ password, password ≠ newPassword → anew calm (unlock password) after = .ok false := by
  obtain ⟨nonce, text, verification⟩ := rekeyed.verification
  have acceptedNow : accepts (sealing.derive newPassword newSalt) after = true := by
    rw [accepts, decrypted, verification]
    exact congrArg Option.isSome (sound.decrypt_encrypt _ nonce text)
  refine ⟨⟨?_, fun name named other original read => ?_⟩, fun password different => ?_⟩
  · rw [anew_unlock isCalm newPassword rekeyed.salted, acceptedNow]
  · rw [anew_unlockAndGet isCalm name salted accepted, Except.ok.injEq] at read
    obtain ⟨nonce, stored⟩ := rekeyed.items name named other original read
    rw [anew_unlockAndGet isCalm name rekeyed.salted acceptedNow, decrypted, stored]
    exact congrArg Except.ok (sound.decrypt_encrypt _ nonce original)
  · rw [anew_unlock isCalm password rekeyed.salted, accepts, decrypted, verification]
    have otherKey : sealing.derive password newSalt ≠ sealing.derive newPassword newSalt :=
      fun same => different (sound.derive_inj same).1
    exact congrArg (fun found : Option (Plaintext Value) => Except.ok found.isSome)
      (sound.decrypt_other nonce text otherKey)

end Recovery

/-- A change of the password that is stopped is safe where its first write was not carried out or
its last one was, and nowhere between. -/
theorem password_change_crash_safe_iff (sound : sealing.Sound) {calm : Circumstance sealing}
    (isCalm : calm.Calm) {storage : Storage sealing} {salt : sealing.Salt} {oldPassword : String}
    (salted : storage masterSaltStorageKey = some (.masterSalt salt))
    (unlocks : anew calm (unlock oldPassword) storage = .ok true)
    (encryptionKey : Option sealing.Key) (newPassword : String) (additionalKeys : List String)
    (circumstances : List (Circumstance sealing))
    (uncorrupted : ∀ circumstance ∈ circumstances, circumstance.corrupted = none)
    (fresh : ∀ circumstance ∈ circumstances, circumstance.salt ≠ salt) :
    let run := Program.stopped perform circumstances
      ⟨(changePassword oldPassword newPassword additionalKeys).run, ⟨encryptionKey, storage⟩, []⟩
    CrashSafe calm (dataKeys additionalKeys) oldPassword newPassword storage run ↔
      writes run.made = [] ∨ SaltWritten (writes run.made) := by
  intro run
  have accepted : accepts (sealing.derive oldPassword salt) storage = true := by
    rw [anew_unlock isCalm oldPassword salted] at unlocks
    exact Except.ok.inj unlocks
  have throughout := @changePassword_throughout _ _
    (fun circumstance => circumstance.corrupted = none ∧ circumstance.salt ≠ salt) salt oldPassword
    newPassword additionalKeys ⟨encryptionKey, storage⟩ (fun _ permitted => permitted.1)
    (fun _ permitted => permitted.2) salted accepted
  obtain ⟨reached, ended⟩ := Program.stopped_of_throughout throughout
    fun circumstance member => ⟨uncorrupted circumstance member, fresh circumstance member⟩
  constructor
  · rintro ⟨⟨password, -, recovers⟩, -⟩
    obtain ⟨nothing, -⟩ | ⟨-, -, torn⟩ | ⟨written, -⟩ := reached
    · exact .inl nothing
    · exact absurd recovers (not_recovers_of_torn sound isCalm salted accepted torn password)
    · exact .inr written
  · intro before
    obtain ⟨nothing, same⟩ | ⟨some, unsalted, -⟩ | ⟨written, newSalt, rekeyed⟩ := reached
    · refine ⟨⟨oldPassword, List.mem_cons_self, ?_⟩, fun completed => ?_⟩
      · rw [same]
        exact ⟨unlocks, fun _ _ _ _ read => read⟩
      · have written := ended _ completed rfl
        rw [nothing] at written
        cases written
    · exact (before.elim some unsalted).elim
    · have recovered := recovers_of_rekeyed sound isCalm salted accepted rekeyed
      exact ⟨⟨newPassword, by simp, recovered.1⟩, fun _ => recovered⟩

/-! ### A vault with one item -/

abbrev symbolic : Sealing (Plaintext String) := Sealing.symbolic (Plaintext String)

/-- The account of a vault under the password "old". -/
def accountStorage : Storage symbolic := fun key =>
  if key = masterSaltStorageKey then some (.masterSalt 1)
  else if key = verificationPayloadStorageKey then some (.payload (("old", 1), .verification 0))
  else if key = "account" then some (.payload (("old", 1), .item "secret"))
  else none

/-- A call by which the random salt is 2. -/
def Circumstance.smooth : Circumstance symbolic where
  dateNow := 0
  salt := 2
  nonce := ()
  corrupted := none
  throws := false

/-- The change of the password of this vault, stopped after some calls. -/
def accountChange (calls : Nat) : Program.Stopped (Manager symbolic) (VaultAnswer symbolic)
    (Except Thrown Bool) :=
  Program.stopped perform (List.replicate calls .smooth)
    ⟨(changePassword "old" "new" []).run, .fresh accountStorage, []⟩

theorem password_change_crash_safe_of_sample :
    CrashSafe .smooth (dataKeys []) "old" "new" accountStorage (accountChange 19) :=
  (password_change_crash_safe_iff (Sealing.symbolic_sound _) ⟨rfl, rfl⟩ (rfl : _ = some _) (by rfl)
    none "new" [] (List.replicate 19 .smooth) (by simp [Circumstance.smooth])
    (by simp [Circumstance.smooth])).mpr (.inr (by decide))

/-- Stopped after the account is written anew, the old password reads no account and the new one
does not unlock. -/
theorem change_stopped_after_account :
    ¬ CrashSafe .smooth (dataKeys []) "old" "new" accountStorage (accountChange 15) := by
  rintro ⟨⟨password, among, recovers⟩, -⟩
  obtain rfl | rfl : password = "old" ∨ password = "new" := by simpa using among
  · have read := recovers.reads "account" (by decide) (by decide) (.item "secret") rfl
    exact absurd read (by decide)
  · exact absurd recovers.unlocks (by decide)

end Ancore.Vault
