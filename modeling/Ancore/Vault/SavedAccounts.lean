import Ancore.Vault.MobileVault

/-! # The accounts that were saved

An account may be saved under the legacy key and under the new one.  `Accounted` says
what is stored under both of what was saved: saving keeps it (`Accounted.saveLegacy`,
`Accounted.saveUnified`), and so does the migration, wherever it stops
(`Accounted.moved`).
-/

namespace Ancore.Vault

open Ancore.Library

/-! ## What was saved -/

/-- Where accounts are kept. -/
inductive Shelf where
  | legacy
  | unified
  deriving DecidableEq

def Shelf.storageKey : Shelf → String
  | legacy => legacyMobileVaultKey
  | unified => defaultAccountsStorageKey

section Saved

variable {Json : Type} {cipher : Sealing String}
  {sealing : Sealing (Plaintext (VaultItem Json cipher))}

abbrev MobileTransition (sealing : Sealing (Plaintext (VaultItem Json cipher))) : Type :=
  Transition (Device sealing) (MobileStep sealing) Report

def PersistAccountInput.secret (input : PersistAccountInput Json) : AccountSecretPayload Json :=
  ⟨input.keyMaterial, input.accountPayload⟩

/-- The account that a call persists, and on which shelf. -/
def MobileCall.persists : MobileCall Json → Option (Shelf × PersistAccountInput Json)
  | persistLegacy _ input => some (.legacy, input)
  | persist input => some (.unified, input)
  | _ => none

/-- The secret that was saved for an account, if one was. -/
def savedOn (shelf : Shelf) (id : String) (transition : MobileTransition sealing) :
    Option (AccountSecretPayload Json) :=
  match transition.input.call.persists with
  | some (other, input) =>
    if other = shelf ∧ input.id = id ∧ shelf.storageKey ∈ transition.output.wrote then
      some input.secret
    else none
  | none => none

/-- The secret saved last for an account; the latest step comes first. -/
def lastSaved (past : List (MobileTransition sealing)) (shelf : Shelf) (id : String) :
    Option (AccountSecretPayload Json) :=
  past.findSome? (savedOn shelf id)

theorem lastSaved_cons (transition : MobileTransition sealing)
    (past : List (MobileTransition sealing)) (shelf : Shelf) (id : String) :
    lastSaved (transition :: past) shelf id =
      (savedOn shelf id transition).or (lastSaved past shelf id) := by
  rw [lastSaved, List.findSome?_cons]
  cases savedOn shelf id transition with
  | none => rfl
  | some secret => rfl

/-! ## What is stored of it -/

/-- The secret of an account among records. -/
def secretIn (records : Option (AccountRecords Json)) (id : String) :
    Option (AccountSecretPayload Json) :=
  records.bind fun records => (records.lookup id).map PersistedAccountRecord.secret

/-- What is under the new key was saved there last; what was saved under the legacy key is there, or
was moved from there. -/
structure Accounted (past : List (MobileTransition sealing))
    (legacy unified : Option (AccountRecords Json)) : Prop where
  onUnified : ∀ id secret, lastSaved past .unified id = some secret →
    secretIn unified id = some secret
  onLegacy : ∀ id secret, lastSaved past .legacy id = some secret →
    secretIn legacy id = some secret ∨ secretIn legacy id = none ∧
      (lastSaved past .unified id = none → secretIn unified id = some secret)
  kept : ∀ id secret, secretIn legacy id = some secret →
    lastSaved past .legacy id = some secret

variable {past : List (MobileTransition sealing)} {legacy unified : Option (AccountRecords Json)}
  {transition : MobileTransition sealing}

theorem Accounted.nothing (unsaved : ∀ shelf id, lastSaved past shelf id = none) :
    Accounted past none none where
  onUnified id secret saved := by
    rw [unsaved] at saved
    cases saved
  onLegacy id secret saved := by
    rw [unsaved] at saved
    cases saved
  kept _ _ := nofun

/-- A step that saves nothing leaves what was saved last. -/
theorem lastSaved_of_silent (silent : ∀ shelf id, savedOn shelf id transition = none)
    (shelf : Shelf) (id : String) :
    lastSaved (transition :: past) shelf id = lastSaved past shelf id := by
  rw [lastSaved_cons, silent]
  rfl

theorem Accounted.silent (accounted : Accounted past legacy unified)
    (silent : ∀ shelf id, savedOn shelf id transition = none) :
    Accounted (transition :: past) legacy unified := by
  have same := @lastSaved_of_silent _ _ _ past _ silent
  constructor
  · intro id secret saved
    exact accounted.onUnified id secret (same _ _ ▸ saved)
  · intro id secret saved
    rw [same] at saved ⊢
    exact accounted.onLegacy id secret saved
  · intro id secret held
    rw [same]
    exact accounted.kept id secret held

/-- The records of a shelf with an account saved there. -/
def withAccount (records : Option (AccountRecords Json)) (input : PersistAccountInput Json)
    (metadata : AccountMetadata) : Option (AccountRecords Json) :=
  some (upsert (records.getD []) input.id ⟨metadata, input.secret⟩)

theorem secretIn_withAccount {records : Option (AccountRecords Json)}
    {input : PersistAccountInput Json} {metadata : AccountMetadata} {id : String} :
    secretIn (withAccount records input metadata) id =
      if id = input.id then some input.secret else secretIn records id := by
  rw [secretIn, withAccount, Option.bind_some, lookup_upsert]
  split
  · rfl
  · cases records with
    | none => rfl
    | some records => rfl

theorem Accounted.saveLegacy {input : PersistAccountInput Json} (metadata : AccountMetadata)
    (accounted : Accounted past legacy unified)
    (saves : ∀ shelf id, savedOn shelf id transition =
      if shelf = .legacy ∧ id = input.id then some input.secret else none) :
    Accounted (transition :: past) (withAccount legacy input metadata) unified := by
  have saved (shelf : Shelf) (id : String) : lastSaved (transition :: past) shelf id =
      if shelf = .legacy ∧ id = input.id then some input.secret else lastSaved past shelf id := by
    rw [lastSaved_cons, saves]
    split <;> rfl
  constructor
  · intro id secret before
    rw [saved, if_neg nofun] at before
    exact accounted.onUnified id secret before
  · intro id secret before
    rw [saved] at before
    rw [saved, if_neg nofun, secretIn_withAccount]
    split at before
    · rename_i this
      rw [if_pos this.2]
      exact Or.inl before
    · rename_i other
      rw [if_neg fun same => other ⟨rfl, same⟩]
      exact accounted.onLegacy id secret before
  · intro id secret held
    rw [secretIn_withAccount] at held
    rw [saved]
    by_cases same : id = input.id
    · rw [if_pos same] at held
      rw [if_pos ⟨rfl, same⟩]
      exact held
    · rw [if_neg same] at held
      rw [if_neg fun this => same this.2]
      exact accounted.kept id secret held

theorem Accounted.saveUnified {input : PersistAccountInput Json} (metadata : AccountMetadata)
    (accounted : Accounted past legacy unified)
    (saves : ∀ shelf id, savedOn shelf id transition =
      if shelf = .unified ∧ id = input.id then some input.secret else none) :
    Accounted (transition :: past) legacy (withAccount unified input metadata) := by
  have saved (shelf : Shelf) (id : String) : lastSaved (transition :: past) shelf id =
      if shelf = .unified ∧ id = input.id then some input.secret
      else lastSaved past shelf id := by
    rw [lastSaved_cons, saves]
    split <;> rfl
  constructor
  · intro id secret before
    rw [saved] at before
    rw [secretIn_withAccount]
    split at before
    · rename_i this
      rw [if_pos this.2]
      exact before
    · rename_i other
      rw [if_neg fun same => other ⟨rfl, same⟩]
      exact accounted.onUnified id secret before
  · intro id secret before
    rw [saved, if_neg nofun] at before
    refine (accounted.onLegacy id secret before).imp_right fun moved => ⟨moved.1, fun unsaved => ?_⟩
    rw [saved] at unsaved
    split at unsaved
    · cases unsaved
    · rename_i other
      rw [secretIn_withAccount, if_neg fun same => other ⟨rfl, same⟩]
      exact moved.2 unsaved
  · intro id secret held
    rw [saved, if_neg nofun]
    exact accounted.kept id secret held

/-- Where nothing is under the new key, nothing was saved there, and what was saved is under the
legacy key. -/
theorem Accounted.unmoved (accounted : Accounted past legacy none) {id : String}
    {secret : AccountSecretPayload Json} (saved : lastSaved past .legacy id = some secret) :
    secretIn legacy id = some secret := by
  refine (accounted.onLegacy id secret saved).resolve_right fun moved => ?_
  cases before : lastSaved past .unified id with
  | none => cases moved.2 before
  | some other => cases accounted.onUnified id other before

/-- The migration copies the legacy records, and then deletes them. -/
theorem Accounted.moved {left : Option (AccountRecords Json)}
    (accounted : Accounted past legacy none)
    (rest : left = legacy ∨ left = none) : Accounted past left legacy where
  onUnified id secret saved := nomatch accounted.onUnified id secret saved
  onLegacy id secret saved := by
    have held := accounted.unmoved saved
    rcases rest with rfl | rfl
    · exact Or.inl held
    · exact Or.inr ⟨rfl, fun _ => held⟩
  kept id secret held := by
    rcases rest with rfl | rfl
    · exact accounted.kept id secret held
    · cases held

/-- The secret that an account is to be found with. -/
def wanted (past : List (MobileTransition sealing)) (id : String) :
    Option (AccountSecretPayload Json) :=
  (lastSaved past .unified id).or (lastSaved past .legacy id)

/-- What is under the new key has every account with its secret, just if it has those under the
legacy key. -/
theorem Accounted.complete_iff (accounted : Accounted past legacy unified) :
    (∀ id secret, wanted past id = some secret → secretIn unified id = some secret) ↔
      ∀ id secret, secretIn legacy id = some secret →
        lastSaved past .unified id ≠ none ∨ secretIn unified id = some secret := by
  constructor
  · intro complete id secret held
    cases saved : lastSaved past .unified id with
    | some other => exact Or.inl nofun
    | none =>
      right
      refine complete id secret ?_
      rw [wanted, saved, Option.none_or]
      exact accounted.kept id secret held
  · intro reconciled id secret wants
    rw [wanted] at wants
    cases saved : lastSaved past .unified id with
    | some other =>
      rw [saved, Option.some_or] at wants
      exact accounted.onUnified id secret (saved.trans wants)
    | none =>
      rw [saved, Option.none_or] at wants
      rcases accounted.onLegacy id secret wants with held | ⟨-, moved⟩
      · exact (reconciled id secret held).resolve_left (not_not_intro saved)
      · exact moved saved

end Saved

end Ancore.Vault
