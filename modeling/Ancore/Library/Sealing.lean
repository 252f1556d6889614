import Mathlib.Logic.Basic

/-! # Texts sealed under passwords

Authenticated encryption under keys that are derived from a password and a salt.
A sound sealing derives distinct keys, and what is sealed opens under its own key
only.
-/

namespace Ancore.Library

/-- Sealing texts.  A nonce is what an encryption draws at random. -/
structure Sealing (Text : Type) where
  Salt : Type
  Key : Type
  Nonce : Type
  Box : Type
  derive : (password : String) → Salt → Key
  encrypt : Key → Nonce → Text → Box
  decrypt : Key → Box → Option Text

/-- What is assumed of the cryptography. -/
structure Sealing.Sound {Text : Type} (sealing : Sealing Text) : Prop where
  derive_inj : ∀ {password password' : String} {salt salt' : sealing.Salt},
    sealing.derive password salt = sealing.derive password' salt' →
      password = password' ∧ salt = salt'
  decrypt_encrypt : ∀ (key : sealing.Key) (nonce : sealing.Nonce) (text : Text),
    sealing.decrypt key (sealing.encrypt key nonce text) = some text
  decrypt_other : ∀ {key other : sealing.Key} (nonce : sealing.Nonce) (text : Text),
    other ≠ key → sealing.decrypt other (sealing.encrypt key nonce text) = none

/-- Boxes that name their key, and salts that are numbers. -/
@[reducible] def Sealing.symbolic (Text : Type) : Sealing Text where
  Salt := Nat
  Key := String × Nat
  Nonce := Unit
  Box := (String × Nat) × Text
  derive := Prod.mk
  encrypt key _ text := (key, text)
  decrypt key box := if box.1 = key then some box.2 else none

theorem Sealing.symbolic_sound (Text : Type) : (Sealing.symbolic Text).Sound where
  derive_inj same := Prod.mk.inj same
  decrypt_encrypt _ _ _ := if_pos rfl
  decrypt_other _ _ different := if_neg (Ne.symm different)

end Ancore.Library
