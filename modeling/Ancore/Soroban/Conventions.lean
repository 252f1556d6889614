import Ancore.Soroban.Value

/-! # Arguments of contract functions

What the host makes of a value where a function of a contract expects a type: a
value of another type is refused.  An absent `Option` is void, a `Vec` is read item
by item, and a variant of an enumeration is a vector that starts with its name.
-/

namespace Ancore.Soroban

open Ancore.Library

/-- What succeeds for every item succeeds for a list of them. -/
theorem mapM_map {α β γ : Type} {read : γ → Option α} {write : β → γ} {value : β → α}
    (reads : ∀ item, read (write item) = some (value item)) (items : List β) :
    (items.map write).mapM read = some (items.map value) := by
  induction items with
  | nil => rfl
  | cons item items inductionHypothesis =>
    rw [List.map_cons, List.mapM_cons, reads, inductionHypothesis]
    rfl

namespace Val

variable {α β : Type}

def asU32 : Val → Option UInt32
  | .u32 value => some value
  | _ => none

def asU64 : Val → Option UInt64
  | .u64 value => some value
  | _ => none

def asI128 : Val → Option Int128
  | .i128 value => some value
  | _ => none

def asSymbol : Val → Option Symbol
  | .symbol value => some value
  | _ => none

def asAddress : Val → Option Address
  | .address value => some value
  | _ => none

def asBytes : Val → Option Bytes
  | .bytes value => some value
  | _ => none

/-- `BytesN<n>` -/
def asBytesN (n : Nat) : Val → Option (BytesN n)
  | .bytes value => if length : value.length = n then some ⟨value, length⟩ else none
  | _ => none

/-- `Vec<Val>` -/
def asItems : Val → Option (List Val)
  | .vec items => some items
  | _ => none

/-- `Vec<T>` -/
def asVec (read : Val → Option α) (value : Val) : Option (List α) :=
  value.asItems.bind (·.mapM read)

/-- `Option<T>` -/
def asOption (read : Val → Option α) : Val → Option (Option α)
  | .void => some none
  | value => (read value).map some

@[simp] theorem asBytesN_bytes {n : Nat} (value : BytesN n) :
    asBytesN n (.bytes value.val) = some value := by
  rw [asBytesN, dif_pos value.property]

/-- A vector that is written item by item is read item by item. -/
theorem asVec_map {read : Val → Option α} {write : β → Val} {value : β → α}
    (reads : ∀ item, read (write item) = some (value item)) (items : List β) :
    asVec read (.vec (items.map write)) = some (items.map value) :=
  mapM_map reads items

end Val

end Ancore.Soroban
