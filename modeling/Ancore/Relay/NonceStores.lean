import Ancore.Relay.Requests

/-! # Nonce stores

The nonces seen, in the memory of the process for a time to live, or in the table
`used_nonces`. -/

namespace Ancore.Relay

/-- Milliseconds since the epoch. -/
abbrev Millis : Type := Int

/-- `seen` lists the entries of the nested maps with the time they expire at. -/
structure MemoryNonceStore where
  ttlMs : Millis
  seen : List ((String × Nonce) × Millis)

namespace MemoryNonceStore

def evictExpired (store : MemoryNonceStore) (key : String) (now : Millis) : MemoryNonceStore :=
  { store with seen := store.seen.filter fun entry => entry.1.1 ≠ key ∨ now ≤ entry.2 }

instance : LawfulBEq (String × Nonce) := inferInstance

def has (store : MemoryNonceStore) (key : String) (nonce : Nonce) : Bool :=
  decide ((key, nonce) ∈ store.seen.map Prod.fst)

def assertFresh (store : MemoryNonceStore) (key : String) (nonce : Nonce) (now : Millis) :
    Except Thrown Unit × MemoryNonceStore :=
  let store := store.evictExpired key now
  (if store.has key nonce then .error (.error "Nonce already used") else .ok (), store)

def track (store : MemoryNonceStore) (key : String) (nonce : Nonce) (now : Millis) :
    MemoryNonceStore :=
  let store := store.evictExpired key now
  { store with seen := ((key, nonce), now + store.ttlMs) ::
      store.seen.filter fun entry => entry.1 ≠ (key, nonce) }

end MemoryNonceStore

/-- `usedNonces` are the rows of the table, by its primary key. -/
structure PgNonceStore where
  usedNonces : Finset (String × Nonce)

namespace PgNonceStore

def assertFresh (store : PgNonceStore) (key : String) (nonce : Nonce) : Except Thrown Unit :=
  if (key, nonce) ∈ store.usedNonces then .error (.error "Nonce already used") else .ok ()

/-- `INSERT .. ON CONFLICT (account, nonce) DO NOTHING` -/
def track (store : PgNonceStore) (key : String) (nonce : Nonce) : PgNonceStore where
  usedNonces := insert (key, nonce) store.usedNonces

end PgNonceStore

inductive NonceStore where
  | memory (store : MemoryNonceStore)
  | postgres (store : PgNonceStore)

namespace NonceStore

def assertFresh (store : NonceStore) (key : String) (nonce : Nonce) (now : Millis) :
    Except Thrown Unit × NonceStore :=
  match store with
  | memory store =>
    let (fresh, store) := store.assertFresh key nonce now
    (fresh, memory store)
  | postgres store => (store.assertFresh key nonce, postgres store)

def track (store : NonceStore) (key : String) (nonce : Nonce) (now : Millis) : NonceStore :=
  match store with
  | memory store => memory (store.track key nonce now)
  | postgres store => postgres (store.track key nonce)

/-- The nonce is recorded, expired or not. -/
def Records (store : NonceStore) (replayKey : String × Nonce) : Prop :=
  match store with
  | memory store => replayKey ∈ store.seen.map Prod.fst
  | postgres store => replayKey ∈ store.usedNonces

instance (store : NonceStore) (replayKey : String × Nonce) : Decidable (store.Records replayKey) :=
  match store with
  | memory _ => inferInstanceAs (Decidable (_ ∈ List.map _ _))
  | postgres _ => inferInstanceAs (Decidable (_ ∈ (_ : Finset (String × Nonce))))

/-- Nothing recorded has outlived its time to live. -/
def Unexpired (store : NonceStore) (now : Millis) : Prop :=
  match store with
  | memory store => ∀ entry ∈ store.seen, now ≤ entry.2
  | postgres _ => True

instance (store : NonceStore) (now : Millis) : Decidable (store.Unexpired now) :=
  match store with
  | memory _ => inferInstanceAs (Decidable (∀ _ ∈ _, _))
  | postgres _ => isTrue trivial

end NonceStore

/-! ## What the operations record -/

section Operations

variable {key : String} {nonce : Nonce} {now : Millis} {replayKey : String × Nonce}

theorem MemoryNonceStore.evictExpired_eq_self {store : MemoryNonceStore}
    (unexpired : (NonceStore.memory store).Unexpired now) : store.evictExpired key now = store := by
  have kept : store.seen.filter (fun entry => entry.1.1 ≠ key ∨ now ≤ entry.2) = store.seen :=
    List.filter_eq_self.mpr fun entry member => by simp [unexpired entry member]
  rw [MemoryNonceStore.evictExpired, kept]

variable {store : NonceStore}

/-- Within the time to live a check leaves the store, and finds what is recorded. -/
theorem NonceStore.assertFresh_of_unexpired (unexpired : store.Unexpired now) :
    (store.assertFresh key nonce now).2 = store ∧
      ((store.assertFresh key nonce now).1 = .ok () ↔ ¬ store.Records (key, nonce)) := by
  cases store with
  | memory store =>
    simp only [NonceStore.assertFresh, MemoryNonceStore.assertFresh,
      MemoryNonceStore.evictExpired_eq_self unexpired, MemoryNonceStore.has, decide_eq_true_eq,
      NonceStore.Records, true_and]
    split_ifs with seen
    · simp [seen]
    · simp [seen]
  | postgres store =>
    simp only [NonceStore.assertFresh, PgNonceStore.assertFresh, NonceStore.Records, true_and]
    split_ifs with used
    · simp [used]
    · simp [used]

theorem NonceStore.records_track (unexpired : store.Unexpired now) :
    (store.track key nonce now).Records replayKey ↔
      replayKey = (key, nonce) ∨ store.Records replayKey := by
  cases store with
  | memory store =>
    simp only [NonceStore.track, MemoryNonceStore.track,
      MemoryNonceStore.evictExpired_eq_self unexpired, NonceStore.Records, List.map_cons,
      List.mem_cons]
    by_cases same : replayKey = (key, nonce)
    · simp [same]
    · simp [same]
  | postgres store =>
    simp only [NonceStore.track, PgNonceStore.track, NonceStore.Records, Finset.mem_insert]

end Operations

end Ancore.Relay
