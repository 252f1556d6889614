import Ancore.Library.Outline
import Ancore.Library.Solo

/-! # The keychain of the mobile wallet

`KeychainSecureStoreAdapter` keeps each secret in an entry of its own, and the keys of the
secrets in one more entry, by which `clear` finds them.  The list of the keys is read and
written in two calls, after the secret itself was stored or removed; other calls go on in
between, and each of them may fail or be the last one that is made.
-/

namespace Ancore.Mobile.Keychain

open Ancore.Library

/-- `KEY_INDEX` -/
def keyIndex : String := "__keys__"

/-- What an entry holds: the value that a caller stores, or `JSON.stringify` of the keys. -/
inductive Password where
  | text (value : String)
  | keys (keys : List String)

/-- The entries, by their services. -/
abbrev Entries : Type := String → Option Password

inductive Call where
  | getGenericPassword (service : String)
  | setGenericPassword (service : String) (password : Password)
  | resetGenericPassword (service : String)
  /-- A call of `set` returns to its caller. -/
  | returned (key value : String)

inductive KeychainError where
  | failed

@[reducible] def Answer : Call → Type
  | .getGenericPassword _ => Except KeychainError (Option Password)
  | .setGenericPassword _ _ => Except KeychainError Unit
  | .resetGenericPassword _ => Except KeychainError Unit
  | .returned _ _ => Unit

abbrev Async : Type → Type := ExceptT KeychainError (Program Answer)

/-! ## The adapter -/

structure KeychainSecureStoreAdapter where
  bundleId : String
  /-- The keys that `readIndex` makes of a text: none where it is no JSON of an array. -/
  parse : String → List String
  /-- `JSON.stringify` -/
  stringify : List String → String

namespace KeychainSecureStoreAdapter

variable (adapter : KeychainSecureStoreAdapter)

def serviceFor (key : String) : String := adapter.bundleId ++ "." ++ key

/-- The service of the entry that holds the keys. -/
def indexService : String := adapter.serviceFor keyIndex

/-- What `readIndex` makes of an entry. -/
def keysOf : Option Password → List String
  | none => []
  | some (.text value) => adapter.parse value
  | some (.keys keys) => keys

def textOf : Password → String
  | .text value => value
  | .keys keys => adapter.stringify keys

def get (key : String) : Async (Option String) := do
  let result ← ExceptT.mk (.call (.getGenericPassword (adapter.serviceFor key)) .done)
  pure (result.map adapter.textOf)

def readIndex : Async (List String) := do
  let result ← ExceptT.mk (.call (.getGenericPassword adapter.indexService) .done)
  pure (adapter.keysOf result)

def writeIndex (keys : List String) : Async Unit :=
  ExceptT.mk (.call (.setGenericPassword adapter.indexService (.keys keys)) .done)

def indexAdd (key : String) : Async Unit := do
  let keys ← adapter.readIndex
  if key ∈ keys then pure () else adapter.writeIndex (keys ++ [key])

def indexRemove (key : String) : Async Unit := do
  let keys ← adapter.readIndex
  let next := keys.filter (· ≠ key)
  if next.length ≠ keys.length then adapter.writeIndex next else pure ()

def set (key value : String) : Async Unit := do
  ExceptT.mk (.call (.setGenericPassword (adapter.serviceFor key) (.text value)) .done)
  adapter.indexAdd key

def reset (service : String) : Async Unit :=
  ExceptT.mk (.call (.resetGenericPassword service) .done)

def delete (key : String) : Async Unit := do
  reset (adapter.serviceFor key)
  adapter.indexRemove key

/-- The removals of `clear`: all of them are made, and one that fails makes `clear` fail. -/
def resetAll : List String → Async Unit
  | [] => pure ()
  | key :: keys => do
    let result ← ExceptT.lift (reset (adapter.serviceFor key)).run
    resetAll keys
    ExceptT.mk (pure result)

def clear : Async Unit := do
  let keys ← adapter.readIndex
  adapter.resetAll keys
  reset adapter.indexService

end KeychainSecureStoreAdapter

/-! ## Calls of an adapter -/

inductive Task where
  | get (key : String)
  | set (key value : String)
  | delete (key : String)

def run (adapter : KeychainSecureStoreAdapter) : Task → Program Answer Unit
  | .get key => do
    let _ ← (adapter.get key).run
    pure ()
  | .set key value => do
    match ← (adapter.set key value).run with
    | .ok () => .call (.returned key value) .done
    | .error _ => pure ()
  | .delete key => do
    let _ ← (adapter.delete key).run
    pure ()

/-- When a call to the keychain fails, against its being carried out. -/
inductive Fault where
  | before
  | after
  deriving DecidableEq

/-- Whether a call fails. -/
abbrev Circumstance : Type := Option Fault

def outcome {α : Type} (circumstance : Circumstance) (value : α) : Except KeychainError α :=
  if circumstance = none then .ok value else .error .failed

/-- The entry that a call changes, and what it then holds. -/
def change : Call → Option (String × Option Password)
  | .getGenericPassword _ => none
  | .setGenericPassword service password => some (service, some password)
  | .resetGenericPassword service => some (service, none)
  | .returned _ _ => none

def carryOut (call : Call) (circumstance : Circumstance) (entries : Entries) : Entries :=
  match change call with
  | none => entries
  | some (service, content) =>
    if circumstance = some .before then entries else Function.update entries service content

def perform (call : Call) (circumstance : Circumstance) (entries : Entries) :
    Answer call × Entries :=
  match call with
  | .getGenericPassword service => (outcome circumstance (entries service), entries)
  | .setGenericPassword service password =>
    (outcome circumstance (), carryOut (.setGenericPassword service password) circumstance entries)
  | .resetGenericPassword service =>
    (outcome circumstance (), carryOut (.resetGenericPassword service) circumstance entries)
  | .returned _ _ => ((), entries)

abbrev KeychainExchange (Worker : Type) : Type := Exchange Worker Circumstance Entries Answer

abbrev KeychainWorld (Worker : Type) : Type := World Worker Circumstance Entries Answer

section Runs

variable {Worker : Type} [DecidableEq Worker]

/-- A run of calls of the adapter over a keychain that is empty at first. -/
def reached (adapter : KeychainSecureStoreAdapter)
    (turns : List (Turn Worker Task Circumstance)) : KeychainWorld Worker :=
  (interleaved (fun _ => perform) (run adapter) (fun _ => none) turns).world

end Runs

/-! ## What the calls make of the entries -/

section Exchanges

variable {Worker : Type} (adapter : KeychainSecureStoreAdapter)

/-- What a call that is carried out makes of an entry. -/
def wrote (service : String) (exchange : KeychainExchange Worker) : Option (Option Password) :=
  match change exchange.request with
  | none => none
  | some (changed, content) =>
    if exchange.circumstance = some .before ∨ changed ≠ service then none else some content

/-- The keys that `clear` would find. -/
def listed (entries : Entries) : List String := adapter.keysOf (entries adapter.indexService)

/-- A call after which the key is listed, as it found or as it left the list. -/
def Indexes (key : String) (exchange : KeychainExchange Worker) : Prop :=
  (exchange.request = .getGenericPassword adapter.indexService ∧ exchange.circumstance = none ∧
      key ∈ listed adapter exchange.found) ∨
    ∃ keys, exchange.request = .setGenericPassword adapter.indexService (.keys keys) ∧
      exchange.circumstance ≠ some .before ∧ key ∈ keys

/-- The entry of a key holds what this call stored. -/
structure StoredLast (log : List (KeychainExchange Worker)) (key : String)
    (later : List (KeychainExchange Worker)) (storing : KeychainExchange Worker)
    (earlier : List (KeychainExchange Worker)) : Prop where
  located : log = later ++ storing :: earlier
  stores : ∃ password, wrote (adapter.serviceFor key) storing = some (some password)
  kept : ∀ exchange ∈ later, wrote (adapter.serviceFor key) exchange = none

/-- What a call of `set` has done when it returns. -/
structure SetBefore (worker : Worker) (key value : String)
    (log mid : List (KeychainExchange Worker)) (storing : KeychainExchange Worker)
    (before : List (KeychainExchange Worker)) : Prop where
  located : log = mid ++ storing :: before
  own : storing.worker = worker
  stores : storing.request = .setGenericPassword (adapter.serviceFor key) (.text value)
  succeeded : storing.circumstance = none
  last : ∀ exchange ∈ mid, exchange.worker = worker →
    ∀ service value, exchange.request ≠ .setGenericPassword service (.text value)

variable {adapter} {worker : Worker} {call : Call} {circumstance : Circumstance}
  {world : KeychainWorld Worker} {key value : String}

theorem state_after (service : String) :
    (world.after (fun _ => perform) worker call circumstance).state service =
      (wrote service (world.exchange (fun _ => perform) worker call circumstance)).getD
        (world.state service) := by
  have state : (world.after (fun _ => perform) worker call circumstance).state =
      carryOut call circumstance world.state := by cases call <;> rfl
  rw [state, carryOut, wrote]
  change _ = Option.getD (match change call with
    | none => none
    | some (changed, content) =>
      if circumstance = some .before ∨ changed ≠ service then none else some content) _
  cases change call with
  | none => rfl
  | some changed =>
    obtain ⟨changed, content⟩ := changed
    dsimp only
    by_cases fails : circumstance = some .before
    · rw [if_pos fails, if_pos (.inl fails)]
      rfl
    · rw [if_neg fails]
      by_cases same : changed = service
      · rw [if_neg (by simp [fails, same]), same, Function.update_self]
        rfl
      · rw [if_pos (.inr same), Function.update_of_ne (Ne.symm same)]
        rfl

theorem state_after_of_unwritten {service : String}
    (unwritten : wrote service (world.exchange (fun _ => perform) worker call circumstance) =
      none) :
    (world.after (fun _ => perform) worker call circumstance).state service =
      world.state service := by
  rw [state_after, unwritten]
  rfl

theorem serviceFor_injective : Function.Injective adapter.serviceFor := by
  intro key key' same
  have texts := congrArg String.toList same
  simp only [KeychainSecureStoreAdapter.serviceFor, String.toList_append] at texts
  exact String.toList_injective (List.append_cancel_left texts)

end Exchanges

/-! ## The stages of a call -/

inductive Stage where
  | idle
  | stored (key value : String)
  | adding (key value : String)
  | indexed (key value : String)

/-- From a stage, the calls and where they lead.  Only `set` has stages: of the others, and of a
`set` that failed, no return is told. -/
inductive Stage.Next (adapter : KeychainSecureStoreAdapter) : Outline Stage Answer
  | reads {service answer} : Next adapter idle (.getGenericPassword service) answer idle
  | removes {service answer} : Next adapter idle (.resetGenericPassword service) answer idle
  | writes {keys answer} :
      Next adapter idle (.setGenericPassword adapter.indexService (.keys keys)) answer idle
  | stores {key value} :
      Next adapter idle (.setGenericPassword (adapter.serviceFor key) (.text value)) (.ok ())
        (stored key value)
  | fails {key value error} :
      Next adapter idle (.setGenericPassword (adapter.serviceFor key) (.text value))
        (.error error) idle
  | listed {key value password} (member : key ∈ adapter.keysOf password) :
      Next adapter (stored key value) (.getGenericPassword adapter.indexService) (.ok password)
        (indexed key value)
  | unlisted {key value password} :
      Next adapter (stored key value) (.getGenericPassword adapter.indexService) (.ok password)
        (adding key value)
  | unread {key value error} :
      Next adapter (stored key value) (.getGenericPassword adapter.indexService) (.error error)
        idle
  | added {key value keys} (member : key ∈ keys) :
      Next adapter (adding key value) (.setGenericPassword adapter.indexService (.keys keys))
        (.ok ()) (indexed key value)
  | unadded {key value keys error} :
      Next adapter (adding key value) (.setGenericPassword adapter.indexService (.keys keys))
        (.error error) idle
  | returned {key value} : Next adapter (indexed key value) (.returned key value) () idle

def Stage.Rests (stage : Stage) : Prop := stage = .idle

section Tracking

variable {adapter : KeychainSecureStoreAdapter}

/-- Reading the list, from a stage that goes on from every answer. -/
theorem readIndex_tracks {returns : List String → Stage → Prop} {stage : Stage}
    (found : ∀ password, ∃ onward,
      Stage.Next adapter stage (.getGenericPassword adapter.indexService) (.ok password) onward ∧
        returns (adapter.keysOf password) onward)
    (unread : ∀ error, Stage.Next adapter stage (.getGenericPassword adapter.indexService)
      (.error error) .idle) :
    Tracks (Stage.Next adapter) returns Stage.Rests adapter.readIndex stage := by
  intro answer
  cases answer with
  | error error => exact ⟨_, unread error, rfl⟩
  | ok password =>
    obtain ⟨onward, made, ended⟩ := found password
    exact ⟨onward, made, ended⟩

theorem writeIndex_tracks (keys : List String) :
    Tracks (Stage.Next adapter) (fun _ => Stage.Rests) Stage.Rests (adapter.writeIndex keys)
      .idle := by
  intro answer
  cases answer with
  | error error => exact ⟨_, .writes, rfl⟩
  | ok _ => exact ⟨_, .writes, rfl⟩

theorem indexAdd_tracks (key value : String) :
    Tracks (Stage.Next adapter) (fun _ stage => stage = .indexed key value) Stage.Rests
      (adapter.indexAdd key) (.stored key value) := by
  have reads : Tracks (Stage.Next adapter) (fun keys stage =>
      stage = if key ∈ keys then .indexed key value else .adding key value) Stage.Rests
      adapter.readIndex (.stored key value) := by
    refine readIndex_tracks (fun password => ?_) fun _ => .unread
    by_cases member : key ∈ adapter.keysOf password
    · exact ⟨_, .listed member, (if_pos member).symm⟩
    · exact ⟨_, .unlisted, (if_neg member).symm⟩
  refine reads.bind ?_
  rintro keys _ rfl
  by_cases member : key ∈ keys
  · rw [if_pos member, if_pos member]
    exact Tracks.pure rfl
  · rw [if_neg member, if_neg member]
    intro answer
    cases answer with
    | error error => exact ⟨_, .unadded, rfl⟩
    | ok _ => exact ⟨_, .added (by simp), rfl⟩

theorem set_tracks (key value : String) :
    Tracks (Stage.Next adapter) (fun _ stage => stage = .indexed key value) Stage.Rests
      (adapter.set key value) .idle := by
  intro answer
  cases answer with
  | error error => exact ⟨_, .fails, rfl⟩
  | ok _ => exact ⟨_, .stores, indexAdd_tracks key value⟩

theorem delete_tracks (key : String) :
    Tracks (Stage.Next adapter) (fun _ => Stage.Rests) Stage.Rests (adapter.delete key) .idle := by
  have removes : Tracks (Stage.Next adapter) (fun _ => Stage.Rests) Stage.Rests
      (adapter.indexRemove key) .idle := by
    have reads : Tracks (Stage.Next adapter) (fun _ => Stage.Rests) Stage.Rests
        adapter.readIndex .idle :=
      readIndex_tracks (fun password => ⟨_, .reads, rfl⟩) fun _ => .reads
    refine reads.bind ?_
    rintro keys _ rfl
    dsimp only
    split
    · exact writeIndex_tracks _
    · exact Tracks.pure rfl
  intro answer
  cases answer with
  | error error => exact ⟨_, .removes, rfl⟩
  | ok _ => exact ⟨_, .removes, removes⟩

theorem run_follows (task : Task) (stage : Stage) (rests : stage.Rests) :
    (run adapter task).Follows (Stage.Next adapter) (fun _ => Stage.Rests) stage := by
  cases rests
  cases task with
  | get key =>
    intro answer
    cases answer with
    | error error => exact ⟨_, .reads, rfl⟩
    | ok _ => exact ⟨_, .reads, rfl⟩
  | set key value =>
    refine Program.Follows.bind (Program.Follows.mono (set_tracks key value) ?_)
    intro result stage ended
    cases result with
    | error error => exact ended
    | ok _ =>
      rintro ⟨⟩
      cases ended
      exact ⟨_, .returned, rfl⟩
  | delete key =>
    refine Program.Follows.bind (Program.Follows.mono (delete_tracks key) ?_)
    intro result stage ended
    cases result with
    | error error => exact ended
    | ok _ => exact ended

end Tracking

/-! ## What holds of every run -/

section Laws

variable {Worker : Type} (adapter : KeychainSecureStoreAdapter)

/-- A call that does not spoil the list: no caller stores or removes an entry under the key of the
list, and a list that is written leaves out no listed key that still has an entry. -/
def Spares (exchange : KeychainExchange Worker) (_ : List (KeychainExchange Worker)) : Prop :=
  match exchange.request with
  | .setGenericPassword service (.text _) => service ≠ adapter.indexService
  | .resetGenericPassword service => service ≠ adapter.indexService
  | .setGenericPassword _ (.keys keys) =>
    exchange.circumstance = some .before ∨ ∀ key ∈ listed adapter exchange.found,
      exchange.found (adapter.serviceFor key) = none ∨ key ∈ keys
  | _ => True

/-- What the entries and the calls so far have to do with each other. -/
structure Consistent (world : KeychainWorld Worker) : Prop where
  latest : ∀ service,
    world.state service = (world.exchanges.findSome? (wrote service)).getD none
  lists : ∀ key later storing earlier, key ≠ keyIndex →
    StoredLast adapter world.exchanges key later storing earlier →
    (key ∈ listed adapter storing.found ∨ ∃ exchange ∈ later, Indexes adapter key exchange) →
      key ∈ listed adapter world.state
  keys : ∀ exchange ∈ world.exchanges, ∀ service keys,
    exchange.request = .setGenericPassword service (.keys keys) → service = adapter.indexService
  returned : ∀ later completion earlier key value,
    world.exchanges = later ++ completion :: earlier →
    completion.request = .returned key value → ∃ mid storing before,
      SetBefore adapter completion.worker key value earlier mid storing before ∧
        ∃ exchange ∈ mid, Indexes adapter key exchange

/-- What a worker has done at a stage. -/
def AtStage (worker : Worker) (stage : Stage) (world : KeychainWorld Worker) : Prop :=
  match stage with
  | .idle => True
  | .stored key value => ∃ mid storing before,
    SetBefore adapter worker key value world.exchanges mid storing before
  | .adding key value => ∃ mid storing before,
    SetBefore adapter worker key value world.exchanges mid storing before
  | .indexed key value => ∃ mid storing before,
    SetBefore adapter worker key value world.exchanges mid storing before ∧
      ∃ exchange ∈ mid, Indexes adapter key exchange

variable {adapter} {worker other : Worker} {call : Call} {circumstance : Circumstance}
  {world : KeychainWorld Worker} {key value : String}
  {mid before : List (KeychainExchange Worker)} {storing : KeychainExchange Worker}

theorem SetBefore.cons {log : List (KeychainExchange Worker)}
    (done : SetBefore adapter worker key value log mid storing before)
    {exchange : KeychainExchange Worker}
    (harmless : exchange.worker = worker →
      ∀ service value, exchange.request ≠ .setGenericPassword service (.text value)) :
    SetBefore adapter worker key value (exchange :: log) (exchange :: mid) storing before where
  located := by rw [done.located, List.cons_append]
  own := done.own
  stores := done.stores
  succeeded := done.succeeded
  last := List.forall_mem_cons.mpr ⟨harmless, done.last⟩

/-- A call of another worker changes nothing of what a worker has done. -/
theorem AtStage.after_other (different : other ≠ worker) {stage : Stage}
    (atStage : AtStage adapter other stage world) :
    AtStage adapter other stage (world.after (fun _ => perform) worker call circumstance) := by
  cases stage with
  | idle => trivial
  | stored key value =>
    obtain ⟨mid, storing, before, done⟩ := atStage
    exact ⟨_, _, _, done.cons fun same => absurd same.symm different⟩
  | adding key value =>
    obtain ⟨mid, storing, before, done⟩ := atStage
    exact ⟨_, _, _, done.cons fun same => absurd same.symm different⟩
  | indexed key value =>
    obtain ⟨mid, storing, before, done, exchange, member, indexes⟩ := atStage
    exact ⟨_, _, _, done.cons fun same => absurd same.symm different, exchange,
      List.mem_cons_of_mem _ member, indexes⟩

theorem outcome_eq_ok {α : Type} {value result : α} (ok : outcome circumstance value = .ok result) :
    circumstance = none ∧ value = result := by
  rw [outcome] at ok
  split at ok
  · rename_i calm
    exact ⟨calm, Except.ok.inj ok⟩
  · cases ok

/-- A call of its own carries a worker to its next stage. -/
theorem AtStage.after_own {stage onward : Stage} (atStage : AtStage adapter worker stage world)
    (made : Stage.Next adapter stage call (perform call circumstance world.state).1 onward) :
    AtStage adapter worker onward (world.after (fun _ => perform) worker call circumstance) := by
  generalize answered : (perform call circumstance world.state).1 = answer at made
  cases made with
  | reads => trivial
  | removes => trivial
  | writes => trivial
  | fails => trivial
  | unread => trivial
  | unadded => trivial
  | returned => trivial
  | stores =>
    obtain ⟨calm, -⟩ := outcome_eq_ok answered
    exact ⟨[], _, _, rfl, rfl, rfl, calm, List.forall_mem_nil _⟩
  | unlisted =>
    obtain ⟨mid, storing, before, done⟩ := atStage
    exact ⟨_, _, _, done.cons nofun⟩
  | listed member =>
    obtain ⟨mid, storing, before, done⟩ := atStage
    obtain ⟨calm, found⟩ := outcome_eq_ok answered
    subst found
    exact ⟨_, _, _, done.cons nofun, _, List.mem_cons_self, .inl ⟨rfl, calm, member⟩⟩
  | added member =>
    obtain ⟨mid, storing, before, done⟩ := atStage
    obtain ⟨calm, -⟩ := outcome_eq_ok answered
    subst calm
    exact ⟨_, _, _, done.cons nofun, _, List.mem_cons_self, .inr ⟨_, rfl, nofun, member⟩⟩

theorem wrote_eq_some {exchange : KeychainExchange Worker} {service : String}
    {content : Option Password} (written : wrote service exchange = some content) :
    change exchange.request = some (service, content) ∧ exchange.circumstance ≠ some .before := by
  rw [wrote] at written
  split at written
  · cases written
  · rename_i changed content' changes
    split at written
    · cases written
    · rename_i carried
      push Not at carried
      cases written
      rw [changes, carried.2]
      exact ⟨rfl, carried.1⟩

/-- What a call makes of the list: it stays, or is written with all listed keys that have an
entry. -/
theorem listed_after
    (spares : Spares adapter (world.exchange (fun _ => perform) worker call circumstance)
      world.exchanges) (present : key ∈ listed adapter world.state)
    (entry : world.state (adapter.serviceFor key) ≠ none) :
    key ∈ listed adapter (world.after (fun _ => perform) worker call circumstance).state := by
  rw [listed, state_after]
  cases written : wrote adapter.indexService
      (world.exchange (fun _ => perform) worker call circumstance) with
  | none => exact present
  | some content =>
    obtain ⟨changes, carried⟩ := wrote_eq_some written
    cases call with
    | getGenericPassword service => cases changes
    | returned key value => cases changes
    | resetGenericPassword service =>
      cases changes
      exact absurd rfl spares
    | setGenericPassword service password =>
      cases changes
      cases password with
      | text value => exact absurd rfl spares
      | keys keys => exact ((spares.resolve_left carried) key present).resolve_left entry

theorem listed_of_indexes
    (indexes : Indexes adapter key (world.exchange (fun _ => perform) worker call circumstance)) :
    key ∈ listed adapter (world.after (fun _ => perform) worker call circumstance).state := by
  rw [listed, state_after]
  rcases indexes with ⟨reads, -, found⟩ | ⟨keys, writes, carried, member⟩
  · cases reads
    exact found
  · cases writes
    have written : wrote adapter.indexService (world.exchange (fun _ => perform) worker
        (.setGenericPassword adapter.indexService (.keys keys)) circumstance) =
        some (some (.keys keys)) :=
      if_neg (by rintro (failed | other); exacts [carried failed, other rfl])
    rw [written]
    exact member

/-- The entry of a key that was stored last is there. -/
theorem StoredLast.present {later earlier : List (KeychainExchange Worker)}
    (last : StoredLast adapter world.exchanges key later storing earlier)
    (consistent : Consistent adapter world) : world.state (adapter.serviceFor key) ≠ none := by
  obtain ⟨password, stores⟩ := last.stores
  rw [consistent.latest, last.located, List.findSome?_append,
    List.findSome?_eq_none_iff.mpr last.kept, Option.none_or, List.findSome?_cons_of_isSome]
  · simp [stores]
  · simp [stores]

theorem Consistent.after (consistent : Consistent adapter world) {stage onward : Stage}
    (atStage : AtStage adapter worker stage world)
    (made : Stage.Next adapter stage call (perform call circumstance world.state).1 onward)
    (spares : Spares adapter (world.exchange (fun _ => perform) worker call circumstance)
      world.exchanges) :
    Consistent adapter (world.after (fun _ => perform) worker call circumstance) where
  latest := by
    intro service
    rw [state_after]
    change _ = (List.findSome? _ (_ :: _)).getD none
    rw [List.findSome?_cons]
    cases wrote service (world.exchange (fun _ => perform) worker call circumstance) with
    | none => exact consistent.latest service
    | some content => rfl
  lists := by
    rintro key later storing earlier secret ⟨located, ⟨password, stores⟩, kept⟩ since
    have apart : adapter.serviceFor key ≠ adapter.indexService :=
      fun same => secret (serviceFor_injective same)
    cases later with
    | nil =>
      obtain ⟨rfl, rest⟩ := List.cons.inj located
      have already := since.resolve_right (by simp)
      rw [listed, state_after_of_unwritten]
      · exact already
      · cases written : wrote adapter.indexService
            (world.exchange (fun _ => perform) worker call circumstance) with
        | none => rfl
        | some content =>
          have same := (wrote_eq_some stores).1.symm.trans (wrote_eq_some written).1
          exact absurd (congrArg Prod.fst (Option.some.inj same)) apart
    | cons exchange later =>
      obtain ⟨rfl, rest⟩ := List.cons.inj located
      obtain ⟨unwritten, kept⟩ := List.forall_mem_cons.mp kept
      have last : StoredLast adapter world.exchanges key later storing earlier :=
        ⟨rest, ⟨password, stores⟩, kept⟩
      rcases since with found | ⟨exchange, member, indexes⟩
      · exact listed_after spares
          (consistent.lists key later storing earlier secret last (.inl found))
          (last.present consistent)
      · rcases List.mem_cons.mp member with rfl | before
        · exact listed_of_indexes indexes
        · exact listed_after spares
            (consistent.lists key later storing earlier secret last (.inr ⟨_, before, indexes⟩))
            (last.present consistent)
  keys := by
    refine List.forall_mem_cons.mpr ⟨?_, consistent.keys⟩
    rintro service keys ⟨⟩
    generalize answered : (perform (.setGenericPassword service (.keys keys)) circumstance
      world.state).1 = answer at made
    cases made with
    | writes => rfl
    | added _ => rfl
    | unadded => rfl
  returned := by
    intro later completion earlier key value located returns
    cases later with
    | nil =>
      obtain ⟨rfl, rfl⟩ := List.cons.inj located
      cases returns
      generalize answered : (perform (.returned key value) circumstance world.state).1 = answer
        at made
      cases made
      exact atStage
    | cons exchange later =>
      obtain ⟨rfl, rest⟩ := List.cons.inj located
      exact consistent.returned later completion earlier key value rest returns

end Laws

/-! ## Runs -/

section Runs

variable {Worker : Type} [DecidableEq Worker] {adapter : KeychainSecureStoreAdapter}

theorem consistent_reached {turns : List (Turn Worker Task Circumstance)}
    (spares : Historically (Spares adapter) (reached adapter turns).exchanges) :
    Consistent adapter (reached adapter turns) := by
  have step : OutlineStep (fun _ : Worker => perform) (Stage.Next adapter) (Spares adapter)
      (Consistent adapter) (AtStage adapter) := by
    intro worker stage call circumstance onward world consistent atStage made spares
    exact ⟨consistent.after atStage made spares, atStage.after_own made,
      fun other different stage held => held.after_other different⟩
  have initial : Consistent adapter
      ({ state := fun _ => none, exchanges := [] } : KeychainWorld Worker) := by
    refine ⟨fun _ => rfl, ?_, List.forall_mem_nil _, ?_⟩
    · rintro key later storing earlier - ⟨located, -, -⟩
      cases later <;> cases located
    · intro later completion earlier key value located
      cases later <;> cases located
  exact (invariant_of_outline run_follows step initial (fun worker => ⟨.idle, rfl, trivial⟩) turns
    spares).1

end Runs

/-! ## Wiping -/

section Wiping

variable {Worker : Type} (adapter : KeychainSecureStoreAdapter)

/-- Whenever `clear` runs alone and succeeds, nothing is read under any key after it. -/
def Wiped (entries : Entries) : Prop :=
  ∀ circumstances after rest,
    adapter.clear.run.alone perform none (entries, circumstances) = (.ok (), after, rest) →
      ∀ key further result,
        ((adapter.get key).run.alone perform none (after, further)).1 = .ok result → result = none

/-- Under the key only this value is read. -/
def Reads (entries : Entries) (key value : String) : Prop :=
  ∀ further result,
    ((adapter.get key).run.alone perform none (entries, further)).1 = .ok result →
      result = some value

/-- The value of the call of `set` that returned last is read, if no removal of the key was tried
since it stored the value. -/
def Kept (world : KeychainWorld Worker) : Prop :=
  ∀ later completion earlier key value, world.exchanges = later ++ completion :: earlier →
    completion.request = .returned key value →
    (∀ exchange ∈ later, ∀ value, exchange.request ≠ .returned key value) →
    ∃ mid storing before,
      SetBefore adapter completion.worker key value earlier mid storing before ∧
        ((∀ exchange ∈ later ++ mid,
            exchange.request ≠ .resetGenericPassword (adapter.serviceFor key)) →
          Reads adapter world.state key value)

/-- The secrets that are left were stored by calls of `set` that returned, or are listed all the
same: their keys were listed when they were stored, or a call found or wrote them since. -/
def NoneAbandoned (log : List (KeychainExchange Worker)) : Prop :=
  ∀ key later storing earlier, key ≠ keyIndex →
    StoredLast adapter log key later storing earlier →
      (∃ exchange ∈ later, exchange.worker = storing.worker ∧
          ∃ value, exchange.request = .returned key value) ∨
        key ∈ listed adapter storing.found ∨ ∃ exchange ∈ later, Indexes adapter key exchange

/-- Since the call of `set` that returned last stored its value, no other one has stored a value
under the key. -/
def InOrder (log : List (KeychainExchange Worker)) : Prop :=
  ∀ later completion earlier key value mid storing before, log = later ++ completion :: earlier →
    completion.request = .returned key value →
    (∀ exchange ∈ later, ∀ value, exchange.request ≠ .returned key value) →
    SetBefore adapter completion.worker key value earlier mid storing before →
      ∀ exchange ∈ later ++ mid, ∀ value,
        exchange.request = .setGenericPassword (adapter.serviceFor key) (.text value) →
          exchange.circumstance = some .before

variable {adapter} {entries : Entries} {key value : String} {circumstance : Circumstance}

theorem get_always (key : String) :
    (adapter.get key).run.Always perform (fun _ => True) (fun result after => after = entries ∧
      ∀ found, result = .ok found →
        found = (entries (adapter.serviceFor key)).map adapter.textOf) entries := by
  intro circumstance _
  rw [perform]
  cases answered : outcome circumstance (entries (adapter.serviceFor key)) with
  | error error => exact ⟨rfl, nofun⟩
  | ok content =>
    obtain ⟨-, rfl⟩ := outcome_eq_ok answered
    refine ⟨rfl, ?_⟩
    rintro found ⟨⟩
    rfl

theorem reads_of_alone {further : List Circumstance} {found : Option String}
    (read : ((adapter.get key).run.alone perform none (entries, further)).1 = .ok found) :
    found = (entries (adapter.serviceFor key)).map adapter.textOf :=
  (Program.alone_of_always (get_always key) (fun _ _ => trivial) trivial).2 found read

/-- No removal brings an entry back, and one that succeeds is carried out. -/
theorem reset_always (service : String) :
    (KeychainSecureStoreAdapter.reset service).run.Always perform (fun _ => True)
      (fun result after => (∀ other, entries other = none → after other = none) ∧
        (result = .ok () → after service = none)) entries := by
  intro circumstance _
  refine ⟨fun other absent => ?_, fun succeeded => ?_⟩
  · change carryOut (.resetGenericPassword service) circumstance entries other = none
    rw [carryOut]
    dsimp only [change]
    split
    · exact absent
    · rw [Function.update_apply, absent, ite_self]
  · obtain ⟨rfl, -⟩ := outcome_eq_ok succeeded
    exact Function.update_self ..

theorem resetAll_always (keys : List String) :
    (adapter.resetAll keys).run.Always perform (fun _ => True)
      (fun result after => (∀ service, entries service = none → after service = none) ∧
        (result = .ok () → ∀ key ∈ keys, after (adapter.serviceFor key) = none)) entries := by
  induction keys generalizing entries with
  | nil => exact ⟨fun _ absent => absent, fun _ => List.forall_mem_nil _⟩
  | cons key keys inductionHypothesis =>
    refine Program.always_bindExcept ?_
    refine Program.always_bind (Program.always_mono (reset_always _) ?_)
    rintro first between ⟨absent, removed⟩
    refine Program.always_bindExcept (Program.always_mono inductionHypothesis ?_)
    rintro result after ⟨absent', removed'⟩
    have gone : ∀ service, entries service = none → after service = none :=
      fun service none => absent' service (absent service none)
    cases result with
    | error error => exact ⟨gone, nofun⟩
    | ok _ =>
      refine ⟨gone, fun succeeded => List.forall_mem_cons.mpr ⟨?_, removed' rfl⟩⟩
      exact absent' _ (removed succeeded)

/-- What `clear` is to find: each key with an entry, besides its own, is listed. -/
def Complete (adapter : KeychainSecureStoreAdapter) (entries : Entries) : Prop :=
  ∀ key, key ≠ keyIndex → entries (adapter.serviceFor key) ≠ none → key ∈ listed adapter entries

theorem clear_always (complete : Complete adapter entries) :
    adapter.clear.run.Always perform (fun _ => True) (fun result after =>
      result = .ok () → ∀ key, after (adapter.serviceFor key) = none) entries := by
  have read : adapter.readIndex.run.Always perform (fun _ => True) (fun result after =>
      after = entries ∧ ∀ keys, result = .ok keys → keys = listed adapter entries) entries := by
    intro circumstance _
    rw [perform]
    cases answered : outcome circumstance (entries adapter.indexService) with
    | error error => exact ⟨rfl, nofun⟩
    | ok content =>
      obtain ⟨-, rfl⟩ := outcome_eq_ok answered
      refine ⟨rfl, ?_⟩
      rintro keys ⟨⟩
      rfl
  refine Program.always_bindExcept (Program.always_mono read ?_)
  rintro result start ⟨rfl, found⟩
  cases result with
  | error error => exact nofun
  | ok keys =>
    obtain rfl := found keys rfl
    refine Program.always_bindExcept (Program.always_mono (resetAll_always _) ?_)
    rintro result between ⟨absent, removed⟩
    cases result with
    | error error => exact nofun
    | ok _ =>
      refine Program.always_mono (reset_always _) ?_
      rintro result after ⟨absent', removed'⟩ succeeded key
      by_cases index : key = keyIndex
      · exact index ▸ removed' succeeded
      · refine absent' _ ?_
        rcases Option.eq_none_or_eq_some (start (adapter.serviceFor key)) with none | ⟨_, entry⟩
        · exact absent _ none
        · exact removed rfl key (complete key index (by rw [entry]; nofun))

theorem cleared_of_alone (complete : Complete adapter entries) (circumstances : List Circumstance) :
    (adapter.clear.run.alone perform none (entries, circumstances)).1 = .ok () →
      ∀ key, (adapter.clear.run.alone perform none (entries, circumstances)).2.1
        (adapter.serviceFor key) = none :=
  Program.alone_of_always (clear_always complete) (fun _ _ => trivial) trivial

theorem wiped_of_complete (complete : Complete adapter entries) : Wiped adapter entries := by
  intro circumstances after rest cleared key further result read
  have gone := cleared_of_alone complete circumstances
  rw [cleared] at gone
  have none : after (adapter.serviceFor key) = none := gone rfl key
  rw [reads_of_alone read, none]
  rfl

end Wiping

/-! ## What is kept, and what is listed -/

section Secrets

variable {Worker : Type} {adapter : KeychainSecureStoreAdapter} {world : KeychainWorld Worker}
  {key value : String} {worker : Worker} {later mid before earlier : List (KeychainExchange Worker)}
  {storing completion : KeychainExchange Worker}

theorem SetBefore.wrote_storing {log : List (KeychainExchange Worker)}
    (done : SetBefore adapter worker key value log mid storing before) :
    wrote (adapter.serviceFor key) storing = some (some (.text value)) := by
  rw [wrote, done.stores]
  exact if_neg (by simp [done.succeeded])

theorem eq_set_of_change {call : Call} {service : String} {password : Password}
    (changes : change call = some (service, some password)) :
    call = .setGenericPassword service password := by
  cases call <;> cases changes
  rfl

theorem eq_reset_of_change {call : Call} {service : String}
    (changes : change call = some (service, none)) : call = .resetGenericPassword service := by
  cases call <;> cases changes
  rfl

/-- The call of `set` that stored the entry that is left is the one that then returned: what it did
in between is later than that. -/
theorem subset_of_storedLast (consistent : Consistent adapter world) (secret : key ≠ keyIndex)
    {returning : KeychainExchange Worker} {between after : List (KeychainExchange Worker)}
    (last : StoredLast adapter world.exchanges key (later ++ completion :: between) returning after)
    (same : completion.worker = returning.worker)
    (done : SetBefore adapter completion.worker key value (between ++ returning :: after) mid
      storing before) : mid ⊆ between := by
  have kept := List.forall_mem_append.mp last.kept
  have keptBetween := (List.forall_mem_cons.mp kept.2).2
  rcases List.append_eq_append_iff.mp done.located with
    ⟨rest, split, others⟩ | ⟨rest, split, others⟩
  · -- the storing of the entry is not among what the other one did since it stored
    cases rest with
    | nil => rw [split, List.append_nil]; exact List.Subset.refl _
    | cons first rest =>
      obtain ⟨rfl, -⟩ := List.cons.inj others
      obtain ⟨password, stores⟩ := last.stores
      obtain ⟨changes, -⟩ := wrote_eq_some stores
      have member : returning ∈ mid := split ▸ List.mem_append_right _ List.mem_cons_self
      have request := done.last returning member same.symm (adapter.serviceFor key)
      have made := eq_set_of_change changes
      cases password with
      | text value => exact absurd made (request value)
      | keys keys =>
        have recorded : returning ∈ world.exchanges := by simp [last.located]
        exact absurd (serviceFor_injective (consistent.keys returning recorded _ keys made)) secret
  · cases rest with
    | nil => rw [List.append_nil] at split; exact split ▸ List.Subset.refl _
    | cons first rest =>
      obtain ⟨rfl, -⟩ := List.cons.inj others
      have member : storing ∈ between := split ▸ List.mem_append_right _ List.mem_cons_self
      exact absurd (done.wrote_storing.symm.trans (keptBetween storing member)) nofun

theorem complete_of_consistent (consistent : Consistent adapter world)
    (accounted : NoneAbandoned adapter world.exchanges) : Complete adapter world.state := by
  intro key secret entry
  obtain ⟨content, latest⟩ : ∃ content,
      world.exchanges.findSome? (wrote (adapter.serviceFor key)) = some content := by
    rw [consistent.latest] at entry
    exact Option.ne_none_iff_exists'.mp fun none => entry (by rw [none]; rfl)
  rw [consistent.latest, latest] at entry
  obtain ⟨password, rfl⟩ := Option.ne_none_iff_exists'.mp entry
  obtain ⟨later, storing, earlier, located, stores, kept⟩ :=
    List.findSome?_eq_some_iff.mp latest
  have last : StoredLast adapter world.exchanges key later storing earlier :=
    ⟨located, ⟨password, stores⟩, kept⟩
  refine consistent.lists key later storing earlier secret last ?_
  rcases accounted key later storing earlier secret last with returned | listed
  · obtain ⟨completion, member, same, value, returns⟩ := returned
    obtain ⟨later', between, rfl⟩ := List.append_of_mem member
    have located' : world.exchanges = later' ++ completion :: (between ++ storing :: earlier) := by
      rw [located, List.append_assoc, List.cons_append]
    obtain ⟨mid, storing', before, done, exchange, indexed, indexes⟩ :=
      consistent.returned later' completion _ key value located' returns
    have inside := subset_of_storedLast consistent secret last same done indexed
    exact .inr ⟨exchange, by simp [inside], indexes⟩
  · exact listed

theorem kept_of_consistent (consistent : Consistent adapter world)
    (spares : Historically (Spares adapter) world.exchanges)
    (ordered : InOrder adapter world.exchanges) : Kept adapter world := by
  intro later completion earlier key value located returns last
  obtain ⟨mid, storing, before, done, -⟩ :=
    consistent.returned later completion earlier key value located returns
  refine ⟨mid, storing, before, done, fun noRemoval further result read => ?_⟩
  have inOrder := ordered later completion earlier key value mid storing before located returns last
    done
  have located' : world.exchanges = (later ++ completion :: mid) ++ storing :: before := by
    rw [located, done.located, List.append_assoc, List.cons_append]
  have secret : adapter.serviceFor key ≠ adapter.indexService := by
    have spared := historically_iff.mp spares _ storing before located'
    rw [Spares, done.stores] at spared
    exact spared
  have others : ∀ exchange ∈ later ++ mid, exchange ∈ world.exchanges → ∀ {content},
      change exchange.request = some (adapter.serviceFor key, content) →
        exchange.circumstance ≠ some .before → False := by
    intro exchange member recorded content changes carried
    cases content with
    | none => exact noRemoval exchange member (eq_reset_of_change changes)
    | some password =>
      have made := eq_set_of_change changes
      cases password with
      | text value => exact carried (inOrder exchange member value made)
      | keys keys => exact secret (consistent.keys exchange recorded _ keys made)
  have unwritten : ∀ exchange ∈ later ++ completion :: mid,
      wrote (adapter.serviceFor key) exchange = none := by
    intro exchange member
    rw [Option.eq_none_iff_forall_not_mem]
    intro content written
    obtain ⟨changes, carried⟩ := wrote_eq_some written
    have recorded : exchange ∈ world.exchanges := located' ▸ List.mem_append_left _ member
    rcases List.mem_append.mp member with newer | older
    · exact others exchange (List.mem_append_left _ newer) recorded changes carried
    · rcases List.mem_cons.mp older with rfl | older
      · rw [returns] at changes
        cases changes
      · exact others exchange (List.mem_append_right _ older) recorded changes carried
  rw [reads_of_alone read, consistent.latest, located', List.findSome?_append,
    List.findSome?_eq_none_iff.mpr unwritten, Option.none_or, List.findSome?_cons_of_isSome]
  · simp [done.wrote_storing, KeychainSecureStoreAdapter.textOf]
  · simp [done.wrote_storing]

end Secrets

section Guarantee

variable {Worker : Type} [DecidableEq Worker]

/-- Wiping leaves nothing, and what was set is kept before: in every run of calls of an adapter in
which no caller uses the key of the list and no list that is written leaves out a listed key that
has an entry, each secret that is left was stored by a call that returned or whose key is listed
all the same, and calls of `set` for one key return in the order in which they stored. -/
theorem wiped_and_kept (adapter : KeychainSecureStoreAdapter)
    (turns : List (Turn Worker Task Circumstance))
    (spares : Historically (Spares adapter) (reached adapter turns).exchanges)
    (accounted : NoneAbandoned adapter (reached adapter turns).exchanges)
    (ordered : InOrder adapter (reached adapter turns).exchanges) :
    Wiped adapter (reached adapter turns).state ∧ Kept adapter (reached adapter turns) := by
  have consistent := consistent_reached spares
  exact ⟨wiped_of_complete (complete_of_consistent consistent accounted),
    kept_of_consistent consistent spares ordered⟩

end Guarantee

/-! ### Runs of one and of two callers -/

def sampleAdapter : KeychainSecureStoreAdapter where
  bundleId := "org.ancore.wallet"
  parse := fun _ => []
  stringify := fun _ => "[]"

/-- Two values are stored at the same time, and the second list is written over the first. -/
def racingSets : List (Turn Nat Task Circumstance) :=
  [.start 0 (.set "a" "x"), .start 1 (.set "b" "y"), .resume 0 none, .resume 1 none,
    .resume 0 none, .resume 1 none, .resume 0 none, .resume 1 none, .resume 0 none,
    .resume 1 none]

/-- The call that stores first returns last. -/
def crossingSets : List (Turn Nat Task Circumstance) :=
  [.start 0 (.set "a" "x"), .start 1 (.set "a" "y"), .resume 0 none, .resume 1 none,
    .resume 1 none, .resume 1 none, .resume 1 none, .resume 0 none, .resume 0 none]

theorem secret_left_by_racing_sets :
    ¬ Wiped sampleAdapter (reached sampleAdapter racingSets).state ∧
      ¬ Kept sampleAdapter (reached sampleAdapter crossingSets) := by
  constructor
  · intro wiped
    have left := wiped [] _ _ rfl "a" [] (some "x") rfl
    cases left
  · intro kept
    have located : (reached sampleAdapter crossingSets).exchanges =
      [] ++ _ :: (reached sampleAdapter crossingSets).exchanges.tail := rfl
    obtain ⟨mid, storing, before, done, reads⟩ := kept [] _ _ "a" "x" located rfl nofun
    have stays : ((reached sampleAdapter crossingSets).exchanges.tail.all fun exchange =>
        match exchange.request with
        | .resetGenericPassword _ => false
        | _ => true) = true := rfl
    have other := reads ?_ [] (some "y") rfl
    · exact absurd other (by decide)
    · intro exchange member removes
      have recorded : exchange ∈ mid ++ storing :: before := List.mem_append_left _ member
      have kind := List.all_eq_true.mp stays exchange (done.located ▸ recorded)
      rw [removes] at kind
      cases kind

def oneSet : List (Turn Nat Task Circumstance) :=
  [.start 0 (.set "a" "x"), .resume 0 none, .resume 0 none, .resume 0 none, .resume 0 none]

theorem wiped_and_kept_of_oneSet :
    Wiped sampleAdapter (reached sampleAdapter oneSet).state ∧
      Kept sampleAdapter (reached sampleAdapter oneSet) := by
  have exchanges : ∃ first second third : Entries, (reached sampleAdapter oneSet).exchanges =
      [⟨0, third, .returned "a" "x", none, ()⟩,
        ⟨0, second, .setGenericPassword sampleAdapter.indexService (.keys ["a"]), none, .ok ()⟩,
        ⟨0, first, .getGenericPassword sampleAdapter.indexService, none, .ok none⟩,
        ⟨0, fun _ => none, .setGenericPassword (sampleAdapter.serviceFor "a") (.text "x"), none,
          .ok ()⟩] ∧ second sampleAdapter.indexService = none := ⟨_, _, _, rfl, rfl⟩
  obtain ⟨first, second, third, exchanges, unlisted⟩ := exchanges
  refine wiped_and_kept sampleAdapter oneSet ?_ ?_ ?_
  · rw [exchanges]
    refine ⟨trivial, .inr ?_, trivial, fun same => ?_, trivial⟩
    · change ∀ key ∈ sampleAdapter.keysOf (second sampleAdapter.indexService), _
      rw [unlisted]
      exact List.forall_mem_nil _
    · exact absurd (serviceFor_injective same) (by decide)
  · rw [exchanges]
    rintro key later storing earlier secret ⟨located, ⟨password, stores⟩, kept⟩
    obtain ⟨changes, -⟩ := wrote_eq_some stores
    rcases later with _ | ⟨_, _ | ⟨_, _ | ⟨_, _ | ⟨_, later⟩⟩⟩⟩
    · cases located
      cases changes
    · cases located
      have same : sampleAdapter.indexService = sampleAdapter.serviceFor key :=
        congrArg Prod.fst (Option.some.inj changes)
      exact absurd (serviceFor_injective same.symm) secret
    · cases located
      cases changes
    · cases located
      have same : sampleAdapter.serviceFor "a" = sampleAdapter.serviceFor key :=
        congrArg Prod.fst (Option.some.inj changes)
      exact .inl ⟨_, List.mem_cons_self, rfl, "x", by rw [serviceFor_injective same]⟩
    · simp at located
  · rw [exchanges]
    intro later completion earlier key value mid storing before located returns last done
    rcases later with _ | ⟨_, _ | ⟨_, _ | ⟨_, _ | ⟨_, later⟩⟩⟩⟩
    · obtain ⟨rfl, rfl⟩ := List.cons.inj located
      have split := done.located
      have stores := done.stores
      -- only the first call stored a value
      rcases mid with _ | ⟨_, _ | ⟨_, _ | ⟨_, mid⟩⟩⟩
      · cases split
        simp at stores
      · cases split
        simp at stores
      · cases split
        simp
      · simp at split
    · cases located
      cases returns
    · cases located
      cases returns
    · cases located
      cases returns
    · simp at located

end Ancore.Mobile.Keychain
