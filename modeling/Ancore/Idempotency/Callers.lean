import Ancore.Idempotency.Stages

/-! # Whose responses are replayed

The key under which a response is stored is the one of its request alone: neither
the caller nor the body is part of it.  So what is replayed is produced by the same
caller with the same body exactly when the key determines both. -/

namespace Ancore.Idempotency

open Ancore.Library

variable {Worker : Type}

/-- The request that was handled, with its response. -/
def handledBy (exchange : MiddlewareExchange Worker) : Option (HttpRequest × CachedResponse) :=
  match exchange with
  | ⟨_, _, .handle request, _, some response⟩ => some (request, response)
  | _ => none

def handled (exchanges : List (MiddlewareExchange Worker)) :
    List (HttpRequest × CachedResponse) :=
  exchanges.filterMap handledBy

/-- What the call stores under the key, with the request it was produced by. -/
def writtenBy (key : String) (exchange : MiddlewareExchange Worker) :
    Option (HttpRequest × CachedResponse) :=
  match exchange.request with
  | .set request written response =>
    if written = key ∧ carriesOut exchange.found exchange.circumstance.fault = true then
      some (request, response)
    else none
  | _ => none

/-- What was last stored under the key. -/
def lastWritten (key : String) (exchanges : List (MiddlewareExchange Worker)) :
    Option (HttpRequest × CachedResponse) :=
  (exchanges.filterMap (writtenBy key)).head?

/-- What is replayed was produced by an earlier request of the same caller with the same body. -/
def ReplaysOwn (exchange : MiddlewareExchange Worker)
    (earlier : List (MiddlewareExchange Worker)) : Prop :=
  match exchange with
  | ⟨_, _, .get request key, _, .found response⟩ =>
    ∃ production ∈ handled earlier, lastWritten key earlier = some production ∧
      production.2 = response ∧ production.1.callerId = request.callerId ∧
      production.1.body = request.body
  | _ => True

instance (exchange : MiddlewareExchange Worker) (earlier : List (MiddlewareExchange Worker)) :
    Decidable (ReplaysOwn exchange earlier) :=
  match exchange with
  | ⟨_, _, .get _ _, _, .found _⟩ => inferInstanceAs (Decidable (∃ _ ∈ _, _))
  | ⟨_, _, .get _ _, _, .rejected⟩ => isTrue trivial
  | ⟨_, _, .get _ _, _, .missing⟩ => isTrue trivial
  | ⟨_, _, .get _ _, _, .expired⟩ => isTrue trivial
  | ⟨_, _, .evict _, _, _⟩ => isTrue trivial
  | ⟨_, _, .handle _, _, _⟩ => isTrue trivial
  | ⟨_, _, .set _ _ _, _, _⟩ => isTrue trivial

/-- The key determines the caller and the body. -/
def KeysDetermine (accepted : HttpRequest → Prop) : Prop :=
  ∀ request request' key, accepted request → accepted request' → request.key = some key →
    request'.key = some key → request.callerId = request'.callerId ∧ request.body = request'.body

/-! ## What is stored -/

/-- A production for the key, by an accepted request. -/
structure ProducedFor (accepted : HttpRequest → Prop) (key : String)
    (production : HttpRequest × CachedResponse) (exchanges : List (MiddlewareExchange Worker)) :
    Prop where
  isAccepted : accepted production.1
  keyed : production.1.key = some key
  handled : production ∈ handled exchanges

/-- What is stored was last written for an accepted request with the key; and only such were
replayed. -/
structure StoredSoundly (accepted : HttpRequest → Prop) (world : MiddlewareWorld Worker) :
    Prop where
  stored : ∀ key response, world.state.stored key = some response →
    ∃ request, lastWritten key world.exchanges = some (request, response) ∧
      ProducedFor accepted key (request, response) world.exchanges
  replays : Historically ReplaysOwn world.exchanges

/-- What is being stored was produced for its key. -/
def StoresProduced (accepted : HttpRequest → Prop) (_worker : Worker) (stage : Stage)
    (world : MiddlewareWorld Worker) : Prop :=
  match stage with
  | .storing request key response => ProducedFor accepted key (request, response) world.exchanges
  | _ => True

/-! ## The calls -/

section Steps

variable {accepted : HttpRequest → Prop} {key : String} {worker : Worker} {call : Call}
  {circumstance : Circumstance} {world : MiddlewareWorld Worker} {request : HttpRequest}
  {store : AnyIdempotencyStore}

theorem ProducedFor.after {production : HttpRequest × CachedResponse}
    (produced : ProducedFor accepted key production world.exchanges) :
    ProducedFor accepted key production
      (world.after perform worker call circumstance).exchanges := by
  refine ⟨produced.isAccepted, produced.keyed, ?_⟩
  exact ((List.sublist_cons_self _ _).filterMap _).subset produced.handled

theorem lastWritten_after_of_none {key : String}
    (unwritten : writtenBy key (world.exchange perform worker call circumstance) = none) :
    lastWritten key (world.after perform worker call circumstance).exchanges =
      lastWritten key world.exchanges :=
  congrArg List.head? (List.filterMap_cons_none unwritten)

/-- A call that stores nothing. -/
theorem soundly_of_unset (soundly : StoredSoundly accepted world)
    (unset : ∀ request key response, call ≠ .set request key response)
    (replaysOwn : ReplaysOwn (world.exchange perform worker call circumstance) world.exchanges) :
    StoredSoundly accepted (world.after perform worker call circumstance) := by
  refine ⟨fun key response stored => ?_, ⟨replaysOwn, soundly.replays⟩⟩
  obtain ⟨request, written, produced⟩ :=
    soundly.stored key response (stored_of_perform unset stored)
  refine ⟨request, ?_, produced.after⟩
  rw [lastWritten_after_of_none, written]
  cases call with
  | set request key response => exact absurd rfl (unset request key response)
  | get request key => rfl
  | evict key => rfl
  | handle request => rfl

/-- What was produced for its key is stored under it. -/
theorem soundly_of_set {response : CachedResponse} (soundly : StoredSoundly accepted world)
    (produced : ProducedFor accepted key (request, response) world.exchanges) :
    StoredSoundly accepted
      (world.after perform worker (.set request key response) circumstance) := by
  refine ⟨fun other stored isStored => ?_, ⟨trivial, soundly.replays⟩⟩
  rw [World.after, stored_set] at isStored
  by_cases written : other = key ∧ carriesOut world.state circumstance.fault = true
  · rw [if_pos written, Option.some.injEq] at isStored
    subst isStored
    have now : writtenBy other (world.exchange perform worker (.set request key response)
        circumstance) = some (request, response) := if_pos ⟨written.1.symm, written.2⟩
    refine ⟨request, ?_, written.1 ▸ produced.after⟩
    exact congrArg List.head? (List.filterMap_cons_some now)
  · rw [if_neg written] at isStored
    have unwritten : writtenBy other (world.exchange perform worker (.set request key response)
        circumstance) = none := if_neg fun now => written ⟨now.1.symm, now.2⟩
    obtain ⟨request', last, produced'⟩ := soundly.stored other stored isStored
    exact ⟨request', (lastWritten_after_of_none unwritten).trans last, produced'.after⟩

/-- What is replayed is what is stored, for a request with the same key. -/
theorem replaysOwn_of_found {response : CachedResponse} (determine : KeysDetermine accepted)
    (soundly : StoredSoundly accepted world) (isAccepted : accepted request)
    (keyed : request.key = some key)
    (found : (perform worker (.get request key) circumstance world.state).1 = .found response) :
    ReplaysOwn (world.exchange perform worker (.get request key) circumstance)
      world.exchanges := by
  obtain ⟨request', written, produced⟩ := soundly.stored key response (stored_of_found found)
  have same := determine request' request key produced.isAccepted isAccepted produced.keyed keyed
  unfold World.exchange
  rw [found]
  exact ⟨(request', response), produced.handled, written, rfl, same⟩

end Steps

/-- Each call of a request. -/
theorem soundly_step {accepted : HttpRequest → Prop} (determine : KeysDetermine accepted) :
    OutlineStep (@perform Worker) (Stage.Next accepted) (fun _ _ => True)
      (StoredSoundly accepted) (StoresProduced accepted) := by
  intro worker stage call circumstance onward world soundly produces made _
  suffices own : StoredSoundly accepted (world.after perform worker call circumstance) ∧
      StoresProduced accepted worker onward (world.after perform worker call circumstance) by
    refine ⟨own.1, own.2, fun other _ stage produces => ?_⟩
    cases stage with
    | storing request key response => exact ProducedFor.after produces
    | idle => trivial
    | expired request key => trivial
    | missed request key => trivial
  generalize answer : (perform worker call circumstance world.state).1 = answered at made
  cases made with
  | passed isAccepted keyless => exact ⟨soundly_of_unset soundly nofun trivial, trivial⟩
  | rejected isAccepted keyed =>
    refine ⟨soundly_of_unset soundly nofun ?_, trivial⟩
    unfold World.exchange
    rw [answer]
    trivial
  | replayed isAccepted keyed =>
    exact ⟨soundly_of_unset soundly nofun
      (replaysOwn_of_found determine soundly isAccepted keyed answer), trivial⟩
  | missed isAccepted keyed =>
    refine ⟨soundly_of_unset soundly nofun ?_, trivial⟩
    unfold World.exchange
    rw [answer]
    trivial
  | expired isAccepted keyed =>
    refine ⟨soundly_of_unset soundly nofun ?_, trivial⟩
    unfold World.exchange
    rw [answer]
    trivial
  | evicted => exact ⟨soundly_of_unset soundly nofun trivial, trivial⟩
  | @succeeded request key response isAccepted keyed successful =>
    refine ⟨soundly_of_unset soundly nofun trivial, isAccepted, keyed, ?_⟩
    have handledNow : handledBy (world.exchange perform worker (.handle request) circumstance) =
        some (request, response) := by
      unfold World.exchange
      rw [answer]
      rfl
    exact List.mem_of_mem_head? (congrArg List.head? (List.filterMap_cons_some handledNow))
  | failed isAccepted keyed unsuccessful =>
    exact ⟨soundly_of_unset soundly nofun trivial, trivial⟩
  | stored => exact ⟨soundly_of_set soundly produces, trivial⟩

/-! ## One request after the other -/

def executed : CachedResponse := ⟨200, "{}"⟩

def noResponses : Responses where
  ttlMs := 0
  entries := []

/-- The second request comes when the response of the first is stored. -/
def oneAfterTheOther {accepted : HttpRequest → Prop} (first second : Subtype accepted) :
    List (Turn Nat (Subtype accepted) Circumstance) :=
  .start 0 first :: List.replicate 3 (.resume 0 .smooth) ++
    [.start 0 second, .resume 0 .smooth]

/-- With one key for both the response of the first is replayed to the second. -/
theorem exchanges_oneAfterTheOther {accepted : HttpRequest → Prop} {first second : Subtype accepted}
    {key : String} (keyed : first.1.key = some key) (keyed' : second.1.key = some key) :
    (middlewareRun accepted (.memory noResponses) (oneAfterTheOther first second)).world.exchanges =
      [⟨0, .memory (noResponses.set key executed 0), .get second.1 key, .smooth,
          .found executed⟩,
        ⟨0, .memory noResponses, .set first.1 key executed, .smooth, ()⟩,
        ⟨0, .memory noResponses, .handle first.1, .smooth, some executed⟩,
        ⟨0, .memory noResponses, .get first.1 key, .smooth, .missing⟩] := by
  simp [middlewareRun, interleaved, oneAfterTheOther, final, takeTurn, System.idle, serve,
    idempotencyMiddleware, keyed, keyed', List.replicate, awaited, Program.bind_call,
    Program.bind_done, Program.pure_eq, World.after, World.exchange, perform, noResponses,
    Responses.get, handleAndStore, Circumstance.smooth, executed, CachedResponse.successful,
    Responses.set, upsert]

/-! ## Runs -/

theorem historically_replaysOwn [DecidableEq Worker] {accepted : HttpRequest → Prop}
    (determine : KeysDetermine accepted) {store : AnyIdempotencyStore}
    (empty : store.responses.entries = [])
    (turns : List (Turn Worker (Subtype accepted) Circumstance)) :
    Historically ReplaysOwn (middlewareRun accepted store turns).world.exchanges := by
  have nothingYet : StoredSoundly accepted (World.mk store [] : MiddlewareWorld Worker) := by
    refine ⟨fun key response isStored => ?_, trivial⟩
    rw [AnyIdempotencyStore.stored, empty] at isStored
    cases isStored
  exact (invariant_of_outline serve_follows (soundly_step determine) nothingYet
    (fun worker => ⟨.idle, rfl, trivial⟩) turns
    (historically_of_forall fun _ _ _ => trivial)).1.replays

/-- Every run over an empty store replays a response to its own caller and body only, exactly when
the keys of the requests determine both. -/
theorem replays_stay_own_iff (accepted : HttpRequest → Prop) :
    (∀ store : AnyIdempotencyStore, store.responses.entries = [] →
      ∀ turns : List (Turn Nat (Subtype accepted) Circumstance),
        Historically ReplaysOwn (middlewareRun accepted store turns).world.exchanges) ↔
      KeysDetermine accepted := by
  constructor
  · intro own request request' key isAccepted isAccepted' keyed keyed'
    have replayed := own (.memory noResponses) rfl
      (oneAfterTheOther ⟨request, isAccepted⟩ ⟨request', isAccepted'⟩)
    rw [exchanges_oneAfterTheOther keyed keyed'] at replayed
    obtain ⟨production, produced, -, -, same⟩ := replayed.1
    rw [List.mem_singleton.mp produced] at same
    exact same
  · intro determine store empty turns
    exact historically_replaysOwn determine empty turns

/-! ### Two callers with one key -/

/-- A request of a caller. -/
def requestOf (callerId : String) : Subtype fun _ : HttpRequest => True :=
  ⟨{ callerId := callerId, idempotencyKey := .single "key", body := "{}" }, trivial⟩

theorem replayed_to_another_caller :
    ¬ Historically ReplaysOwn (middlewareRun (fun _ => True) (.memory noResponses)
      (oneAfterTheOther (requestOf "caller-a") (requestOf "caller-b"))).world.exchanges := by
  decide

end Ancore.Idempotency
