import Ancore.Idempotency.Stages

/-! # One execution for a key

Until the response of a request is stored, a request with the same key finds
nothing and is handled as well.  Where requests are looked up after every earlier
response is stored, and are handled before another one succeeds, a key is executed
with success once, and everybody else receives the response of that execution. -/

namespace Ancore.Idempotency

open Ancore.Library

variable {Worker : Type}

/-- The response of a successful execution for the key. -/
def successBy (key : String) (exchange : MiddlewareExchange Worker) : Option CachedResponse :=
  match exchange with
  | ⟨_, _, .handle request, _, some response⟩ =>
    if request.key = some key ∧ response.successful = true then some response else none
  | _ => none

/-- The responses of the successful executions for the key, the latest first. -/
def successes (key : String) (exchanges : List (MiddlewareExchange Worker)) :
    List CachedResponse :=
  exchanges.filterMap (successBy key)

/-- Once an execution for the key succeeded, no further one is begun, and what is replayed is its
response. -/
def OnlyReplays (key : String) (exchange : MiddlewareExchange Worker)
    (earlier : List (MiddlewareExchange Worker)) : Prop :=
  match exchange with
  | ⟨_, _, .handle request, _, _⟩ => request.key = some key → successes key earlier = []
  | ⟨_, _, .get _ looked, _, .found response⟩ => looked = key → successes key earlier = [response]
  | _ => True

/-- The key is executed with success at most once, and from then on only replayed. -/
def ExecutesOnce (key : String) (exchanges : List (MiddlewareExchange Worker)) : Prop :=
  (successes key exchanges).length ≤ 1 ∧ Historically (OnlyReplays key) exchanges

/-- A call finds nothing stored that has outlived its time to live. -/
def WithinTtl (exchange : MiddlewareExchange Worker) : Prop :=
  exchange.found.Unexpired exchange.circumstance.dateNow

instance (exchange : MiddlewareExchange Worker) : Decidable (WithinTtl exchange) :=
  inferInstanceAs (Decidable (AnyIdempotencyStore.Unexpired _ _))

/-- A key is looked up once the response of every earlier execution of it is stored. -/
def LooksUpStored (key : String) (exchange : MiddlewareExchange Worker)
    (earlier : List (MiddlewareExchange Worker)) : Prop :=
  match exchange.request with
  | .get _ looked => looked = key → successes key earlier ≠ [] → (exchange.found.stored key).isSome
  | _ => True

instance (key : String) (exchange : MiddlewareExchange Worker)
    (earlier : List (MiddlewareExchange Worker)) : Decidable (LooksUpStored key exchange earlier) :=
  match exchange with
  | ⟨_, _, .get _ _, _, _⟩ => inferInstanceAs (Decidable (_ → _ → _))
  | ⟨_, _, .evict _, _, _⟩ => isTrue trivial
  | ⟨_, _, .handle _, _, _⟩ => isTrue trivial
  | ⟨_, _, .set _ _ _, _, _⟩ => isTrue trivial

theorem length_successes_le {key : String} {exchanges : List (MiddlewareExchange Worker)}
    (replays : Historically (OnlyReplays key) exchanges) :
    (successes key exchanges).length ≤ 1 := by
  induction exchanges with
  | nil => exact Nat.zero_le 1
  | cons exchange earlier inductionHypothesis =>
    cases succeeded : successBy key exchange with
    | none =>
      rw [successes, List.filterMap_cons_none succeeded]
      exact inductionHypothesis replays.2
    | some response =>
      obtain ⟨_, _, call, _, answer⟩ := exchange
      have none : successes key earlier = [] := by
        cases call with
        | handle request =>
          cases answer with
          | none => cases succeeded
          | some _ =>
            simp only [successBy, Option.ite_none_right_eq_some] at succeeded
            exact replays.1 succeeded.1.1
        | get request looked => cases succeeded
        | evict looked => cases succeeded
        | set request looked response => cases succeeded
      rw [successes, List.filterMap_cons_some succeeded, List.length_cons]
      exact Nat.succ_le_succ (Nat.le_zero.mpr (List.length_eq_zero_iff.mpr none))

theorem successes_after_of_none {key : String} {worker : Worker} {call : Call}
    {circumstance : Circumstance} {world : MiddlewareWorld Worker}
    (unsuccessful : successBy key (world.exchange perform worker call circumstance) = none) :
    successes key (world.after perform worker call circumstance).exchanges =
      successes key world.exchanges :=
  List.filterMap_cons_none unsuccessful

/-! ## What is stored -/

/-- So far the key was executed once, and what is stored is the response. -/
structure OnceSoFar (key : String) (world : MiddlewareWorld Worker) : Prop where
  replays : Historically (OnlyReplays key) world.exchanges
  stored : ∀ response, world.state.stored key = some response →
    successes key world.exchanges = [response]

section Steps

variable {key : String} {worker : Worker} {call : Call} {circumstance : Circumstance}
  {world : MiddlewareWorld Worker} {request : HttpRequest} {looked : String}
  {response : CachedResponse}

/-- A call without success for the key that leaves what is stored. -/
theorem once_of_quiet (once : OnceSoFar key world)
    (replays : OnlyReplays key (world.exchange perform worker call circumstance) world.exchanges)
    (unsuccessful : successBy key (world.exchange perform worker call circumstance) = none)
    (same : (perform worker call circumstance world.state).2.stored key =
      world.state.stored key) :
    OnceSoFar key (world.after perform worker call circumstance) := by
  refine ⟨⟨replays, once.replays⟩, ?_⟩
  rw [successes_after_of_none unsuccessful]
  exact fun response stored => once.stored response (same ▸ stored)

/-- The key is looked up. -/
theorem once_of_lookup (once : OnceSoFar key world)
    (unexpired : world.state.Unexpired circumstance.dateNow) :
    OnceSoFar key (world.after perform worker (.get request looked) circumstance) := by
  obtain ⟨same, answer⟩ := perform_get worker request looked unexpired
  refine once_of_quiet once ?_ rfl (by rw [same])
  unfold World.exchange
  obtain rejected | answer := answer
  · rw [rejected]
    trivial
  · rw [answer]
    cases stored : world.state.stored looked with
    | none => trivial
    | some response => exact fun same => once.stored response (same ▸ stored)

/-- The key is executed. -/
theorem once_of_success (once : OnceSoFar key world)
    (unexecuted : successes key world.exchanges = [])
    (succeeded : successBy key (world.exchange perform worker (.handle request) circumstance) =
      some response) :
    OnceSoFar key (world.after perform worker (.handle request) circumstance) ∧
      successes key (world.after perform worker (.handle request) circumstance).exchanges =
        [response] := by
  have executed : successes key (world.after perform worker (.handle request)
      circumstance).exchanges = [response] :=
    (List.filterMap_cons_some succeeded).trans (congrArg (List.cons response) unexecuted)
  refine ⟨⟨⟨fun _ => unexecuted, once.replays⟩, fun stored isStored => ?_⟩, executed⟩
  have impossible := (once.stored stored isStored).symm.trans unexecuted
  cases impossible

theorem successBy_of_unkeyed (worker : Worker) (circumstance : Circumstance)
    (world : MiddlewareWorld Worker) (unkeyed : request.key ≠ some key) :
    successBy key (world.exchange perform worker (.handle request) circumstance) = none := by
  unfold successBy World.exchange
  cases (perform worker (.handle request) circumstance world.state).1 with
  | none => rfl
  | some response => exact if_neg fun both => unkeyed both.1

end Steps

/-! ## Requests side by side -/

variable [DecidableEq Worker]

/-- The call looks the key up for the worker. -/
def looksUp (key : String) (worker : Worker) (exchange : MiddlewareExchange Worker) : Bool :=
  match exchange.request with
  | .get _ looked => looked = key && exchange.worker = worker
  | _ => false

/-- An execution for the key has succeeded since the worker looked the key up. -/
def succeededSince (key : String) (worker : Worker) : List (MiddlewareExchange Worker) → Bool
  | [] => false
  | exchange :: earlier =>
    (successBy key exchange).isSome ||
      !looksUp key worker exchange && succeededSince key worker earlier

/-- A request is handled before another one with its key has succeeded since its own lookup. -/
def HandlesUndisturbed (key : String) (exchange : MiddlewareExchange Worker)
    (earlier : List (MiddlewareExchange Worker)) : Prop :=
  match exchange.request with
  | .handle request => request.key = some key → succeededSince key exchange.worker earlier = false
  | _ => True

instance (key : String) (exchange : MiddlewareExchange Worker)
    (earlier : List (MiddlewareExchange Worker)) :
    Decidable (HandlesUndisturbed key exchange earlier) :=
  match exchange with
  | ⟨_, _, .handle _, _, _⟩ => inferInstanceAs (Decidable (_ → _))
  | ⟨_, _, .get _ _, _, _⟩ => isTrue trivial
  | ⟨_, _, .evict _, _, _⟩ => isTrue trivial
  | ⟨_, _, .set _ _ _, _, _⟩ => isTrue trivial

/-! ## At each stage -/

/-- What a worker knows of the key at a stage. -/
def KnowsKey (key : String) (worker : Worker) (stage : Stage) (world : MiddlewareWorld Worker) :
    Prop :=
  match stage with
  | .idle => True
  | .expired _ _ => False
  | .missed _ looked => looked = key → succeededSince key worker world.exchanges = false →
      successes key world.exchanges = []
  | .storing _ looked response => looked = key → successes key world.exchanges = [response]

section Steps

variable {key : String} {worker other : Worker} {stage : Stage} {call : Call}
  {circumstance : Circumstance} {world : MiddlewareWorld Worker}

/-- A call without success for the key leaves what the other workers know. -/
theorem KnowsKey.after_of_none (knows : KnowsKey key other stage world) (different : other ≠ worker)
    (unsuccessful : successBy key (world.exchange perform worker call circumstance) = none) :
    KnowsKey key other stage (world.after perform worker call circumstance) := by
  have notLookedUp :
      looksUp key other (world.exchange perform worker call circumstance) = false := by
    cases call with
    | get request looked => simp [looksUp, World.exchange, Ne.symm different]
    | evict looked => rfl
    | handle request => rfl
    | set request looked response => rfl
  have since : succeededSince key other (world.after perform worker call circumstance).exchanges =
      succeededSince key other world.exchanges := by
    change ((successBy key _).isSome || !looksUp key other _ && _) = _
    rw [unsuccessful, notLookedUp]
    rfl
  cases stage with
  | idle => trivial
  | expired request looked => exact knows
  | missed request looked =>
    unfold KnowsKey
    rw [since, successes_after_of_none unsuccessful]
    exact knows
  | storing request looked response =>
    unfold KnowsKey
    rw [successes_after_of_none unsuccessful]
    exact knows

/-- After a success for the key the other workers know of it: none is still to be handled or is
being stored. -/
theorem KnowsKey.after_of_success {response : CachedResponse}
    (knows : KnowsKey key other stage world)
    (unexecuted : successes key world.exchanges = [])
    (succeeded : successBy key (world.exchange perform worker call circumstance) =
      some response) :
    KnowsKey key other stage (world.after perform worker call circumstance) := by
  cases stage with
  | idle => trivial
  | expired request looked => exact knows
  | missed request looked =>
    intro same since
    have now : succeededSince key other (world.after perform worker call circumstance).exchanges =
        true := by
      change ((successBy key _).isSome || _) = true
      rw [succeeded]
      rfl
    exact absurd (now.symm.trans since) nofun
  | storing request looked response =>
    intro same
    have impossible := (knows same).symm.trans unexecuted
    cases impossible

end Steps

/-- Each call of a request. -/
theorem once_step (accepted : HttpRequest → Prop) (key : String) :
    OutlineStep (@perform Worker) (Stage.Next accepted)
      (fun exchange earlier => WithinTtl exchange ∧ LooksUpStored key exchange earlier ∧
        HandlesUndisturbed key exchange earlier)
      (OnceSoFar key) (KnowsKey key) := by
  intro worker stage call circumstance onward world once knows made ⟨unexpired, stored, undisturbed⟩
  have others (unsuccessful : successBy key (world.exchange perform worker call circumstance) =
      none) : ∀ other, other ≠ worker → ∀ stage, KnowsKey key other stage world →
        KnowsKey key other stage (world.after perform worker call circumstance) :=
    fun other different stage knows => knows.after_of_none different unsuccessful
  generalize answer : (perform worker call circumstance world.state).1 = answered at made
  cases made with
  | @passed request response isAccepted keyless =>
    have unkeyed : request.key ≠ some key := by
      rw [keyless]
      nofun
    have unsuccessful := successBy_of_unkeyed worker circumstance world unkeyed
    exact ⟨once_of_quiet once (fun keyed => absurd keyed unkeyed) unsuccessful rfl, trivial,
      others unsuccessful⟩
  | rejected isAccepted keyed => exact ⟨once_of_lookup once unexpired, trivial, others rfl⟩
  | replayed isAccepted keyed => exact ⟨once_of_lookup once unexpired, trivial, others rfl⟩
  | @missed request looked isAccepted keyed =>
    refine ⟨once_of_lookup once unexpired, fun same _ => ?_, others rfl⟩
    have missed : world.state.stored looked = none :=
      (missed_of_perform_get unexpired).1 answer
    by_contra executed
    have isStored : (world.state.stored key).isSome := stored same executed
    rw [← same, missed] at isStored
    cases isStored
  | expired isAccepted keyed => exact absurd answer (missed_of_perform_get unexpired).2
  | evicted => exact knows.elim
  | @succeeded request looked response isAccepted keyed successful =>
    by_cases same : looked = key
    · have isKeyed : request.key = some key := keyed.trans (congrArg some same)
      have unexecuted := knows same (undisturbed isKeyed)
      have succeeded : successBy key (world.exchange perform worker (.handle request)
          circumstance) = some response := by
        unfold World.exchange
        rw [answer]
        exact if_pos ⟨isKeyed, successful⟩
      obtain ⟨onceAfter, executed⟩ := once_of_success once unexecuted succeeded
      exact ⟨onceAfter, fun _ => executed, fun other different stage knows =>
        knows.after_of_success unexecuted succeeded⟩
    · have unkeyed : request.key ≠ some key :=
        fun isKeyed => same (Option.some.inj (keyed.symm.trans isKeyed))
      have unsuccessful := successBy_of_unkeyed worker circumstance world unkeyed
      exact ⟨once_of_quiet once (fun keyed => absurd keyed unkeyed) unsuccessful rfl,
        fun same' => absurd same' same, others unsuccessful⟩
  | @failed request looked answer' isAccepted keyed failed =>
    have unsuccessful : successBy key (world.exchange perform worker (.handle request)
        circumstance) = none := by
      unfold World.exchange
      rw [answer]
      cases answer' with
      | none => rfl
      | some response => exact if_neg fun both => absurd both.2 (by simp [failed response rfl])
    refine ⟨once_of_quiet once (fun isKeyed => ?_) unsuccessful rfl, trivial, others unsuccessful⟩
    exact knows (Option.some.inj (keyed.symm.trans isKeyed)) (undisturbed isKeyed)
  | @stored request looked response answer' =>
    refine ⟨⟨⟨trivial, once.replays⟩, fun stored isStored => ?_⟩, trivial, others rfl⟩
    rw [successes_after_of_none rfl]
    rw [World.after, stored_set] at isStored
    split_ifs at isStored with written
    · rw [← Option.some.inj isStored]
      exact knows written.1.symm
    · exact once.stored stored isStored

/-! ## Runs -/

/-- Within the time to live every key is executed once, in every run in which it is looked up after
the response of each earlier execution is stored and no request with it is handled once another one
has succeeded since its own lookup. -/
theorem key_executes_once (store : AnyIdempotencyStore) (empty : store.responses.entries = [])
    (accepted : HttpRequest → Prop) (turns : List (Turn Worker (Subtype accepted) Circumstance))
    (key : String)
    (withinTtl : ∀ exchange ∈ (middlewareRun accepted store turns).world.exchanges,
      WithinTtl exchange)
    (stored : Historically (LooksUpStored key)
      (middlewareRun accepted store turns).world.exchanges)
    (undisturbed : Historically (HandlesUndisturbed key)
      (middlewareRun accepted store turns).world.exchanges) :
    ExecutesOnce key (middlewareRun accepted store turns).world.exchanges := by
  have nothingYet : OnceSoFar key (World.mk store [] : MiddlewareWorld Worker) := by
    refine ⟨trivial, fun response isStored => ?_⟩
    rw [AnyIdempotencyStore.stored, empty] at isStored
    cases isStored
  have once := (invariant_of_outline serve_follows (once_step accepted key) nothingYet
    (fun worker => ⟨.idle, rfl, trivial⟩) turns (historically_and
      (historically_of_forall fun exchange member _ => withinTtl exchange member)
      (historically_and stored undisturbed))).1
  exact ⟨length_successes_le once.replays, once.replays⟩

/-! ### Two requests with one key -/

/-- A request that comes with a key. -/
def keyedRequest : Subtype fun _ : HttpRequest => True :=
  ⟨{ callerId := "caller-a", idempotencyKey := .single "key", body := "{}" }, trivial⟩

def emptyStore : AnyIdempotencyStore := .memory { ttlMs := 300000, entries := [] }

abbrev KeyedTurn : Type := Turn Bool (Subtype fun _ : HttpRequest => True) Circumstance

/-- A request from its start to its end. -/
def served (worker : Bool) : List KeyedTurn :=
  .start worker keyedRequest :: List.replicate 3 (.resume worker .smooth)

theorem key_executes_once_of_sample :
    ExecutesOnce "key" (middlewareRun (fun _ => True) emptyStore
      (served true ++ served false)).world.exchanges :=
  key_executes_once emptyStore rfl (fun _ => True) (served true ++ served false) "key"
    (by decide) (by decide) (by decide)

/-- Two requests at once. -/
def atOnce : List KeyedTurn :=
  [.start true keyedRequest, .start false keyedRequest] ++
    (List.replicate 3 [.resume true .smooth, .resume false .smooth]).flatten

/-- Both find nothing stored, and both are handled with success. -/
theorem one_key_executed_twice :
    (∀ exchange ∈ (middlewareRun (fun _ => True) emptyStore atOnce).world.exchanges,
      WithinTtl exchange) ∧
      ¬ ExecutesOnce "key" (middlewareRun (fun _ => True) emptyStore atOnce).world.exchanges := by
  refine ⟨by decide, fun once => ?_⟩
  exact absurd once.1 (by decide)

end Ancore.Idempotency
