import Ancore.Idempotency.Middleware

/-! # The stages of a request

What the middleware can do of a request, said once; and what each of its calls
makes of the response stored under a key. -/

namespace Ancore.Idempotency

open Ancore.Library

/-- Where a worker stands with its request. -/
inductive Stage where
  | idle
  | expired (request : HttpRequest) (key : String)
  | missed (request : HttpRequest) (key : String)
  | storing (request : HttpRequest) (key : String) (response : CachedResponse)

/-- From a stage, the calls and where they lead; the requests are accepted ones. -/
inductive Stage.Next (accepted : HttpRequest → Prop) : Outline Stage Answer
  | passed {request answer} (isAccepted : accepted request) (keyless : request.key = none) :
      Next accepted idle (.handle request) answer idle
  | rejected {request key} (isAccepted : accepted request) (keyed : request.key = some key) :
      Next accepted idle (.get request key) .rejected idle
  | replayed {request key response} (isAccepted : accepted request)
      (keyed : request.key = some key) :
      Next accepted idle (.get request key) (.found response) idle
  | missed {request key} (isAccepted : accepted request) (keyed : request.key = some key) :
      Next accepted idle (.get request key) .missing (missed request key)
  | expired {request key} (isAccepted : accepted request) (keyed : request.key = some key) :
      Next accepted idle (.get request key) .expired (expired request key)
  | evicted {request key answer} :
      Next accepted (expired request key) (.evict key) answer (missed request key)
  | succeeded {request key response} (isAccepted : accepted request)
      (keyed : request.key = some key) (successful : response.successful = true) :
      Next accepted (missed request key) (.handle request) (some response)
        (storing request key response)
  | failed {request key answer} (isAccepted : accepted request) (keyed : request.key = some key)
      (unsuccessful : ∀ response ∈ answer, response.successful = false) :
      Next accepted (missed request key) (.handle request) answer idle
  | stored {request key response answer} :
      Next accepted (storing request key response) (.set request key response) answer idle

/-- No request is in hand. -/
def Stage.Rests (stage : Stage) : Prop := stage = .idle

variable {accepted : HttpRequest → Prop} {request : HttpRequest} {key : String}

theorem handleAndStore_follows (isAccepted : accepted request) (keyed : request.key = some key) :
    (handleAndStore request key).Follows (Stage.Next accepted) (fun _ => Stage.Rests)
      (.missed request key) := by
  intro answer
  cases answer with
  | none => exact ⟨.idle, .failed isAccepted keyed (by simp), rfl⟩
  | some response =>
    by_cases successful : response.successful = true
    · refine ⟨_, .succeeded isAccepted keyed successful, ?_⟩
      change Program.Follows _ _ (if response.successful then _ else _) _
      rw [if_pos successful]
      exact fun stored => ⟨.idle, .stored, rfl⟩
    · refine ⟨.idle, .failed isAccepted keyed (by simpa using successful), ?_⟩
      change Program.Follows _ _ (if response.successful then _ else _) _
      rw [if_neg successful]
      exact rfl

theorem idempotencyMiddleware_follows (isAccepted : accepted request) :
    (idempotencyMiddleware request).Follows (Stage.Next accepted) (fun _ => Stage.Rests) .idle := by
  unfold idempotencyMiddleware
  split
  · rename_i keyless
    exact fun answer => ⟨.idle, .passed isAccepted keyless, rfl⟩
  · rename_i key keyed
    intro lookup
    cases lookup with
    | rejected => exact ⟨.idle, .rejected isAccepted keyed, rfl⟩
    | found response => exact ⟨.idle, .replayed isAccepted keyed, rfl⟩
    | missing => exact ⟨_, .missed isAccepted keyed, handleAndStore_follows isAccepted keyed⟩
    | expired =>
      exact ⟨_, .expired isAccepted keyed, fun evicted =>
        ⟨_, .evicted, handleAndStore_follows isAccepted keyed⟩⟩

theorem serve_follows (request : Subtype accepted) (stage : Stage) (rests : stage.Rests) :
    (serve request.1).Follows (Stage.Next accepted) (fun _ => Stage.Rests) stage := by
  rw [show stage = .idle from rests]
  exact Program.Follows.bind (Program.Follows.mono (idempotencyMiddleware_follows request.2)
    fun _ _ ended => ended)

/-! ## What the calls make of a key -/

section Calls

variable {Worker : Type} {worker : Worker} {circumstance : Circumstance}
  {store : AnyIdempotencyStore}

/-- Within the time to live a lookup leaves the store and finds what is stored. -/
theorem perform_get (worker : Worker) (request : HttpRequest) (key : String)
    (unexpired : store.Unexpired circumstance.dateNow) :
    (perform worker (.get request key) circumstance store).2 = store ∧
      ((perform worker (.get request key) circumstance store).1 = .rejected ∨
        (perform worker (.get request key) circumstance store).1 =
          (store.stored key).elim .missing .found) := by
  have current {entry : StoredResponse} (stored : store.responses.entries.lookup key = some entry) :
      ¬ entry.expiresAt < circumstance.dateNow :=
    not_lt.mpr (unexpired _ (mem_of_lookup stored))
  cases store with
  | memory responses =>
    simp only [perform, Responses.get, AnyIdempotencyStore.stored, AnyIdempotencyStore.responses]
    cases stored : responses.entries.lookup key with
    | none => exact ⟨rfl, .inr rfl⟩
    | some entry =>
      simp only [if_neg (current stored)]
      exact ⟨trivial, .inr rfl⟩
  | postgres responses =>
    simp only [perform, Responses.select, AnyIdempotencyStore.stored,
      AnyIdempotencyStore.responses]
    split_ifs with fault
    · cases stored : responses.entries.lookup key with
      | none => exact ⟨rfl, .inr rfl⟩
      | some entry =>
        simp only [if_neg (current stored)]
        exact ⟨trivial, .inr rfl⟩
    · exact ⟨rfl, .inl rfl⟩

/-- What misses is not stored, and nothing is expired. -/
theorem missed_of_perform_get (unexpired : store.Unexpired circumstance.dateNow) :
    ((perform worker (.get request key) circumstance store).1 = .missing →
        store.stored key = none) ∧
      (perform worker (.get request key) circumstance store).1 ≠ .expired := by
  obtain ⟨-, rejected | answer⟩ := perform_get worker request key unexpired
  · rw [rejected]
    exact ⟨nofun, nofun⟩
  · rw [answer]
    cases store.stored key with
    | none => exact ⟨fun _ => rfl, nofun⟩
    | some response => exact ⟨nofun, nofun⟩

theorem stored_set {response : CachedResponse} {other : String} :
    (perform worker (.set request key response) circumstance store).2.stored other =
      if other = key ∧ carriesOut store circumstance.fault = true then some response
      else store.stored other := by
  have written (responses : Responses) :
      ((responses.set key response circumstance.dateNow).entries.lookup other).map
          StoredResponse.response =
        if other = key then some response
        else (responses.entries.lookup other).map StoredResponse.response := by
    rw [Responses.set, lookup_upsert]
    split
    · rfl
    · rfl
  cases store with
  | memory responses =>
    simp only [carriesOut, and_true]
    exact written responses
  | postgres responses =>
    simp only [perform]
    by_cases carriedOut : carriesOut (.postgres responses) circumstance.fault = true
    · simp only [carriedOut, if_true, and_true]
      exact written responses
    · simp only [carriedOut, Bool.false_eq_true, and_false, if_false]

/-- What is found is stored. -/
theorem stored_of_found {response : CachedResponse}
    (found : (perform worker (.get request key) circumstance store).1 = .found response) :
    store.stored key = some response := by
  unfold AnyIdempotencyStore.stored
  cases store with
  | memory responses =>
    simp only [perform, Responses.get] at found
    cases stored : responses.entries.lookup key with
    | none => simp [stored] at found
    | some entry =>
      simp only [stored] at found
      split at found
      · cases found
      · simpa [AnyIdempotencyStore.responses, stored] using found
  | postgres responses =>
    simp only [perform, Responses.select] at found
    split at found
    · cases stored : responses.entries.lookup key with
      | none => simp [stored] at found
      | some entry =>
        simp only [stored] at found
        split at found
        · cases found
        · simpa [AnyIdempotencyStore.responses, stored] using found
    · cases found

/-- Only a call of `set` adds to what is stored. -/
theorem stored_of_perform {call : Call}
    (unset : ∀ request key response, call ≠ .set request key response)
    {other : String} {response : CachedResponse}
    (stored : (perform worker call circumstance store).2.stored other = some response) :
    store.stored other = some response := by
  have deleted {responses : Responses} {key : String}
      (stored : ((responses.delete key).entries.lookup other).map StoredResponse.response =
        some response) :
      (responses.entries.lookup other).map StoredResponse.response = some response := by
    rw [Responses.delete, lookup_remove] at stored
    split at stored
    · cases stored
    · exact stored
  cases call with
  | get request key =>
    cases store with
    | memory responses =>
      simp only [perform, Responses.get] at stored
      split at stored
      · exact stored
      · split at stored
        · exact deleted stored
        · exact stored
    | postgres responses =>
      simp only [perform] at stored
      split at stored
      · exact stored
      · exact stored
  | evict key =>
    cases store with
    | memory responses => exact deleted stored
    | postgres responses =>
      simp only [perform] at stored
      split at stored
      · exact deleted stored
      · exact stored
  | handle request => exact stored
  | set request key response => exact absurd rfl (unset request key response)

end Calls

end Ancore.Idempotency
