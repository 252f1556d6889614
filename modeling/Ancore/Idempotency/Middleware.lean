import Ancore.Library.EcmaScript
import Ancore.Library.KeyedTable
import Ancore.Library.Outline

/-! # The idempotency middleware

Responses are kept under a key that the client chooses, in memory or in the table
`idempotency_keys`.  A request with a key is looked up, handled and its response
stored in three calls, between which other requests go on. -/

namespace Ancore.Idempotency

open Ancore.Library

/-- Milliseconds since the epoch. -/
abbrev Millis : Type := Int

structure CachedResponse where
  statusCode : Nat
  /-- The text of the JSON body. -/
  body : String
  deriving DecidableEq, Repr

def CachedResponse.successful (response : CachedResponse) : Bool :=
  200 ≤ response.statusCode && response.statusCode < 300

/-- A header as `req.headers` has it. -/
inductive HeaderValue where
  | absent
  | single (value : String)
  | several (values : List String)
  deriving DecidableEq, Repr

/-- An authenticated request. -/
structure HttpRequest where
  callerId : String
  idempotencyKey : HeaderValue
  /-- The text of the JSON body. -/
  body : String
  deriving DecidableEq, Repr

/-- The key of a request, where it has one. -/
def HttpRequest.key (request : HttpRequest) : Option String :=
  match request.idempotencyKey with
  | .single rawKey =>
    if EcmaScript.trim rawKey = "" then none else some (EcmaScript.trim rawKey)
  | _ => none

/-! ## The stores -/

structure StoredResponse where
  response : CachedResponse
  expiresAt : Millis
  deriving DecidableEq, Repr

/-- The entries of a store, by their keys. -/
structure Responses where
  ttlMs : Millis
  entries : List (String × StoredResponse)

inductive AnyIdempotencyStore where
  | memory (responses : Responses)
  | postgres (responses : Responses)

/-- What a lookup comes to: it rejects, finds nothing, an expired row or a response. -/
inductive Lookup where
  | rejected
  | missing
  | expired
  | found (response : CachedResponse)
  deriving DecidableEq, Repr

namespace Responses

def set (responses : Responses) (key : String) (response : CachedResponse) (now : Millis) :
    Responses :=
  { responses with
    entries := upsert responses.entries key ⟨response, now + responses.ttlMs⟩ }

def delete (responses : Responses) (key : String) : Responses :=
  { responses with entries := remove responses.entries key }

/-- `IdempotencyStore.get`, which evicts what has expired. -/
def get (responses : Responses) (key : String) (now : Millis) : Lookup × Responses :=
  match responses.entries.lookup key with
  | none => (.missing, responses)
  | some entry =>
    if entry.expiresAt < now then (.missing, responses.delete key)
    else (.found entry.response, responses)

/-- The first query of `PgIdempotencyStore.get`. -/
def select (responses : Responses) (key : String) (now : Millis) : Lookup :=
  match responses.entries.lookup key with
  | none => .missing
  | some entry => if entry.expiresAt < now then .expired else .found entry.response

end Responses

namespace AnyIdempotencyStore

def responses : AnyIdempotencyStore → Responses
  | memory responses => responses
  | postgres responses => responses

/-- The response stored under a key, expired or not. -/
def stored (store : AnyIdempotencyStore) (key : String) : Option CachedResponse :=
  (store.responses.entries.lookup key).map StoredResponse.response

/-- Nothing stored has outlived its time to live. -/
def Unexpired (store : AnyIdempotencyStore) (now : Millis) : Prop :=
  ∀ entry ∈ store.responses.entries, now ≤ entry.2.expiresAt

instance (store : AnyIdempotencyStore) (now : Millis) : Decidable (store.Unexpired now) :=
  inferInstanceAs (Decidable (∀ _ ∈ _, _))

end AnyIdempotencyStore

/-! ## The calls -/

/-- The calls.  A store is told the key only; the request says what it is asked for. -/
inductive Call where
  | get (request : HttpRequest) (key : String)
  | evict (key : String)
  | handle (request : HttpRequest)
  | set (request : HttpRequest) (key : String) (response : CachedResponse)
  deriving DecidableEq, Repr

/-- The handler answers with a response, unless it passes an error on; what comes of an eviction and
of storing a response is not looked at. -/
@[reducible] def Answer : Call → Type
  | .get _ _ => Lookup
  | .evict _ => Unit
  | .handle _ => Option CachedResponse
  | .set _ _ _ => Unit

def awaited (call : Call) : Program Answer (Answer call) := .call call .done

/-- The handler runs, and a successful response is stored. -/
def handleAndStore (request : HttpRequest) (key : String) :
    Program Answer (Option CachedResponse) := do
  match ← awaited (.handle request) with
  | none => pure none
  | some response =>
    if response.successful then do
      awaited (.set request key response)
      pure (some response)
    else pure (some response)

/-- What the client receives; none where an error is passed on. -/
def idempotencyMiddleware (request : HttpRequest) : Program Answer (Option CachedResponse) :=
  match request.key with
  | none => awaited (.handle request)
  | some key => do
    match ← awaited (.get request key) with
    | .rejected => pure none
    | .found response => pure (some response)
    | .missing => handleAndStore request key
    | .expired => do
      awaited (.evict key)
      handleAndStore request key

/-- A request from its start to its end. -/
def serve (request : HttpRequest) : Program Answer Unit := do
  let _ ← idempotencyMiddleware request
  pure ()

/-! ## Carrying out the calls -/

/-- When a query to the database fails, against its being carried out. -/
inductive Fault where
  | before
  | after
  deriving DecidableEq, Repr

/-- What the store does not decide of a call. -/
structure Circumstance where
  dateNow : Millis
  fault : Option Fault
  handled : Option CachedResponse

/-- A call at the epoch, by which the handler succeeds. -/
def Circumstance.smooth : Circumstance where
  dateNow := 0
  fault := none
  handled := some ⟨200, "{}"⟩

/-- A write is carried out unless the database fails before. -/
def carriesOut (store : AnyIdempotencyStore) (fault : Option Fault) : Bool :=
  match store with
  | .memory _ => true
  | .postgres _ => fault ≠ some .before

def perform {Worker : Type} (_worker : Worker) (call : Call) (circumstance : Circumstance)
    (store : AnyIdempotencyStore) : Answer call × AnyIdempotencyStore :=
  match call with
  | .get _ key =>
    match store with
    | .memory responses =>
      let (lookup, responses) := responses.get key circumstance.dateNow
      (lookup, .memory responses)
    | .postgres responses =>
      if circumstance.fault = none then (responses.select key circumstance.dateNow, store)
      else (.rejected, store)
  | .evict key =>
    match store with
    | .memory responses => ((), .memory (responses.delete key))
    | .postgres responses =>
      if carriesOut store circumstance.fault then ((), .postgres (responses.delete key))
      else ((), store)
  | .handle _ => (circumstance.handled, store)
  | .set _ key response =>
    match store with
    | .memory responses => ((), .memory (responses.set key response circumstance.dateNow))
    | .postgres responses =>
      if carriesOut store circumstance.fault then
        ((), .postgres (responses.set key response circumstance.dateNow))
      else ((), store)

abbrev MiddlewareExchange (Worker : Type) : Type :=
  Exchange Worker Circumstance AnyIdempotencyStore Answer

abbrev MiddlewareWorld (Worker : Type) : Type :=
  World Worker Circumstance AnyIdempotencyStore Answer

/-- Requests of some kind, served side by side over one store, turn by turn. -/
def middlewareRun {Worker : Type} [DecidableEq Worker] (accepted : HttpRequest → Prop)
    (store : AnyIdempotencyStore)
    (turns : List (Turn Worker (Subtype accepted) Circumstance)) :
    System Worker Circumstance AnyIdempotencyStore Answer :=
  interleaved perform (fun request => serve request.1) store turns

end Ancore.Idempotency
