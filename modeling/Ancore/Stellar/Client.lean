import Ancore.Library.Attempt
import Ancore.Library.Retries

/-! # Calls of the Soroban servers

`StellarClient.simulateTransaction` of a transaction.  `executeRpcWithFailover` asks one server
after the other and is itself repeated by `withRetry`; both loops go by the same number of
retries, and both ask `isRetryableRpcError` whether to go on.
-/

namespace Ancore.Stellar

open Ancore.Library

/-! ## Errors -/

/-- An `Error`, by its class and with the properties that are looked for on it. -/
inductive Error where
  | plain (message : String) (statusCode status responseStatus : Option ℤ)
  | network (message : String) (statusCode : Option ℤ) (retryable : Option Bool)
  | retryExhausted (attempts : ℕ) (lastError : Option Error)
  | otherStellar (message : String) (statusCode : Option ℤ)

/-- What a call throws, which need not be an `Error`. -/
inductive Thrown where
  | error (error : Error)
  | value (string : String)

/-- `error instanceof Error ? error : new Error(String(error))` -/
def Thrown.toError : Thrown → Error
  | error thrown => thrown
  | value string => .plain string none none none

def Error.isStellarError : Error → Bool
  | plain .. => false
  | network .. | retryExhausted .. | otherStellar .. => true

def Error.isNetworkError : Error → Bool
  | network .. => true
  | plain .. | retryExhausted .. | otherStellar .. => false

def getErrorStatusCode : Error → Option ℤ
  | .network _ statusCode _ => statusCode
  | .plain _ statusCode status responseStatus => statusCode <|> status <|> responseStatus
  | .otherStellar _ statusCode => statusCode
  | .retryExhausted _ _ => none

def isRetryableStatusCode (statusCode : ℤ) : Bool := statusCode == 429 || statusCode ≥ 500

def isRetryableNetworkError : Error → Bool
  | .network _ _ (some retryable) => retryable
  | error =>
    match getErrorStatusCode error with
    | some statusCode => isRetryableStatusCode statusCode
    | none => true

def isRetryableRpcError (error : Error) : Bool :=
  if error.isStellarError && !error.isNetworkError then false else isRetryableNetworkError error

/-! ## The retry helper -/

structure RetryOptions where
  maxRetries : Option ℕ := none
  baseDelayMs : Option ℕ := none
  maxDelayMs : Option ℕ := none
  exponential : Option Bool := none

/-- `DEFAULT_OPTIONS.maxRetries`, which `getRpcFailoverAttemptCount` has as a constant too. -/
def defaultMaxRetries : ℕ := 3

def calculateDelay (attempt baseDelayMs : ℕ) (exponential : Bool) (maxDelayMs : ℕ) : ℕ :=
  if !exponential then min baseDelayMs maxDelayMs
  else min (baseDelayMs * 2 ^ (attempt - 1)) maxDelayMs

section WithRetry

variable {σ α : Type} (sleep : ℕ → Attempt Thrown σ Unit) (fn : Attempt Thrown σ α)
  (options : RetryOptions) (isRetryable : Error → Bool)

/-- The loop of `withRetry` over the attempts that are left. -/
def retryLoop (lastError : Option Error) : List ℕ → Attempt Thrown σ α
  | [] =>
    .throw (.error (.retryExhausted (options.maxRetries.getD defaultMaxRetries + 1) lastError))
  | attempt :: attempts =>
    .tryCatch fn fun thrown =>
      let lastError := thrown.toError
      if attempt > options.maxRetries.getD defaultMaxRetries then
        .throw (.error (.retryExhausted attempt (some lastError)))
      else if !isRetryable lastError then .throw (.error lastError)
      else do
        sleep (calculateDelay attempt (options.baseDelayMs.getD 1000)
          (options.exponential.getD true) (options.maxDelayMs.getD 30000))
        retryLoop (some lastError) attempts

def withRetry : Attempt Thrown σ α :=
  retryLoop sleep fn options isRetryable none
    (List.range' 1 (options.maxRetries.getD defaultMaxRetries + 1))

variable {sleep fn options isRetryable} {lastError : Option Error} {attempt : ℕ}
  {attempts : List ℕ} {state after : σ} {thrown : Thrown}

theorem retryLoop_of_ok {response : α} (answered : fn state = (.ok response, after)) :
    retryLoop sleep fn options isRetryable lastError (attempt :: attempts) state =
      (.ok response, after) := by
  rw [retryLoop, Attempt.tryCatch_of_ok answered]

theorem retryLoop_of_exhausted (failed : fn state = (.error thrown, after))
    (last : attempt > options.maxRetries.getD defaultMaxRetries) :
    retryLoop sleep fn options isRetryable lastError (attempt :: attempts) state =
      (.error (.error (.retryExhausted attempt (some thrown.toError))), after) := by
  rw [retryLoop, Attempt.tryCatch_of_error failed, if_pos last]
  rfl

theorem retryLoop_of_refused (failed : fn state = (.error thrown, after))
    (left : ¬ attempt > options.maxRetries.getD defaultMaxRetries)
    (refused : isRetryable thrown.toError = false) :
    retryLoop sleep fn options isRetryable lastError (attempt :: attempts) state =
      (.error (.error thrown.toError), after) := by
  rw [retryLoop, Attempt.tryCatch_of_error failed, if_neg left, refused]
  rfl

/-- The pause changes the state, and the attempts that are left go on from there. -/
theorem retryLoop_of_retried {paused : σ} (failed : fn state = (.error thrown, after))
    (left : ¬ attempt > options.maxRetries.getD defaultMaxRetries)
    (retried : isRetryable thrown.toError = true)
    (pause : sleep (calculateDelay attempt (options.baseDelayMs.getD 1000)
      (options.exponential.getD true) (options.maxDelayMs.getD 30000)) after = (.ok (), paused)) :
    retryLoop sleep fn options isRetryable lastError (attempt :: attempts) state =
      retryLoop sleep fn options isRetryable (some thrown.toError) attempts paused := by
  rw [retryLoop, Attempt.tryCatch_of_error failed, if_neg left, retried]
  exact Attempt.bind_of_ok pause

end WithRetry

/-! ## The client -/

/-- A client; the constructor refuses a configuration without a usable endpoint. -/
structure StellarClient where
  rpcUrls : List String
  usable : 0 < rpcUrls.length
  currentRpcEndpointIndex : ℕ
  current : currentRpcEndpointIndex < rpcUrls.length
  retryOptions : RetryOptions

def StellarClient.maxRetries (client : StellarClient) : ℕ :=
  client.retryOptions.maxRetries.getD defaultMaxRetries

def StellarClient.getRpcFailoverAttemptCount (client : StellarClient) : ℕ :=
  max client.rpcUrls.length (client.maxRetries + 1)

/-- A call of a server, which is named by its place in the list. -/
structure RpcCall (α : Type) where
  server : ℕ
  outcome : Except Thrown α

/-- What an operation of the client changes, and the calls and pauses it has made. -/
structure RpcState (α : Type) where
  currentRpcEndpointIndex : ℕ
  calls : List (RpcCall α) := []
  slept : List ℕ := []

section Operations

variable {α : Type} (client : StellarClient)

/-- The servers answer each call as they like. -/
def callServer (respond : ℕ → ℕ → Except Thrown α) (server : ℕ) :
    Attempt Thrown (RpcState α) α := fun state =>
  let outcome := respond state.calls.length server
  (outcome, { state with calls := state.calls ++ [⟨server, outcome⟩] })

def sleep (ms : ℕ) : Attempt Thrown (RpcState α) Unit := fun state =>
  (.ok (), { state with slept := state.slept ++ [ms] })

def getCurrentRpcServer : Attempt Thrown (RpcState α) ℕ := fun state =>
  (.ok state.currentRpcEndpointIndex, state)

def rotateRpcEndpoint : Attempt Thrown (RpcState α) Bool := fun state =>
  if client.rpcUrls.length ≤ 1 then (.ok false, state)
  else
    let next := (state.currentRpcEndpointIndex + 1) % client.rpcUrls.length
    (.ok true, { state with currentRpcEndpointIndex := next })

/-- The loop of `executeRpcWithFailover`, with the number of attempts left. -/
def failoverLoop (operation : ℕ → Attempt Thrown (RpcState α) α) (lastError : Option Error) :
    ℕ → Attempt Thrown (RpcState α) α
  | 0 => .throw (.error (lastError.getD (.network "RPC request failed" none none)))
  | attempts + 1 =>
    .tryCatch
      (do
        let server ← getCurrentRpcServer
        operation server)
      fun thrown =>
        let lastError := thrown.toError
        if !isRetryableRpcError lastError then .throw (.error lastError)
        else do
          let _rotated ← rotateRpcEndpoint client
          failoverLoop operation (some lastError) attempts

def executeRpcWithFailover (operation : ℕ → Attempt Thrown (RpcState α) α) :
    Attempt Thrown (RpcState α) α :=
  failoverLoop client operation none client.getRpcFailoverAttemptCount

/-- `simulateTransaction` of a `Transaction`. -/
def simulateTransaction (respond : ℕ → ℕ → Except Thrown α) : Attempt Thrown (RpcState α) α :=
  .tryCatch
    (withRetry sleep (executeRpcWithFailover client (callServer respond)) client.retryOptions
      isRetryableRpcError)
    fun thrown =>
      match thrown with
      | .error (.retryExhausted attempts (some lastError)) =>
        if lastError.isNetworkError then .throw (.error lastError)
        else .throw (.error (.retryExhausted attempts (some lastError)))
      | thrown => .throw thrown

/-- One call of `simulateTransaction`: how it ends, and what it has done. -/
def simulated (respond : ℕ → ℕ → Except Thrown α) : Except Thrown α × RpcState α :=
  simulateTransaction client respond
    { currentRpcEndpointIndex := client.currentRpcEndpointIndex }

end Operations

/-! ## What one operation does -/

/-- The outcome asks for another call. -/
def isRetried {α : Type} : Except Thrown α → Bool
  | .ok _ => false
  | .error thrown => isRetryableRpcError thrown.toError

section Runs

variable {α : Type} (client : StellarClient) (respond : ℕ → ℕ → Except Thrown α)

/-- The server whose turn it is after as many calls that were to be retried. -/
def serverAt (call : ℕ) : ℕ := (client.currentRpcEndpointIndex + call) % client.rpcUrls.length

/-- What the call with this number gets if it is made. -/
def outcomeAt (call : ℕ) : Except Thrown α := respond call (serverAt client call)

def callsUpTo (count : ℕ) : List (RpcCall α) :=
  (List.range count).map fun call => ⟨serverAt client call, outcomeAt client respond call⟩

/-- After some calls that were all to be retried. -/
structure Reached (count : ℕ) (state : RpcState α) : Prop where
  calls : state.calls = callsUpTo client respond count
  turn : state.currentRpcEndpointIndex = serverAt client count

variable {client respond} {count first : ℕ} {state : RpcState α}

theorem callsUpTo_succ (count : ℕ) :
    callsUpTo client respond (count + 1) =
      callsUpTo client respond count ++
        [⟨serverAt client count, outcomeAt client respond count⟩] := by
  rw [callsUpTo, List.range_succ, List.map_append]
  rfl

@[simp] theorem length_callsUpTo (count : ℕ) :
    (callsUpTo client respond count).length = count := by
  rw [callsUpTo, List.length_map, List.length_range]

theorem Reached.slept (reached : Reached client respond count state) (ms : ℕ) :
    Reached client respond count { state with slept := state.slept ++ [ms] } :=
  ⟨reached.calls, reached.turn⟩

/-- One call of the server whose turn it is. -/
theorem Reached.call (reached : Reached client respond first state) :
    (do
      let server ← getCurrentRpcServer
      callServer respond server : Attempt Thrown (RpcState α) α) state =
      (outcomeAt client respond first,
        { state with calls := callsUpTo client respond (first + 1) }) := by
  have answer : callServer respond state.currentRpcEndpointIndex state =
      (outcomeAt client respond first,
        { state with calls := callsUpTo client respond (first + 1) }) := by
    rw [callServer, reached.calls, length_callsUpTo, reached.turn, callsUpTo_succ]
    rfl
  exact answer

theorem rotateRpcEndpoint_eq (turn : state.currentRpcEndpointIndex = serverAt client first) :
    ∃ rotated, rotateRpcEndpoint client state =
      (.ok rotated, { state with currentRpcEndpointIndex := serverAt client (first + 1) }) := by
  have usable := client.usable
  unfold rotateRpcEndpoint
  by_cases single : client.rpcUrls.length ≤ 1
  · have only : client.rpcUrls.length = 1 := by omega
    have same : serverAt client (first + 1) = state.currentRpcEndpointIndex := by
      rw [turn, serverAt, serverAt, only, Nat.mod_one, Nat.mod_one]
    rw [if_pos single, same]
    exact ⟨_, rfl⟩
  · have next : (state.currentRpcEndpointIndex + 1) % client.rpcUrls.length =
        serverAt client (first + 1) := by
      rw [turn, serverAt, serverAt, Nat.mod_add_mod, Nat.add_assoc]
    rw [if_neg single, next]
    exact ⟨_, rfl⟩

/-- What `executeRpcWithFailover` throws for what a call threw. -/
def asError : Except Thrown α → Except Thrown α
  | .ok response => .ok response
  | .error thrown => .error (.error thrown.toError)

theorem asError_eq_ok {outcome : Except Thrown α} {response : α} :
    asError outcome = .ok response ↔ outcome = .ok response := by
  cases outcome with
  | ok answer => rfl
  | error thrown => simp [asError]

theorem failoverLoop_of_stopped {attempts : ℕ} (lastError : Option Error)
    (reached : Reached client respond first state)
    (stops : ¬ isRetried (outcomeAt client respond first)) :
    failoverLoop client (callServer respond) lastError (attempts + 1) state =
      (asError (outcomeAt client respond first),
        { state with calls := callsUpTo client respond (first + 1) }) := by
  have answer := reached.call
  rw [failoverLoop]
  cases outcome : outcomeAt client respond first with
  | ok response =>
    rw [outcome] at answer
    exact Attempt.tryCatch_of_ok answer
  | error thrown =>
    have refused : isRetryableRpcError thrown.toError = false := by
      rw [outcome] at stops
      exact Bool.eq_false_iff.mpr stops
    rw [outcome] at answer
    rw [Attempt.tryCatch_of_error answer, refused]
    rfl

theorem failoverLoop_of_retried (attempts : ℕ) (lastError : Option Error) {thrown : Thrown}
    (reached : Reached client respond first state)
    (outcome : outcomeAt client respond first = .error thrown)
    (retried : isRetryableRpcError thrown.toError) :
    ∃ next, Reached client respond (first + 1) next ∧
      failoverLoop client (callServer respond) lastError (attempts + 1) state =
        failoverLoop client (callServer respond) (some thrown.toError) attempts next := by
  have answer := reached.call
  rw [outcome] at answer
  have turn : RpcState.currentRpcEndpointIndex
      { state with calls := callsUpTo client respond (first + 1) } = serverAt client first :=
    reached.turn
  obtain ⟨rotated, rotation⟩ := rotateRpcEndpoint_eq turn
  refine ⟨{ state with
    calls := callsUpTo client respond (first + 1)
    currentRpcEndpointIndex := serverAt client (first + 1) }, ⟨rfl, rfl⟩, ?_⟩
  rw [failoverLoop, Attempt.tryCatch_of_error answer, retried]
  exact Attempt.bind_of_ok rotation

/-- The servers are called one after the other, and the next one has its turn afterwards when
the last call was to be retried as well. -/
theorem failoverLoop_serves {attempts : ℕ} (lastError : Option Error)
    (reached : Reached client respond first state) :
    ∃ last after,
      failoverLoop client (callServer respond) lastError (attempts + 1) state =
        (asError (outcomeAt client respond (last - 1)), after) ∧
      Repeats (fun call => isRetried (outcomeAt client respond call)) (attempts + 1) first last ∧
      after.calls = callsUpTo client respond last ∧
      (isRetried (outcomeAt client respond (last - 1)) → Reached client respond last after) := by
  induction attempts generalizing lastError first state with
  | zero =>
    by_cases retried : isRetried (outcomeAt client respond first)
    · cases outcome : outcomeAt client respond first with
      | ok response =>
        rw [outcome] at retried
        cases retried
      | error thrown =>
        rw [outcome] at retried
        obtain ⟨next, reachedNext, looped⟩ :=
          failoverLoop_of_retried 0 lastError reached outcome retried
        refine ⟨first + 1, next, ?_, .single, reachedNext.calls, fun _ => reachedNext⟩
        rw [looped, Nat.add_sub_cancel, outcome]
        rfl
    · refine ⟨first + 1, _, failoverLoop_of_stopped lastError reached retried, .single, rfl, ?_⟩
      rw [Nat.add_sub_cancel]
      exact fun again => absurd again retried
  | succ attempts ih =>
    by_cases retried : isRetried (outcomeAt client respond first)
    · cases outcome : outcomeAt client respond first with
      | ok response =>
        rw [outcome] at retried
        cases retried
      | error thrown =>
        obtain ⟨next, reachedNext, looped⟩ := failoverLoop_of_retried (attempts + 1)
          lastError reached outcome (by rwa [outcome] at retried)
        obtain ⟨last, after, rest, repeats, calls, turn⟩ := ih (some thrown.toError) reachedNext
        exact ⟨last, after, looped.trans rest, repeats.cons retried, calls, turn⟩
    · refine ⟨first + 1, _, failoverLoop_of_stopped lastError reached retried,
        .of_not_again (by omega) retried, rfl, ?_⟩
      rw [Nat.add_sub_cancel]
      exact fun again => absurd again retried

/-- All calls that `simulateTransaction` can make. -/
def StellarClient.callBudget (client : StellarClient) : ℕ :=
  (client.maxRetries + 1) * client.getRpcFailoverAttemptCount

theorem executeRpcWithFailover_serves (reached : Reached client respond first state) :
    ∃ last after,
      executeRpcWithFailover client (callServer respond) state =
        (asError (outcomeAt client respond (last - 1)), after) ∧
      Repeats (fun call => isRetried (outcomeAt client respond call))
        client.getRpcFailoverAttemptCount first last ∧
      after.calls = callsUpTo client respond last ∧
      (isRetried (outcomeAt client respond (last - 1)) → Reached client respond last after) := by
  have positive : client.getRpcFailoverAttemptCount =
      client.getRpcFailoverAttemptCount - 1 + 1 := by
    unfold StellarClient.getRpcFailoverAttemptCount
    omega
  rw [executeRpcWithFailover, positive]
  exact failoverLoop_serves none reached

theorem retryLoop_serves {attempt remaining : ℕ} (lastError : Option Error)
    (left : attempt + remaining = client.maxRetries + 1)
    (reached : Reached client respond first state) :
    ∃ last after result,
      retryLoop sleep (executeRpcWithFailover client (callServer respond)) client.retryOptions
        isRetryableRpcError lastError (List.range' attempt (remaining + 1)) state =
        (result, after) ∧
      Repeats (fun call => isRetried (outcomeAt client respond call))
        ((remaining + 1) * client.getRpcFailoverAttemptCount) first last ∧
      after.calls = callsUpTo client respond last ∧
      ∀ response, result = .ok response ↔ outcomeAt client respond (last - 1) = .ok response := by
  induction remaining generalizing attempt lastError first state with
  | zero =>
    obtain ⟨last, after, round, repeats, calls, -⟩ := executeRpcWithFailover_serves reached
    rw [List.range'_succ, Nat.zero_add, Nat.one_mul]
    cases outcome : outcomeAt client respond (last - 1) with
    | ok response =>
      rw [outcome] at round
      refine ⟨last, after, _, retryLoop_of_ok round, repeats, calls, fun answer => ?_⟩
      rw [outcome]
    | error thrown =>
      have exhausted : attempt > client.retryOptions.maxRetries.getD defaultMaxRetries :=
        Nat.lt_of_succ_le (Nat.le_of_eq left.symm)
      rw [outcome] at round
      refine ⟨last, after, _, retryLoop_of_exhausted round exhausted, repeats, calls,
        fun answer => ?_⟩
      rw [outcome]
      exact ⟨nofun, nofun⟩
  | succ remaining ih =>
    obtain ⟨last, after, round, repeats, calls, turn⟩ := executeRpcWithFailover_serves reached
    have allowed : client.getRpcFailoverAttemptCount ≤
        (remaining + 1 + 1) * client.getRpcFailoverAttemptCount :=
      Nat.le_mul_of_pos_left _ (Nat.succ_pos _)
    have attemptsLeft : ¬ attempt > client.retryOptions.maxRetries.getD defaultMaxRetries := by
      have : attempt + (remaining + 1) =
        client.retryOptions.maxRetries.getD defaultMaxRetries + 1 := left
      omega
    rw [List.range'_succ]
    by_cases retried : isRetried (outcomeAt client respond (last - 1))
    · -- the round used its attempts up, and the loop pauses and begins another one
      cases outcome : outcomeAt client respond (last - 1) with
      | ok response =>
        rw [outcome] at retried
        cases retried
      | error thrown =>
        have leftAfter : attempt + 1 + remaining = client.maxRetries + 1 := by omega
        obtain ⟨final, ended, result, rest, repeatsRest, callsRest, answers⟩ :=
          ih (some thrown.toError) leftAfter ((turn retried).slept _)
        rw [outcome] at round
        refine ⟨final, ended, result, ?_, repeats.trans retried repeatsRest, callsRest, answers⟩
        rw [outcome] at retried
        exact (retryLoop_of_retried round attemptsLeft retried rfl).trans rest
    · refine ⟨last, after, asError (outcomeAt client respond (last - 1)), ?_,
        repeats.stopped retried allowed, calls, fun answer => asError_eq_ok⟩
      cases outcome : outcomeAt client respond (last - 1) with
      | ok response =>
        rw [outcome] at round
        exact retryLoop_of_ok round
      | error thrown =>
        have failed : executeRpcWithFailover client (callServer respond) state =
            (.error (.error thrown.toError), after) := by
          rw [round, outcome]
          rfl
        rw [outcome] at retried
        exact (retryLoop_of_refused failed attemptsLeft (Bool.eq_false_iff.mpr retried)).trans rfl

theorem withRetry_serves (reached : Reached client respond first state) :
    ∃ last after result,
      withRetry sleep (executeRpcWithFailover client (callServer respond)) client.retryOptions
        isRetryableRpcError state = (result, after) ∧
      Repeats (fun call => isRetried (outcomeAt client respond call)) client.callBudget first
        last ∧
      after.calls = callsUpTo client respond last ∧
      ∀ response, result = .ok response ↔ outcomeAt client respond (last - 1) = .ok response :=
  retryLoop_serves none (Nat.add_comm 1 client.maxRetries) reached

theorem simulateTransaction_serves (reached : Reached client respond first state) :
    ∃ last after result,
      simulateTransaction client respond state = (result, after) ∧
      Repeats (fun call => isRetried (outcomeAt client respond call)) client.callBudget first
        last ∧
      after.calls = callsUpTo client respond last ∧
      ∀ response, result = .ok response ↔ outcomeAt client respond (last - 1) = .ok response := by
  obtain ⟨last, after, result, looped, repeats, calls, answers⟩ := withRetry_serves reached
  cases result with
  | ok response =>
    exact ⟨last, after, _, Attempt.tryCatch_of_ok looped, repeats, calls, answers⟩
  | error thrown =>
    -- an error is thrown again, though it may be another one
    obtain ⟨other, rethrown⟩ : ∃ other, simulateTransaction client respond state =
        (.error other, after) := by
      rw [simulateTransaction, Attempt.tryCatch_of_error looped]
      split
      · split_ifs <;> exact ⟨_, rfl⟩
      · exact ⟨_, rfl⟩
    refine ⟨last, after, _, rethrown, repeats, calls, fun response => ?_⟩
    rw [← answers response]
    exact ⟨nofun, nofun⟩

end Runs

/-! ## The budget -/

/-- One `simulateTransaction` as it should be: so many calls, none after the first success,
which is what it returns, and none after an error that is not to be retried. -/
structure WithinBudget {α : Type} (client : StellarClient)
    (run : Except Thrown α × RpcState α) : Prop where
  bounded : run.2.calls.length ≤ max client.rpcUrls.length (client.maxRetries + 1)
  success : ∀ before call later response, run.2.calls = before ++ call :: later →
    call.outcome = .ok response → later = [] ∧ run.1 = .ok response
  refused : ∀ before call later thrown, run.2.calls = before ++ call :: later →
    call.outcome = .error thrown → isRetryableRpcError thrown.toError = false → later = []

section Budget

variable {α : Type} {client : StellarClient} {respond : ℕ → ℕ → Except Thrown α}

/-- A call that is not to be retried is the last one. -/
theorem later_eq_nil {last : ℕ} {before later : List (RpcCall α)} {call : RpcCall α}
    (repeats : Repeats (fun call => isRetried (outcomeAt client respond call)) client.callBudget 0
      last)
    (located : callsUpTo client respond last = before ++ call :: later)
    (stops : isRetried call.outcome = false) :
    later = [] ∧ call.outcome = outcomeAt client respond (last - 1) := by
  have lengths : last = before.length + (later.length + 1) := by
    have := congrArg List.length located
    simpa using this
  have here : outcomeAt client respond before.length = call.outcome := by
    have place : (callsUpTo client respond last)[before.length]? = some call := by
      rw [located]
      simp
    rw [callsUpTo, List.getElem?_map, List.getElem?_range (by omega)] at place
    rw [← Option.some.inj place]
  have nothing : later.length = 0 := by
    by_contra more
    have asked := repeats.asked before.length (Nat.zero_le _) (by omega)
    rw [here, stops] at asked
    cases asked
  have final : last - 1 = before.length := by omega
  rw [final, here]
  exact ⟨List.eq_nil_of_length_eq_zero nothing, rfl⟩

/-- The calls stay within the budget exactly when there are no retries, or when one of the
first calls, as many as are allowed, succeeds or fails with an error that is not to be
retried. -/
theorem withinBudget_iff (client : StellarClient) (respond : ℕ → ℕ → Except Thrown α) :
    WithinBudget client (simulated client respond) ↔
      client.maxRetries = 0 ∨
        ∃ call < max client.rpcUrls.length (client.maxRetries + 1),
          isRetried (respond call
            ((client.currentRpcEndpointIndex + call) % client.rpcUrls.length)) = false := by
  have start : Reached client respond 0
      { currentRpcEndpointIndex := client.currentRpcEndpointIndex } :=
    ⟨rfl, (Nat.mod_eq_of_lt client.current).symm⟩
  obtain ⟨last, after, result, run, repeats, calls, answers⟩ := simulateTransaction_serves start
  have positive : 0 < client.getRpcFailoverAttemptCount := lt_max_of_lt_right (Nat.succ_pos _)
  have part : client.getRpcFailoverAttemptCount ≤ client.callBudget :=
    Nat.le_mul_of_pos_left _ (Nat.succ_pos _)
  have whole : client.getRpcFailoverAttemptCount = client.callBudget ↔ client.maxRetries = 0 := by
    rw [StellarClient.callBudget, Nat.succ_mul]
    constructor
    · intro same
      have nothing : client.maxRetries * client.getRpcFailoverAttemptCount = 0 := by omega
      exact (Nat.mul_eq_zero.mp nothing).resolve_right (Nat.ne_of_gt positive)
    · intro no_retries
      rw [no_retries, Nat.zero_mul, Nat.zero_add]
  have bounded : last ≤ client.getRpcFailoverAttemptCount ↔
      client.maxRetries = 0 ∨ ∃ call < client.getRpcFailoverAttemptCount,
        isRetried (outcomeAt client respond call) = false := by
    have calls := repeats.le_iff part
    simpa only [Nat.zero_add, whole, Nat.zero_le, true_and, Bool.not_eq_true] using calls
  rw [simulated, run]
  constructor
  · intro within
    have few := within.bounded
    rw [calls, length_callsUpTo] at few
    exact bounded.mp few
  · intro condition
    refine ⟨?_, ?_, ?_⟩
    · rw [calls, length_callsUpTo]
      exact bounded.mpr condition
    · intro before call later response located answered
      rw [calls] at located
      have stops : isRetried call.outcome = false := by
        rw [answered]
        rfl
      obtain ⟨rfl, final⟩ := later_eq_nil repeats located stops
      exact ⟨rfl, (answers response).mpr (final.symm.trans answered)⟩
    · intro before call later thrown located failed refused
      rw [calls] at located
      have stops : isRetried call.outcome = false := by
        rw [failed]
        exact refused
      exact (later_eq_nil repeats located stops).1

/-- One server that cannot be reached and one retry: four calls. -/
theorem four_calls :
    ¬ ∀ (client : StellarClient) (respond : ℕ → ℕ → Except Thrown Unit),
      WithinBudget client (simulated client respond) := by
  intro within
  let client : StellarClient :=
    ⟨["https://only-rpc.example.com"], by decide, 0, by decide, { maxRetries := some 1 }⟩
  have few :=
    (within client fun _ _ => .error (.error (.network "rpc unreachable" none none))).bounded
  exact absurd few (by decide)

end Budget

end Ancore.Stellar
