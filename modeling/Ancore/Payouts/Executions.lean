import Ancore.Idempotency.Middleware
import Ancore.Library.Outline
import Ancore.Payouts.Checkpoints
import Ancore.Payouts.Csv

/-! # Executing a list again

The page executes a list through the relayer, which keeps the responses of its handler
under the idempotency keys.  The key of a row is made of the row's id, and the same in
every execution of the list; a row that is executed again is answered with the response
of the first time, as long as that is kept (`second_execution_replayed`).
-/

namespace Ancore.Payouts

open Ancore.Library Ancore.Idempotency

/-- A request at the relayer: the execution and the row that it was sent for, and what the relayer
has still to do of it. -/
structure RelayRequest where
  execution : Nat
  row : BulkPayoutRow
  program : Program Answer (Option CachedResponse)

/-- The response, which is sent while it is stored. -/
def RelayRequest.response? (request : RelayRequest) : Option (Option CachedResponse) :=
  match request.program with
  | .done response => some response
  | .call (.set _ _ response) _ => some (some response)
  | .call _ _ => none

/-- What the token and `buildRelayRequest` come to. -/
structure Envelope where
  callerId : String
  body : String

def PayoutSubmission.request (submission : PayoutSubmission) (envelope : Envelope) :
    HttpRequest where
  callerId := envelope.callerId
  idempotencyKey := .single submission.idempotencyKey
  body := envelope.body

structure Dashboard where
  page : World
  executions : Nat
  requests : List RelayRequest
  store : AnyIdempotencyStore

/-- The page before its first execution. -/
def Dashboard.opened (store : AnyIdempotencyStore) : Dashboard where
  page := ⟨none, none⟩
  executions := 0
  requests := []
  store

/-- A row fails where its token, its request or its response does; an answer comes with the message
of what is thrown where the response is no success. -/
inductive Act where
  | press (csv : String)
  | take (worker : Nat) (envelope : Option Envelope)
  | fail (worker : Nat) (message : Option String)
  | answer (worker : Nat) (message : String)
  | finish
  | serve (position : Nat) (circumstance : Circumstance)

inductive Report where
  | page (execution : Nat) (observation : Observation)
  | called (execution : Nat) (row : BulkPayoutRow) (call : Call)

/-- The row that a worker has submitted. -/
def Run.rowOf (run : Run) (worker : Nat) : Option BulkPayoutRow :=
  match run.pool.workers[worker]? with
  | some (.busy index) => run.rows[index]?
  | _ => none

/-- The request of a row that is submitted, where one is sent. -/
def sent (execution : Nat) : Observation → Option Envelope → List RelayRequest
  | .submitted _ row, some envelope =>
    [⟨execution, row, idempotencyMiddleware (row.submission.request envelope)⟩]
  | _, _ => []

section Dashboard

-- whether a body, read as JSON, says `success: false`
variable (declined : String → Bool)

/-- `response.ok && body.success !== false` -/
def succeeds (response : CachedResponse) : Bool :=
  response.successful && !declined response.body

/-- What the submitter makes of a response. -/
def outcomeOf (message : String) : Option CachedResponse → Outcome
  | none => .rejected (some message)
  | some response => if succeeds declined response then .fulfilled else .rejected (some message)

def act : Act → Dashboard → Option (Report × Dashboard)
  | .press csv, dashboard =>
    if isExecutable csv then do
      let (observation, page) ← step (.execute ⟨batchOf csv, none⟩) dashboard.page
      let executions := dashboard.executions + 1
      pure (.page executions observation, { dashboard with page, executions })
    else none
  | .take worker envelope, dashboard => do
    let (observation, page) ← step (.take worker) dashboard.page
    let requests := dashboard.requests ++ sent dashboard.executions observation envelope
    pure (.page dashboard.executions observation, { dashboard with page, requests })
  | .fail worker message, dashboard => do
    let (observation, page) ← step (.settle worker (.rejected message)) dashboard.page
    pure (.page dashboard.executions observation, { dashboard with page })
  | .answer worker message, dashboard => do
    let run ← dashboard.page.running
    let row ← run.rowOf worker
    let request ← dashboard.requests.find? fun request =>
      request.execution = dashboard.executions && request.row = row
    let response ← request.response?
    let (observation, page) ←
      step (.settle worker (outcomeOf declined message response)) dashboard.page
    pure (.page dashboard.executions observation, { dashboard with page })
  | .finish, dashboard => do
    let (observation, page) ← step .finish dashboard.page
    -- `clearBulkPayoutCheckpoint`
    pure (.page dashboard.executions observation,
      { dashboard with page := { page with storage := none } })
  | .serve position circumstance, dashboard => do
    let request ← dashboard.requests[position]?
    match request.program with
    | .done _ => none
    | .call call resume =>
      let (answer, store) := perform () call circumstance dashboard.store
      pure (.called request.execution request.row call,
        { dashboard with
          requests := dashboard.requests.set position { request with program := resume answer }
          store })

abbrev Acts : Type := List (Transition Dashboard Act Report)

/-- The relayer's handler runs for the row in the execution. -/
def Report.handles (execution : Nat) (row : BulkPayoutRow) : Report → Bool
  | called execution' row' (.handle _) => execution' = execution && row' = row
  | _ => false

def Handled (past : Acts) (execution : Nat) (row : BulkPayoutRow) : Prop :=
  ∃ transition ∈ past, transition.output.handles execution row = true

/-- The rows that an execution reports as successes were handled in it. -/
def ReallyPays (transition : Transition Dashboard Act Report) (earlier : Acts) : Prop :=
  match transition.output with
  | .page execution (.finished summary) => ∀ result ∈ summary.results,
    result.status = some .success → Handled earlier execution result.row
  | _ => True

/-- There is a live response under a key that counts as a success. -/
def repliesWith (store : AnyIdempotencyStore) (key : String) (now : Millis) : Bool :=
  match store.responses.entries.lookup key with
  | none => false
  | some entry => !decide (entry.expiresAt < now) && succeeds declined entry.response

/-- The relayer looks a key up under which there is such a response. -/
def replays (transition : Transition Dashboard Act Report) : Bool :=
  match transition.input with
  | .serve position circumstance =>
    match transition.before.requests[position]? with
    | some ⟨_, _, .call (.get _ key) _⟩ =>
      repliesWith declined transition.before.store key circumstance.dateNow
    | _ => false
  | _ => false

end Dashboard

instance (past : Acts) (execution : Nat) (row : BulkPayoutRow) :
    Decidable (Handled past execution row) :=
  inferInstanceAs (Decidable (∃ _ ∈ past, _))

instance (transition : Transition Dashboard Act Report) (earlier : Acts) :
    Decidable (ReallyPays transition earlier) :=
  match same : transition.output with
  | .page execution (.finished summary) =>
    decidable_of_iff (∀ result ∈ summary.results,
      result.status = some .success → Handled earlier execution result.row)
      (by rw [ReallyPays, same])
  | .page _ (.started _) | .page _ (.submitted _ _) | .page _ .stopped | .page _ (.settled _ _)
  | .page _ .ended | .called _ _ _ => isTrue (by rw [ReallyPays, same]; trivial)

/-! ## What the relayer does of a request -/

/-- Where the relayer stands with a request. -/
inductive RequestStage where
  | waiting
  | handled
  | replayed

/-- The calls of a request, and where they lead. -/
inductive RequestStage.Next (declined : String → Bool) : Outline RequestStage Answer
  | replays {request key response} (counts : succeeds declined response = true) :
      Next declined waiting (.get request key) (.found response) replayed
  | declines {request key response} (fails : succeeds declined response = false) :
      Next declined waiting (.get request key) (.found response) waiting
  | looks {request key answer} (nothing : ∀ response, answer ≠ .found response) :
      Next declined waiting (.get request key) answer waiting
  | evicts {key answer} : Next declined waiting (.evict key) answer waiting
  | handles {request answer} : Next declined waiting (.handle request) answer handled
  | stores {request key response answer} :
      Next declined handled (.set request key response) answer handled

section Dashboard

variable {declined : String → Bool}

/-- A response that counts as a success is the handler's, or replayed. -/
def RequestStage.Ends (declined : String → Bool) (response : Option CachedResponse)
    (stage : RequestStage) : Prop :=
  stage = .waiting → ∀ value ∈ response, succeeds declined value = false

theorem succeeds_of_fulfilled {message : String} {response : Option CachedResponse}
    (fulfilled : outcomeOf declined message response = .fulfilled) :
    ∃ value, response = some value ∧ succeeds declined value = true := by
  cases response with
  | none => cases fulfilled
  | some value =>
    rw [outcomeOf] at fulfilled
    split at fulfilled
    · exact ⟨value, rfl, ‹_›⟩
    · cases fulfilled

theorem handleAndStore_pays (request : HttpRequest) (key : String) :
    (handleAndStore request key).Follows (RequestStage.Next declined)
      (RequestStage.Ends declined) .waiting := by
  intro answer
  cases answer with
  | none => exact ⟨.handled, .handles, nofun⟩
  | some response =>
    refine ⟨.handled, .handles, ?_⟩
    change Program.Follows _ _ (if response.successful then _ else _) _
    split
    · exact fun stored => ⟨.handled, .stores, nofun⟩
    · nofun

theorem idempotencyMiddleware_pays (request : HttpRequest) :
    (idempotencyMiddleware request).Follows (RequestStage.Next declined)
      (RequestStage.Ends declined) .waiting := by
  unfold idempotencyMiddleware
  split
  · exact fun answer => ⟨.handled, .handles, nofun⟩
  · rename_i key keyed
    intro lookup
    cases lookup with
    | rejected => exact ⟨.waiting, .looks nofun, nofun⟩
    | found response =>
      cases counts : succeeds declined response with
      | true => exact ⟨.replayed, .replays counts, nofun⟩
      | false =>
        refine ⟨.waiting, .declines counts, ?_⟩
        rintro - value ⟨⟩
        exact counts
    | missing => exact ⟨.waiting, .looks nofun, handleAndStore_pays request key⟩
    | expired =>
      exact ⟨.waiting, .looks nofun, fun evicted =>
        ⟨.waiting, .evicts, handleAndStore_pays request key⟩⟩

/-- A response that is found is one that the store replies with. -/
theorem repliesWith_of_found {request : HttpRequest} {key : String} {circumstance : Circumstance}
    {store : AnyIdempotencyStore} {response : CachedResponse}
    (found : (perform () (.get request key) circumstance store).1 = .found response)
    (counts : succeeds declined response = true) :
    repliesWith declined store key circumstance.dateNow = true := by
  have live {entry : StoredResponse} (stored : store.responses.entries.lookup key = some entry)
      (unexpired : ¬entry.expiresAt < circumstance.dateNow) (same : entry.response = response) :
      repliesWith declined store key circumstance.dateNow = true := by
    rw [repliesWith, stored]
    simp [unexpired, same, counts]
  cases store with
  | memory responses =>
    change (responses.get key circumstance.dateNow).1 = _ at found
    unfold Responses.get at found
    split at found
    · cases found
    · rename_i entry stored
      split at found
      · cases found
      · cases found
        exact live stored ‹_› rfl
  | postgres responses =>
    simp only [perform] at found
    split at found
    · change responses.select key circumstance.dateNow = _ at found
      unfold Responses.select at found
      split at found
      · cases found
      · rename_i entry stored
        split at found
        · cases found
        · cases found
          exact live stored ‹_› rfl
    · cases found

/-- The request stands where its program says, has not been replayed, and was handled if it is past
the handler. -/
def RelayRequest.Sound (declined : String → Bool) (past : Acts) (request : RelayRequest) : Prop :=
  ∃ stage, request.program.Follows (RequestStage.Next declined) (RequestStage.Ends declined) stage ∧
    stage ≠ .replayed ∧ (stage = .handled → Handled past request.execution request.row)

/-- A request that was just sent is sound. -/
theorem sound_sent {past : Acts} (execution : Nat) (row : BulkPayoutRow) (request : HttpRequest) :
    RelayRequest.Sound declined past ⟨execution, row, idempotencyMiddleware request⟩ :=
  ⟨.waiting, idempotencyMiddleware_pays request, nofun, nofun⟩

theorem Handled.later {past : Acts} {execution : Nat} {row : BulkPayoutRow}
    (handled : Handled past execution row) (transition : Transition Dashboard Act Report) :
    Handled (transition :: past) execution row := by
  obtain ⟨earlier, member, handles⟩ := handled
  exact ⟨earlier, List.mem_cons_of_mem _ member, handles⟩

theorem RelayRequest.Sound.later {past : Acts} {request : RelayRequest}
    (sound : request.Sound declined past) (transition : Transition Dashboard Act Report) :
    request.Sound declined (transition :: past) := by
  obtain ⟨stage, follows, fresh, handled⟩ := sound
  exact ⟨stage, follows, fresh, fun past => (handled past).later transition⟩

/-- A request whose response counts as a success was handled. -/
theorem RelayRequest.Sound.handled {past : Acts} {request : RelayRequest}
    {response : CachedResponse} (sound : request.Sound declined past)
    (responds : request.response? = some (some response))
    (counts : succeeds declined response = true) :
    Handled past request.execution request.row := by
  obtain ⟨stage, follows, fresh, handled⟩ := sound
  refine handled ?_
  unfold RelayRequest.response? at responds
  split at responds
  · rename_i ended
    rw [ended] at follows
    cases responds
    cases stage with
    | waiting => rw [follows rfl response rfl] at counts; cases counts
    | handled => rfl
    | replayed => exact absurd rfl fresh
  · rename_i storing
    rw [storing] at follows
    obtain ⟨onward, made, -⟩ := follows ()
    cases made
    rfl
  · cases responds

/-! ## Executions -/

/-- What the page shows as a success was handled, and between executions it keeps nothing. -/
structure Paying (declined : String → Bool) (past : Acts) (dashboard : Dashboard) : Prop where
  idle : dashboard.page.running = none → dashboard.page.storage = none
  requests : ∀ request ∈ dashboard.requests, request.Sound declined past
  settled : ∀ run ∈ dashboard.page.running, ∀ result, some result ∈ run.settled →
    result.status = some .success → Handled past dashboard.executions result.row

section Steps

variable {past : Acts} {dashboard : Dashboard} {page : World} {observation : Observation}
  {transition : Transition Dashboard Act Report}

/-- Between executions nothing is recorded, and the run starts with no success. -/
theorem Paying.press {execution : Execution} (paying : Paying declined past dashboard)
    (stepped : step (.execute execution) dashboard.page = some (observation, page)) :
    Paying declined (transition :: past)
      { dashboard with page, executions := dashboard.executions + 1 } := by
  obtain ⟨idle, -, rfl⟩ := step_execute_eq_some stepped
  refine ⟨nofun, fun request member => (paying.requests request member).later transition, ?_⟩
  rintro _ ⟨⟩ result member success
  have settled : (Run.start dashboard.page.storage execution).settled =
      execution.batch.rows.map (recorded (readCheckpoint dashboard.page.storage _)) := rfl
  rw [settled, paying.idle idle] at member
  obtain ⟨row, -, found⟩ := List.mem_map.mp member
  have nothing : readCheckpoint none execution.batch.batchId = ∅ := rfl
  rw [nothing] at found
  rw [status_of_recorded_empty found] at success
  cases success

theorem Paying.take {worker : Nat} {envelope : Option Envelope}
    (paying : Paying declined past dashboard)
    (stepped : step (.take worker) dashboard.page = some (observation, page)) :
    Paying declined (transition :: past)
      { dashboard with
        page
        requests := dashboard.requests ++ sent dashboard.executions observation envelope } := by
  obtain ⟨run, run', going, taken, rfl⟩ := step_take_eq_some stepped
  have same : run'.settled = run.settled := by
    obtain ⟨pool, -, -, rfl⟩ | ⟨-, -, pool, -, -, -, rfl⟩ := take_eq_some taken
    · rfl
    · rfl
  refine ⟨nofun, fun request member => ?_, ?_⟩
  · rcases List.mem_append.mp member with before | new
    · exact (paying.requests request before).later transition
    · unfold sent at new
      split at new
      · rename_i row envelope
        rw [List.mem_singleton.mp new]
        exact sound_sent dashboard.executions row (row.submission.request envelope)
      · cases new
  · rintro _ ⟨⟩ result member success
    rw [same] at member
    exact (paying.settled run going result member success).later transition

/-- A row that settles as a success was handled, where its outcome says so. -/
theorem Paying.settle {worker : Nat} {outcome : Outcome}
    (paying : Paying declined past dashboard)
    (stepped : step (.settle worker outcome) dashboard.page = some (observation, page))
    (handled : outcome = .fulfilled → ∀ run ∈ dashboard.page.running, ∀ row ∈ run.rowOf worker,
      Handled past dashboard.executions row) :
    Paying declined (transition :: past) { dashboard with page } := by
  obtain ⟨run, run', going, settles, rfl⟩ := step_settle_eq_some stepped
  obtain ⟨index, row, pool, released, located, -, rfl⟩ := settle_eq_some settles
  refine ⟨nofun, fun request member => (paying.requests request member).later transition, ?_⟩
  rintro _ ⟨⟩ result member success
  rcases List.mem_or_eq_of_mem_set member with before | new
  · exact (paying.settled run going result before success).later transition
  · cases new
    have fulfilled : outcome = .fulfilled := by
      cases outcome with
      | fulfilled => rfl
      | rejected message => cases success
    have holds : run.rowOf worker = some row := by
      rw [Run.rowOf, (Pool.release_eq_some released).1]
      exact located
    exact (handled fulfilled run going row holds).later transition

theorem Paying.finish (paying : Paying declined past dashboard)
    (stepped : step .finish dashboard.page = some (observation, page)) :
    Paying declined (transition :: past)
      { dashboard with page := { page with storage := none } } := by
  obtain ⟨run, -, -, -, rfl⟩ := step_finish_eq_some stepped
  exact ⟨fun _ => rfl, fun request member => (paying.requests request member).later transition,
    nofun⟩

/-- A call of a request keeps it sound, where it does not find a success. -/
theorem RelayRequest.Sound.call {request : RelayRequest} {call : Call}
    {resume : Answer call → Program Answer (Option CachedResponse)} {circumstance : Circumstance}
    (sound : request.Sound declined past) (calls : request.program = .call call resume)
    (fresh : ∀ asked key, call = .get asked key →
      repliesWith declined dashboard.store key circumstance.dateNow = false)
    (made : transition.output = .called request.execution request.row call) :
    RelayRequest.Sound declined (transition :: past)
      { request with program := resume (perform () call circumstance dashboard.store).1 } := by
  obtain ⟨stage, follows, notReplayed, handled⟩ := sound
  rw [calls] at follows
  obtain ⟨onward, next, rest⟩ := follows (perform () call circumstance dashboard.store).1
  refine ⟨onward, rest, ?_⟩
  generalize found : (perform () call circumstance dashboard.store).1 = answer at next
  cases next with
  | replays counts =>
    have live := repliesWith_of_found found counts
    rw [fresh _ _ rfl] at live
    cases live
  | declines | looks | evicts => exact ⟨nofun, nofun⟩
  | handles =>
    refine ⟨nofun, fun _ => ⟨transition, List.mem_cons_self, ?_⟩⟩
    rw [made]
    simp [Report.handles]
  | stores => exact ⟨nofun, fun _ => (handled rfl).later transition⟩

theorem reallyPays_of_unfinished
    (unfinished : ∀ execution summary, transition.output ≠ .page execution (.finished summary)) :
    ReallyPays transition past := by
  unfold ReallyPays
  split
  · rename_i finished
    exact absurd finished (unfinished _ _)
  · trivial

theorem paying_of_act (performed : transition.Performed (act declined))
    (fresh : replays declined transition = false)
    (paying : Paying declined past transition.before) :
    Paying declined (transition :: past) transition.after ∧ ReallyPays transition past := by
  obtain ⟨input, dashboard, report, next⟩ := transition
  change act declined input dashboard = some (report, next) at performed
  cases input with
  | press csv =>
    simp only [act] at performed
    split at performed
    · simp only [Option.bind_eq_bind, Option.bind_eq_some_iff, Option.pure_def, Option.some.injEq,
        Prod.exists, Prod.mk.injEq] at performed
      obtain ⟨observation, page, stepped, rfl, rfl⟩ := performed
      refine ⟨paying.press stepped, reallyPays_of_unfinished ?_⟩
      rintro _ _ ⟨⟩
      cases eq_finish_of_finished stepped
    · cases performed
  | take worker envelope =>
    simp only [act, Option.bind_eq_bind, Option.bind_eq_some_iff, Option.pure_def,
      Option.some.injEq, Prod.exists, Prod.mk.injEq] at performed
    obtain ⟨observation, page, stepped, rfl, rfl⟩ := performed
    refine ⟨paying.take stepped, reallyPays_of_unfinished ?_⟩
    rintro _ _ ⟨⟩
    cases eq_finish_of_finished stepped
  | fail worker message =>
    simp only [act, Option.bind_eq_bind, Option.bind_eq_some_iff, Option.pure_def,
      Option.some.injEq, Prod.exists, Prod.mk.injEq] at performed
    obtain ⟨observation, page, stepped, rfl, rfl⟩ := performed
    refine ⟨paying.settle stepped nofun, reallyPays_of_unfinished ?_⟩
    rintro _ _ ⟨⟩
    cases eq_finish_of_finished stepped
  | answer worker message =>
    simp only [act, Option.bind_eq_bind, Option.bind_eq_some_iff, Option.pure_def,
      Option.some.injEq, Prod.exists, Prod.mk.injEq] at performed
    obtain ⟨run, going, row, holds, request, sought, response, responds, observation, page,
      stepped, rfl, rfl⟩ := performed
    refine ⟨paying.settle stepped ?_, reallyPays_of_unfinished ?_⟩
    · intro fulfilled other again row' holds'
      rw [Option.mem_def, going] at again
      cases again
      rw [Option.mem_def, holds] at holds'
      cases holds'
      -- the response is that of the request sent for the row in this execution
      have sound := paying.requests request (List.mem_of_find?_eq_some sought)
      have found := List.find?_some sought
      simp only [Bool.and_eq_true, decide_eq_true_eq] at found
      obtain ⟨same, rfl⟩ := found
      rw [← same]
      obtain ⟨value, rfl, counts⟩ := succeeds_of_fulfilled fulfilled
      exact sound.handled responds counts
    · rintro _ _ ⟨⟩
      cases eq_finish_of_finished stepped
  | finish =>
    simp only [act, Option.bind_eq_bind, Option.bind_eq_some_iff, Option.pure_def,
      Option.some.injEq, Prod.exists, Prod.mk.injEq] at performed
    obtain ⟨observation, page, stepped, rfl, rfl⟩ := performed
    refine ⟨paying.finish stepped, ?_⟩
    obtain ⟨run, going, -, rfl, rfl⟩ := step_finish_eq_some stepped
    intro result member success
    obtain ⟨settled, inside, same⟩ := List.mem_filterMap.mp member
    cases same
    exact paying.settled run going result inside success
  | serve position circumstance =>
    simp only [act, Option.bind_eq_bind, Option.bind_eq_some_iff] at performed
    obtain ⟨request, sought, performed⟩ := performed
    split at performed
    · cases performed
    · rename_i call resume calls
      cases performed
      have sound := paying.requests request (List.mem_of_getElem? sought)
      have notLive (asked : HttpRequest) (key : String) (gets : call = .get asked key) :
          repliesWith declined dashboard.store key circumstance.dateNow = false := by
        subst gets
        obtain ⟨execution, row, program⟩ := request
        dsimp only at calls
        subst calls
        simp only [replays, sought] at fresh
        exact fresh
      refine ⟨⟨paying.idle, fun other member => ?_, fun run going result member success =>
        (paying.settled run going result member success).later _⟩,
        reallyPays_of_unfinished nofun⟩
      rcases List.mem_or_eq_of_mem_set member with before | new
      · exact (paying.requests other before).later _
      · rw [new]
        exact sound.call calls notLive rfl

end Steps

/-- Where no row's key is looked up while a success is kept under it, every success that an
execution reports was handled in it. -/
theorem executions_pay {store : AnyIdempotencyStore} {acts : List Act}
    (fresh : ∀ transition ∈ history (act declined) (.opened store) acts,
      replays declined transition = false) :
    Historically ReallyPays (history (act declined) (.opened store) acts).reverse := by
  have invariant : HistoryInvariant (act declined) (.opened store) fun past reached =>
      (∀ transition ∈ past, replays declined transition = false) →
        Paying declined past.reverse reached ∧ Historically ReallyPays past.reverse := by
    constructor
    · intro _
      exact ⟨⟨fun _ => rfl, nofun, nofun⟩, trivial⟩
    · intro past transition before performed fresh
      rw [List.forall_mem_append] at fresh
      obtain ⟨paying, paid⟩ := before fresh.1
      obtain ⟨kept, pays⟩ := paying_of_act performed (fresh.2 transition List.mem_cons_self) paying
      rw [List.reverse_append, List.reverse_singleton, List.singleton_append]
      exact ⟨kept, pays, paid⟩
  exact (invariant.holds_final acts fresh).2

end Dashboard

/-! ## A list that is executed twice -/

def onePaymentCsv : String :=
  "recipient,amount\nGAAAAAAAAAAAAAAAAAAAAAAAAAAAAAAAAAAAAAAAAAAAAAAAAAAAAWHF,25"

/-- What the store does not decide of a call at some time, where the handler succeeds. -/
def smoothAt (dateNow : Millis) : Circumstance := { Circumstance.smooth with dateNow }

/-- An execution of a list of one row, whose request is the relayer's next. -/
def executeOnce (position : Nat) (dateNow : Millis) (calls : Nat) : List Act :=
  [.press onePaymentCsv, .take 0 (some ⟨"merchant", "{}"⟩)] ++
    List.replicate calls (.serve position (smoothAt dateNow)) ++
    [.answer 0 "", .take 0 none, .finish]

/-- Nothing is kept yet, and responses are kept for five minutes. -/
def emptyStore : AnyIdempotencyStore := .memory ⟨300000, []⟩

/-- The second execution is after six minutes. -/
theorem executions_pay_of_laterExecution :
    Historically ReallyPays (history (act fun _ => false) (.opened emptyStore)
      (executeOnce 0 0 3 ++ executeOnce 1 360000 3)).reverse :=
  executions_pay (by decide +kernel)

/-- The second execution is after a minute. -/
theorem second_execution_replayed :
    ¬Historically ReallyPays (history (act fun _ => false) (.opened emptyStore)
      (executeOnce 0 0 3 ++ executeOnce 1 60000 1)).reverse := by
  decide +kernel

end Ancore.Payouts
