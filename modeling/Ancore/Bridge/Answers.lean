import Ancore.Bridge.ContentScript

/-! # A call is answered by the background, and once

The page runs `packages/wallet-api` alone: other scripts and frames may post what they
like, short of an envelope from the window itself.  `Flow` is what every step keeps.  A
call that is pending has one message on its way, which is its request, the relay of it or
its response (`State.carried`).
-/

namespace Ancore.Bridge

open Ancore.Library Ancore.Library.EcmaScript

abbrev BridgeTransition := Transition State Action Output

/-! ## Runs of the page -/

/-- The call that an action makes. -/
def Action.call? : Action → Option Call
  | .call made => some made
  | _ => none

/-- A message that another script posts is no envelope from the window. -/
def Action.Foreign : Action → Prop
  | .post event => event.fromWindow = true →
      externalRequest event.data = none ∧ externalResponse event.data = none
  | _ => True

def issued (past : List BridgeTransition) : List Call := past.filterMap (·.input.call?)

def settled (past : List BridgeTransition) : List (Call × Outcome) :=
  past.flatMap (·.output.settled)

section Snoc

variable {past : List BridgeTransition} {transition : BridgeTransition}

theorem issued_snoc :
    issued (past ++ [transition]) = issued past ++ transition.input.call?.toList := by
  cases called : transition.input.call? <;> simp [issued, List.filterMap_append, called]

theorem settled_snoc :
    settled (past ++ [transition]) = settled past ++ transition.output.settled := by
  simp [settled, List.flatMap_append]

end Snoc

/-! ## What is on its way -/

/-- The request id of an envelope. -/
def MessageEvent.carried (event : MessageEvent) : Option String :=
  if event.fromWindow then
    ((externalRequest event.data).map (·.requestId)).or
      ((externalResponse event.data).map (·.requestId))
  else none

/-- The request ids that are on their way. -/
def State.carried (state : State) : List String :=
  state.window.filterMap MessageEvent.carried ++ state.relays.map Relay.requestId

variable {script : ContentScript}

/-- The relay of a call. -/
structure Serves (script : ContentScript) (relay : Relay) (call : Call) : Prop where
  permitted : script.isOriginPermitted script.tabOrigin = true
  supported : (methodToMessageType.lookup call.method.name).isSome = true
  requestId : relay.requestId = call.requestId
  method : relay.method = call.method.name
  params : relay.params = orEmpty call.params
  origin : relay.origin = script.tabOrigin

/-- The responses that a call can get: the background has answered its relay, or the content script
does not know the method. -/
inductive Due (script : ContentScript) (past : List BridgeTransition) (call : Call) :
    ExternalResponseEnvelope → Prop
  | unsupported (permitted : script.isOriginPermitted script.tabOrigin = true)
      (unknown : methodToMessageType.lookup call.method.name = none) :
      Due script past call (failure call.requestId "Unknown method")
  | answered {transition : BridgeTransition} {index : Nat} {answer : Except Unit Value}
      {relay : Relay} (member : transition ∈ past)
      (answers : transition.input = .answer index answer)
      (located : transition.before.relays[index]? = some relay)
      (serves : Serves script relay call) :
      Due script past call (responseTo relay.requestId answer)

theorem Due.requestId {past : List BridgeTransition} {call : Call}
    {response : ExternalResponseEnvelope} (due : Due script past call response) :
    response.requestId = call.requestId := by
  cases due with
  | unsupported => rfl
  | answered member answers located serves => rw [responseTo_requestId, serves.requestId]

/-- The messages of a window. -/
inductive Posted (script : ContentScript) (past : List BridgeTransition) : MessageEvent → Prop
  | foreign {event : MessageEvent} (nothing : event.carried = none) : Posted script past event
  | request {call : Call} (made : call ∈ issued past) :
      Posted script past ⟨true, script.tabOrigin, call.envelope.data⟩
  | response {call : Call} {response : ExternalResponseEnvelope} (made : call ∈ issued past)
      (due : Due script past call response) :
      Posted script past ⟨true, script.tabOrigin, response.data⟩

structure Flow (script : ContentScript) (past : List BridgeTransition) (state : State) : Prop where
  posted : ∀ event ∈ state.window, Posted script past event
  relayed : ∀ relay ∈ state.relays, ∃ call ∈ issued past, Serves script relay call
  known : ∀ id ∈ state.carried, ∃ call ∈ issued past, call.requestId = id
  carriedOnce : state.carried.Nodup
  promises : (state.listening ++ (settled past).map Prod.fst).Perm (issued past)
  inFlight : script.isOriginPermitted script.tabOrigin = true →
    ∀ call ∈ state.listening, call.requestId ∈ state.carried

section Messages

variable {event : MessageEvent} {origin : String}

@[simp] theorem carried_request (call : Call) :
    MessageEvent.carried ⟨true, origin, call.envelope.data⟩ = some call.requestId := by
  simp [MessageEvent.carried, Call.envelope]

@[simp] theorem carried_response (response : ExternalResponseEnvelope) :
    MessageEvent.carried ⟨true, origin, response.data⟩ = some response.requestId := by
  simp [MessageEvent.carried]

theorem not_envelope_of_carried (nothing : event.carried = none) :
    event.fromWindow = true →
      externalRequest event.data = none ∧ externalResponse event.data = none := by
  intro own
  simpa [MessageEvent.carried, own] using nothing

theorem onMessage_of_not_request {correlationId : String}
    (nothing : event.fromWindow = true → externalRequest event.data = none) :
    script.onMessage event correlationId = ([], []) := by
  cases own : event.fromWindow with
  | false => simp [ContentScript.onMessage, own]
  | true => simp [ContentScript.onMessage, own, nothing own]

theorem settles_of_not_response {call : Call}
    (nothing : event.fromWindow = true → externalResponse event.data = none) :
    call.onMessage event = none := by
  cases own : event.fromWindow with
  | false => simp [Call.onMessage, own]
  | true => simp [Call.onMessage, own, nothing own]

theorem settles_response (response : ExternalResponseEnvelope) (call : Call) :
    call.onMessage ⟨true, origin, response.data⟩ =
      if response.requestId = call.requestId then some (outcomeOf response) else none := by
  simp [Call.onMessage]

/-- What the content script makes of the request of a call. -/
theorem onMessage_request (call : Call) (correlationId : String) :
    script.onMessage ⟨true, script.tabOrigin, call.envelope.data⟩ correlationId =
      if script.isOriginPermitted script.tabOrigin then
        match methodToMessageType.lookup call.method.name with
        | none =>
          ([⟨true, script.tabOrigin, (failure call.requestId "Unknown method").data⟩], [])
        | some _ => ([], [{
            correlationId
            requestId := call.requestId
            method := call.method.name
            params := orEmpty call.params
            origin := script.tabOrigin }])
      else ([], []) := by
  have origin : (if script.tabOrigin = "" then script.tabOrigin else script.tabOrigin) =
    script.tabOrigin := ite_self _
  cases permitted : script.isOriginPermitted script.tabOrigin with
  | false => simp [ContentScript.onMessage, ContentScript.respond, permitted]
  | true =>
    cases known : methodToMessageType.lookup call.method.name <;>
      simp [ContentScript.onMessage, ContentScript.respond, permitted, Call.envelope, known]

end Messages

/-! ## Steps -/

theorem settledBy_perm (event : MessageEvent) (listening : List Call) :
    ((listening.filter fun call => (call.onMessage event).isNone) ++
      (settledBy event listening).map Prod.fst).Perm listening := by
  have senders : (settledBy event listening).map Prod.fst =
      listening.filter fun call => !(call.onMessage event).isNone := by
    induction listening with
    | nil => rfl
    | cons call listening inductionHypothesis =>
      cases settles : call.onMessage event <;>
        simpa [settledBy, settles] using inductionHypothesis
  rw [senders]
  exact List.filter_append_perm _ listening

section Steps

variable {past : List BridgeTransition} {transition : BridgeTransition} {state : State}
  {before after : State} {output : Output}

theorem perm_eraseIdx {α : Type} {items : List α} {index : Nat} {item : α}
    (located : items[index]? = some item) : items.Perm (item :: items.eraseIdx index) := by
  obtain ⟨within, rfl⟩ := List.getElem?_eq_some_iff.mp located
  exact (List.getElem_cons_eraseIdx_perm within).symm

theorem carried_deliver {index : Nat} {event : MessageEvent}
    (located : state.window[index]? = some event) :
    state.carried.Perm (event.carried.toList ++
      { state with window := state.window.eraseIdx index }.carried) := by
  refine ((perm_eraseIdx located).filterMap _ |>.append_right _).trans ?_
  cases carried : event.carried <;> simp [State.carried, carried]

theorem carried_answer {index : Nat} {relay : Relay}
    (located : state.relays[index]? = some relay) :
    state.carried.Perm (relay.requestId ::
      { state with relays := state.relays.eraseIdx index }.carried) := by
  refine ((perm_eraseIdx located).map _ |>.append_left _).trans ?_
  exact List.perm_middle

theorem mem_issued_snoc {call : Call} (made : call ∈ issued past) :
    call ∈ issued (past ++ [transition]) := by
  rw [issued_snoc]
  exact List.mem_append_left _ made

theorem Due.snoc {call : Call} {response : ExternalResponseEnvelope}
    (due : Due script past call response) : Due script (past ++ [transition]) call response := by
  cases due with
  | unsupported permitted unknown => exact .unsupported permitted unknown
  | answered member answers located serves =>
    exact .answered (List.mem_append_left _ member) answers located serves

theorem Posted.snoc {event : MessageEvent} (posted : Posted script past event) :
    Posted script (past ++ [transition]) event := by
  cases posted with
  | foreign nothing => exact .foreign nothing
  | request made => exact .request (mem_issued_snoc made)
  | response made due => exact .response (mem_issued_snoc made) due.snoc

/-- A step that starts no call keeps what is said of messages that stay. -/
theorem Flow.of_carried {next : State} (flow : Flow script past state)
    (uncalled : transition.input.call? = none)
    (posted : ∀ event ∈ next.window, Posted script (past ++ [transition]) event)
    (relayed : ∀ relay ∈ next.relays, ∃ call ∈ issued past, Serves script relay call)
    (spent : List String) (carried : state.carried.Perm (spent ++ next.carried))
    (promises : (next.listening ++ transition.output.settled.map Prod.fst).Perm state.listening)
    (spared : script.isOriginPermitted script.tabOrigin = true →
      ∀ call ∈ next.listening, call.requestId ∉ spent) :
    Flow script (past ++ [transition]) next := by
  have same : issued (past ++ [transition]) = issued past := by
    rw [issued_snoc, uncalled, Option.toList_none, List.append_nil]
  refine ⟨posted, ?_, ?_, ?_, ?_, ?_⟩
  · rwa [same]
  · intro id member
    rw [same]
    exact flow.known id (carried.mem_iff.mpr (List.mem_append_right _ member))
  · exact (List.nodup_append.mp (carried.nodup_iff.mp flow.carriedOnce)).2.1
  · rw [same, settled_snoc, List.map_append]
    refine List.Perm.trans ?_ flow.promises
    refine List.Perm.trans ?_ (promises.append_right _)
    rw [List.append_assoc]
    exact (List.perm_append_comm).append_left _
  · intro permitted call pending
    have before : call ∈ state.listening := promises.mem_iff.mp (List.mem_append_left _ pending)
    have inFlight := carried.mem_iff.mp (flow.inFlight permitted call before)
    exact (List.mem_append.mp inFlight).resolve_left (spared permitted call pending)

/-- The listeners whose calls a response does not settle wait for another one. -/
theorem not_mem_of_pending {response : ExternalResponseEnvelope} {origin : String} {call : Call}
    (pending : (call.onMessage ⟨true, origin, response.data⟩).isNone = true) :
    call.requestId ∉ [response.requestId] := by
  intro member
  rw [settles_response, if_pos (List.mem_singleton.mp member).symm] at pending
  cases pending

theorem Flow.call {call : Call} (flow : Flow script past before)
    (performed : step script (.call call) before = some (output, after))
    (distinct : ((issued (past ++ [⟨.call call, before, output, after⟩])).map
      Call.requestId).Nodup) :
    Flow script (past ++ [⟨.call call, before, output, after⟩]) after := by
  have made : issued (past ++ [⟨.call call, before, output, after⟩]) = issued past ++ [call] :=
    issued_snoc
  cases performed
  rw [made, List.map_append] at distinct
  have fresh : call.requestId ∉ before.carried := by
    intro member
    obtain ⟨other, earlier, same⟩ := flow.known _ member
    exact (List.nodup_append.mp distinct).2.2 _ (List.mem_map_of_mem earlier) _
      (List.mem_singleton_self _) same
  have carried : State.carried { before with
      listening := before.listening ++ [call]
      window := before.window ++ [⟨true, script.tabOrigin, call.envelope.data⟩] } =
      before.window.filterMap MessageEvent.carried ++ call.requestId ::
        before.relays.map Relay.requestId := by
    simp [State.carried]
  refine ⟨?_, ?_, ?_, ?_, ?_, ?_⟩
  · intro event member
    obtain earlier | added := List.mem_append.mp member
    · exact (flow.posted event earlier).snoc
    · rw [List.mem_singleton.mp added]
      exact .request (by rw [made]; exact List.mem_append_right _ (List.mem_singleton_self _))
  · intro relay member
    obtain ⟨served, earlier, serves⟩ := flow.relayed relay member
    exact ⟨served, mem_issued_snoc earlier, serves⟩
  · intro id member
    rw [carried, List.perm_middle.mem_iff] at member
    rw [made]
    obtain rfl | earlier := List.mem_cons.mp member
    · exact ⟨call, List.mem_append_right _ (List.mem_singleton_self _), rfl⟩
    · obtain ⟨other, known, same⟩ := flow.known id earlier
      exact ⟨other, List.mem_append_left _ known, same⟩
  · rw [carried, List.perm_middle.nodup_iff, List.nodup_cons]
    exact ⟨fresh, flow.carriedOnce⟩
  · rw [made, settled_snoc]
    refine List.Perm.trans ?_ (flow.promises.append_right _)
    simp only [List.append_nil, List.append_assoc]
    exact (List.perm_append_comm).append_left _
  · intro permitted pending member
    rw [carried, List.perm_middle.mem_iff]
    obtain earlier | added := List.mem_append.mp member
    · exact List.mem_cons_of_mem _ (flow.inFlight permitted pending earlier)
    · rw [List.mem_singleton.mp added]
      exact List.mem_cons_self

theorem Flow.deliver {index : Nat} {correlationId : String}
    (flow : Flow script past before)
    (performed : step script (.deliver index correlationId) before = some (output, after)) :
    Flow script (past ++ [⟨.deliver index correlationId, before, output, after⟩]) after := by
  obtain ⟨event, located, made⟩ := Option.map_eq_some_iff.mp performed
  have carried := carried_deliver located
  -- the messages that stay
  have stay : ∀ other ∈ before.window.eraseIdx index,
      Posted script (past ++ [⟨.deliver index correlationId, before, output, after⟩]) other :=
    fun other member => (flow.posted other (List.mem_of_mem_eraseIdx member)).snoc
  cases flow.posted event (List.mem_of_getElem? located) with
  | foreign nothing =>
    have plain := not_envelope_of_carried nothing
    rw [onMessage_of_not_request fun own => (plain own).1] at made
    cases made
    refine flow.of_carried rfl ?_ ?_ [] ?_ (settledBy_perm event before.listening) ?_
    · simpa using stay
    · simpa using flow.relayed
    · simpa [nothing, State.carried] using carried
    · exact fun _ _ _ => List.not_mem_nil
  | @request call issued =>
    rw [onMessage_request] at made
    cases permitted : script.isOriginPermitted script.tabOrigin with
    | false =>
      rw [permitted] at made
      cases made
      refine flow.of_carried rfl ?_ ?_ [call.requestId] ?_ (settledBy_perm _ before.listening) ?_
      · simpa using stay
      · simpa using flow.relayed
      · simpa [State.carried] using carried
      · rw [permitted]
        exact nofun
    | true =>
      rw [permitted, if_pos rfl] at made
      cases supported : methodToMessageType.lookup call.method.name with
      | none =>
        rw [supported] at made
        cases made
        refine flow.of_carried rfl ?_ ?_ [] ?_ (settledBy_perm _ before.listening) ?_
        · refine List.forall_mem_append.mpr ⟨stay, ?_⟩
          rw [List.forall_mem_singleton]
          exact .response (mem_issued_snoc issued) (.unsupported permitted supported)
        · simpa using flow.relayed
        · refine carried.trans ?_
          simpa [State.carried, failure] using List.perm_middle.symm
        · exact fun _ _ _ => List.not_mem_nil
      | some messageType =>
        rw [supported] at made
        cases made
        refine flow.of_carried rfl ?_ ?_ [] ?_ (settledBy_perm _ before.listening) ?_
        · simpa using stay
        · refine List.forall_mem_append.mpr ⟨flow.relayed, ?_⟩
          rw [List.forall_mem_singleton]
          exact ⟨call, issued, permitted, by rw [supported]; rfl, rfl, rfl, rfl, rfl⟩
        · refine carried.trans ?_
          simpa [State.carried, ← List.append_assoc] using (List.perm_append_singleton _ _).symm
        · exact fun _ _ _ => List.not_mem_nil
  | @response call response issued due =>
    rw [onMessage_of_not_request fun _ => externalRequest_response response] at made
    cases made
    refine flow.of_carried rfl ?_ ?_ [response.requestId] ?_ (settledBy_perm _ before.listening) ?_
    · simpa using stay
    · simpa using flow.relayed
    · simpa [State.carried] using carried
    · intro _ call pending
      exact not_mem_of_pending (List.mem_filter.mp pending).2

theorem Flow.answer {index : Nat} {answer : Except Unit Value}
    (flow : Flow script past before)
    (performed : step script (.answer index answer) before = some (output, after)) :
    Flow script (past ++ [⟨.answer index answer, before, output, after⟩]) after := by
  obtain ⟨relay, located, made⟩ := Option.map_eq_some_iff.mp performed
  obtain ⟨call, issued, serves⟩ := flow.relayed relay (List.mem_of_getElem? located)
  have response : script.respond (responseTo relay.requestId answer) relay.origin =
      [⟨true, script.tabOrigin, (responseTo relay.requestId answer).data⟩] := by
    rw [ContentScript.respond, serves.origin, serves.permitted, if_pos rfl]
  rw [response] at made
  have member := List.mem_append_right past (List.mem_singleton_self
    (⟨.answer index answer, before, output, after⟩ : BridgeTransition))
  cases made
  refine flow.of_carried rfl ?_ ?_ [] ?_ (by simp) ?_
  · refine List.forall_mem_append.mpr ⟨fun other member => (flow.posted other member).snoc, ?_⟩
    rw [List.forall_mem_singleton]
    exact .response (mem_issued_snoc issued) (.answered member rfl located serves)
  · exact fun other member => flow.relayed other (List.mem_of_mem_eraseIdx member)
  · refine (carried_answer located).trans ?_
    simpa [State.carried] using List.perm_middle.symm
  · exact fun _ _ _ => List.not_mem_nil

theorem Flow.timeout {index : Nat} (flow : Flow script past before)
    (performed : step script (.timeout index) before = some (output, after)) :
    Flow script (past ++ [⟨.timeout index, before, output, after⟩]) after := by
  obtain ⟨call, located, made⟩ := Option.map_eq_some_iff.mp performed
  cases made
  refine flow.of_carried rfl (fun other member => (flow.posted other member).snoc) flow.relayed []
    (List.Perm.refl _) ?_ fun _ _ _ => List.not_mem_nil
  exact (List.perm_append_singleton _ _).trans (perm_eraseIdx located).symm

theorem Flow.post {event : MessageEvent} (flow : Flow script past before)
    (foreign : (Action.post event).Foreign)
    (performed : step script (.post event) before = some (output, after)) :
    Flow script (past ++ [⟨.post event, before, output, after⟩]) after := by
  cases performed
  have nothing : event.carried = none := by
    cases own : event.fromWindow with
    | false => simp [MessageEvent.carried, own]
    | true => simp [MessageEvent.carried, own, foreign own]
  refine flow.of_carried rfl ?_ flow.relayed [] ?_ (by simp) fun _ _ _ => List.not_mem_nil
  · refine List.forall_mem_append.mpr ⟨fun other member => (flow.posted other member).snoc, ?_⟩
    rw [List.forall_mem_singleton]
    exact .foreign nothing
  · simp [State.carried, nothing]

theorem Flow.snoc (flow : Flow script past transition.before)
    (performed : transition.Performed (step script)) (foreign : transition.input.Foreign)
    (distinct : ((issued (past ++ [transition])).map Call.requestId).Nodup) :
    Flow script (past ++ [transition]) transition.after := by
  obtain ⟨input, before, output, after⟩ := transition
  cases input with
  | call call => exact flow.call performed distinct
  | post event => exact flow.post foreign performed
  | deliver index correlationId => exact flow.deliver performed
  | answer index answer => exact flow.answer performed
  | timeout index => exact flow.timeout performed

end Steps

/-! ## Runs -/

/-- The page has made its calls under different ids, and other scripts have stayed foreign. -/
def Calm (past : List BridgeTransition) : Prop :=
  ((issued past).map Call.requestId).Nodup ∧ ∀ transition ∈ past, transition.input.Foreign

theorem Calm.earlier {past later : List BridgeTransition} (calm : Calm (past ++ later)) :
    Calm past := by
  refine ⟨?_, fun transition member => calm.2 transition (List.mem_append_left _ member)⟩
  have all := calm.1
  rw [issued, List.filterMap_append, List.map_append] at all
  exact (List.nodup_append.mp all).1

theorem flow_invariant (script : ContentScript) :
    HistoryInvariant (step script) {} fun past state => Calm past → Flow script past state where
  init := fun _ =>
    ⟨List.forall_mem_nil _, List.forall_mem_nil _, List.forall_mem_nil _, List.nodup_nil,
      List.Perm.refl _, fun _ => List.forall_mem_nil _⟩
  preserved := fun _ transition flow performed calm =>
    (flow calm.earlier).snoc performed
      (calm.2 transition (List.mem_append_right _ (List.mem_singleton_self _))) calm.1

section Run

variable {actions : List Action}

/-- Every call of the page is made. -/
theorem issued_history (script : ContentScript) (state : State) (actions : List Action) :
    issued (history (step script) state actions) = actions.filterMap Action.call? := by
  induction actions generalizing state with
  | nil => rfl
  | cons action actions inductionHypothesis =>
    simp only [history]
    split
    · rw [issued, List.filterMap_cons, List.filterMap_cons, ← inductionHypothesis]
      rfl
    · rename_i failed
      rw [inductionHypothesis, List.filterMap_cons]
      cases action with
      | call call => cases failed
      | post event => rfl
      | deliver index correlationId => rfl
      | answer index answer => rfl
      | timeout index => rfl

theorem calm_history (distinct : ((actions.filterMap Action.call?).map Call.requestId).Nodup)
    (foreign : ∀ action ∈ actions, action.Foreign) :
    Calm (history (step script) {} actions) := by
  refine ⟨by rwa [issued_history], fun transition member => foreign _ ?_⟩
  exact (history_inputs_sublist _ _ actions).subset (List.mem_map_of_mem member)

/-- Two calls of one id are the same. -/
theorem call_eq_of_requestId {calls : List Call} (distinct : (calls.map Call.requestId).Nodup)
    {call other : Call} (member : call ∈ calls) (also : other ∈ calls)
    (same : call.requestId = other.requestId) : call = other :=
  List.inj_on_of_nodup_map distinct member also same

theorem due_of_settled {past : List BridgeTransition} {before after : State} {action : Action}
    {output : Output} (flow : Flow script past before)
    (performed : step script action before = some (output, after))
    (distinct : ((issued past).map Call.requestId).Nodup) {call : Call} {outcome : Outcome}
    (settles : (call, outcome) ∈ output.settled) :
    outcome = .timedOut ∨
      ∃ response, Due script past call response ∧ outcome = outcomeOf response := by
  cases action with
  | call call => cases performed; cases settles
  | post event => cases performed; cases settles
  | answer index answer =>
    obtain ⟨relay, -, made⟩ := Option.map_eq_some_iff.mp performed
    cases made
    cases settles
  | timeout index =>
    obtain ⟨pending, -, made⟩ := Option.map_eq_some_iff.mp performed
    cases made
    cases List.mem_singleton.mp settles
    exact .inl rfl
  | deliver index correlationId =>
    obtain ⟨event, located, made⟩ := Option.map_eq_some_iff.mp performed
    cases made
    obtain ⟨listener, pending, settledNow⟩ := List.mem_filterMap.mp settles
    obtain ⟨result, heard, same⟩ := Option.map_eq_some_iff.mp settledNow
    cases same
    cases flow.posted event (List.mem_of_getElem? located) with
    | foreign nothing =>
      rw [settles_of_not_response fun own => (not_envelope_of_carried nothing own).2] at heard
      cases heard
    | request made =>
      rw [settles_of_not_response fun _ => externalResponse_request _] at heard
      cases heard
    | @response served response made due =>
      rw [settles_response, Option.ite_none_right_eq_some] at heard
      obtain ⟨same, heard⟩ := heard
      have known : call ∈ issued past :=
        flow.promises.mem_iff.mp (List.mem_append_left _ pending)
      cases call_eq_of_requestId distinct made known (due.requestId.symm.trans same)
      exact .inr ⟨response, due, (Option.some.inj heard).symm⟩

/-! ### Calls that are pending -/

/-- What the window and the background do by themselves. -/
def Action.IsDelivery : Action → Prop
  | .deliver _ _ => True
  | .answer _ _ => True
  | _ => False

/-- Deliveries and answers come to a response that settles the call. -/
def CanSettle (script : ContentScript) (state : State) (call : Call) : Prop :=
  ∃ more : List Action, (∀ action ∈ more, action.IsDelivery) ∧
    ∃ outcome, (call, outcome) ∈ settled (history (step script) state more)

section Pending

variable {state next : State} {output : Output} {action : Action} {call : Call}

theorem CanSettle.of_step (delivery : action.IsDelivery)
    (performed : step script action state = some (output, next))
    (later : CanSettle script next call) : CanSettle script state call := by
  obtain ⟨more, deliveries, outcome, settles⟩ := later
  refine ⟨action :: more, List.forall_mem_cons.mpr ⟨delivery, deliveries⟩, outcome, ?_⟩
  rw [history_of_performed _ performed, settled, List.flatMap_cons]
  exact List.mem_append_right _ settles

/-- A response on its way settles the call when it is delivered. -/
theorem canSettle_of_response {origin : String} {response : ExternalResponseEnvelope}
    (pending : call ∈ state.listening) (same : response.requestId = call.requestId)
    (posted : ⟨true, origin, response.data⟩ ∈ state.window) : CanSettle script state call := by
  obtain ⟨index, located⟩ := List.mem_iff_getElem?.mp posted
  refine ⟨[.deliver index ""], List.forall_mem_singleton.mpr trivial, outcomeOf response, ?_⟩
  have performed : step script (.deliver index "") state = some _ :=
    congrArg (Option.map _) located
  rw [history_of_performed _ performed, settled, List.flatMap_cons]
  refine List.mem_append_left _ (List.mem_filterMap.mpr ⟨call, pending, ?_⟩)
  rw [settles_response, if_pos same]
  rfl

/-- So does a relay, whatever the background answers to it. -/
theorem canSettle_of_relay {relay : Relay} (pending : call ∈ state.listening)
    (serves : Serves script relay call) (sent : relay ∈ state.relays) :
    CanSettle script state call := by
  obtain ⟨index, located⟩ := List.mem_iff_getElem?.mp sent
  have performed : step script (.answer index (.error ())) state = some _ :=
    congrArg (Option.map _) located
  refine CanSettle.of_step (show (Action.answer index (.error ())).IsDelivery from trivial)
    performed ?_
  have posted : (⟨true, script.tabOrigin, (responseTo relay.requestId (.error ())).data⟩ :
      MessageEvent) ∈ script.respond (responseTo relay.requestId (.error ())) relay.origin := by
    rw [ContentScript.respond, serves.origin, serves.permitted, if_pos rfl]
    exact List.mem_singleton_self _
  exact canSettle_of_response pending ((responseTo_requestId _ _).trans serves.requestId)
    (List.mem_append_right _ posted)

theorem step_deliver {index : Nat} {correlationId : String} {event : MessageEvent}
    {posted : List MessageEvent} {sent : List Relay}
    (located : state.window[index]? = some event)
    (reaction : script.onMessage event correlationId = (posted, sent)) :
    step script (.deliver index correlationId) state =
      some ({ sent, settled := settledBy event state.listening }, {
        listening := state.listening.filter fun call => (call.onMessage event).isNone
        window := state.window.eraseIdx index ++ posted
        relays := state.relays ++ sent }) := by
  simp only [step, located, reaction, Option.map_some]

/-- And so does a request, which the content script answers or relays. -/
theorem canSettle_of_request (permitted : script.isOriginPermitted script.tabOrigin = true)
    (pending : call ∈ state.listening)
    (posted : ⟨true, script.tabOrigin, call.envelope.data⟩ ∈ state.window) :
    CanSettle script state call := by
  obtain ⟨index, located⟩ := List.mem_iff_getElem?.mp posted
  have reaction := @onMessage_request script call ""
  rw [permitted, if_pos rfl] at reaction
  have delivery : (Action.deliver index "").IsDelivery := trivial
  -- nobody takes a request for a response
  have waits : call ∈ state.listening.filter fun other =>
      (other.onMessage ⟨true, script.tabOrigin, call.envelope.data⟩).isNone := by
    refine List.mem_filter.mpr ⟨pending, ?_⟩
    rw [settles_of_not_response fun _ => externalResponse_request _]
    rfl
  cases supported : methodToMessageType.lookup call.method.name with
  | none =>
    rw [supported] at reaction
    exact CanSettle.of_step delivery (step_deliver located reaction)
      (canSettle_of_response waits rfl (List.mem_append_right _ (List.mem_singleton_self _)))
  | some messageType =>
    rw [supported] at reaction
    exact CanSettle.of_step delivery (step_deliver located reaction)
      (canSettle_of_relay waits ⟨permitted, by rw [supported]; rfl, rfl, rfl, rfl, rfl⟩
        (List.mem_append_right _ (List.mem_singleton_self _)))

/-- A call in flight has its request, its relay or its response on the way. -/
theorem Flow.canSettle {past : List BridgeTransition} (flow : Flow script past state)
    (distinct : ((issued past).map Call.requestId).Nodup)
    (permitted : script.isOriginPermitted script.tabOrigin = true)
    (pending : call ∈ state.listening) : CanSettle script state call := by
  have known : call ∈ issued past := flow.promises.mem_iff.mp (List.mem_append_left _ pending)
  obtain inWindow | inRelays := List.mem_append.mp (flow.inFlight permitted call pending)
  · obtain ⟨event, posted, carried⟩ := List.mem_filterMap.mp inWindow
    cases flow.posted event posted with
    | foreign nothing =>
      rw [nothing] at carried
      cases carried
    | request made =>
      rw [carried_request, Option.some.injEq] at carried
      cases call_eq_of_requestId distinct made known carried
      exact canSettle_of_request permitted pending posted
    | response made due =>
      rw [carried_response, Option.some.injEq] at carried
      exact canSettle_of_response pending carried posted
  · obtain ⟨relay, sent, same⟩ := List.mem_map.mp inRelays
    obtain ⟨served, made, serves⟩ := flow.relayed relay sent
    cases call_eq_of_requestId distinct made known (serves.requestId.symm.trans same)
    exact canSettle_of_relay pending serves sent

end Pending

/-! ### A page that makes two calls -/

def samplePage : ContentScript where
  protocolOf origin := if origin = "https://dapp.example" then some "https:" else none
  tabOrigin := "https://dapp.example"

def sampleConnect : Call := ⟨"1", .connect, .undefined⟩
def sampleRelayPayload : Call := ⟨"2", .signRelayPayload, .object fun _ => .undefined⟩

/-- The background answers the first call after the second one was found unknown. -/
def sampleActions : List Action :=
  [.call sampleConnect, .call sampleRelayPayload, .deliver 0 "c1", .deliver 0 "c2",
    .answer 0 (.ok (.object fun name => if name = "ok" then .bool true else .undefined)),
    .deliver 0 "c3", .deliver 0 "c4"]

theorem samplePage_permitted : samplePage.isOriginPermitted samplePage.tabOrigin = true := by
  decide

theorem sampleActions_distinct :
    ((sampleActions.filterMap Action.call?).map Call.requestId).Nodup := by
  decide

theorem sampleActions_foreign : ∀ action ∈ sampleActions, action.Foreign := by
  simp [sampleActions, Action.Foreign]

/-- Calls under different ids, whatever else is posted short of an envelope: each call is pending or
has settled, once, by its timer or by its own answer of the background. -/
theorem calls_settle_once (script : ContentScript)
    (distinct : ((actions.filterMap Action.call?).map Call.requestId).Nodup)
    (foreign : ∀ action ∈ actions, action.Foreign) :
    ((final (step script) {} actions).listening ++
        (settled (history (step script) {} actions)).map Prod.fst).Perm
          (actions.filterMap Action.call?) ∧
      ∀ earlier transition later,
        history (step script) {} actions = earlier ++ transition :: later →
          ∀ call outcome, (call, outcome) ∈ transition.output.settled →
            outcome = .timedOut ∨
              ∃ response, Due script earlier call response ∧ outcome = outcomeOf response := by
  have calm := @calm_history script _ distinct foreign
  refine ⟨?_, fun earlier transition later located call outcome settles => ?_⟩
  · rw [← issued_history script {} actions]
    exact ((flow_invariant script).holds_final actions calm).promises
  · rw [located] at calm
    obtain ⟨flow, performed⟩ := (flow_invariant script).holds_before located
    exact due_of_settled (flow calm.earlier) performed calm.earlier.1 settles

theorem calls_settle_once_of_samplePage :
    (settled (history (step samplePage) {} sampleActions)).length = 2 ∧
      ((final (step samplePage) {} sampleActions).listening ++
        (settled (history (step samplePage) {} sampleActions)).map Prod.fst).Perm
          [sampleConnect, sampleRelayPayload] :=
  ⟨rfl, (calls_settle_once samplePage sampleActions_distinct sampleActions_foreign).1⟩

/-- On a page whose origin is permitted a pending call has one message on its way, and it settles
when the window and the background go on delivering. -/
theorem pending_calls_in_flight (script : ContentScript)
    (distinct : ((actions.filterMap Action.call?).map Call.requestId).Nodup)
    (foreign : ∀ action ∈ actions, action.Foreign)
    (permitted : script.isOriginPermitted script.tabOrigin = true) :
    ∀ call ∈ (final (step script) {} actions).listening,
      (final (step script) {} actions).carried.count call.requestId = 1 ∧
        CanSettle script (final (step script) {} actions) call := by
  intro call pending
  have calm := @calm_history script _ distinct foreign
  have flow := (flow_invariant script).holds_final actions calm
  exact ⟨List.count_eq_one_of_mem flow.carriedOnce (flow.inFlight permitted call pending),
    flow.canSettle calm.1 permitted pending⟩

theorem pending_calls_in_flight_of_samplePage :
    (final (step samplePage) {} [.call sampleConnect]).carried.count "1" = 1 ∧
      CanSettle samplePage (final (step samplePage) {} [.call sampleConnect]) sampleConnect :=
  @pending_calls_in_flight [.call sampleConnect] samplePage (List.nodup_singleton _)
    (List.forall_mem_singleton.mpr trivial) samplePage_permitted sampleConnect
    (List.mem_singleton_self _)

/-- A call of `signRelayPayload` is never served: it ends as unknown, or with its timer. -/
theorem relay_payload_unknown (script : ContentScript)
    (distinct : ((actions.filterMap Action.call?).map Call.requestId).Nodup)
    (foreign : ∀ action ∈ actions, action.Foreign) :
    ∀ transition ∈ history (step script) {} actions, ∀ call outcome,
      (call, outcome) ∈ transition.output.settled → call.method = .signRelayPayload →
        outcome = .timedOut ∨ outcome = .rejected (.string "Unknown method") := by
  intro transition member call outcome settles method
  obtain ⟨earlier, later, located⟩ := List.append_of_mem member
  have calm := @calm_history script _ distinct foreign
  rw [located] at calm
  obtain ⟨flow, performed⟩ := (flow_invariant script).holds_before located
  obtain late | ⟨response, due, rfl⟩ :=
    due_of_settled (flow calm.earlier) performed calm.earlier.1 settles
  · exact .inl late
  · cases due with
    | unsupported => exact .inr rfl
    | answered member answers located serves =>
      have supported := serves.supported
      rw [method] at supported
      cases supported

theorem relay_payload_unknown_of_samplePage :
    (settled (history (step samplePage) {} sampleActions)).map (·.1.method) =
        [.signRelayPayload, .connect] ∧
      ∀ transition ∈ history (step samplePage) {} sampleActions, ∀ call outcome,
        (call, outcome) ∈ transition.output.settled → call.method = .signRelayPayload →
          outcome = .timedOut ∨ outcome = .rejected (.string "Unknown method") :=
  ⟨rfl, relay_payload_unknown samplePage sampleActions_distinct sampleActions_foreign⟩

end Run

end Ancore.Bridge
