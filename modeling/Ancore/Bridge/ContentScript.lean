import Ancore.Library.Json
import Ancore.Library.Runs

/-! # The bridge between a page and the wallet

`packages/wallet-api` posts a request to its own window and listens for the response.
The content script in the same window relays the request to the background of the
extension, and posts what the background answers.  Both listen to the one stream of
messages of the window, which every script and every frame may post to.
-/

namespace Ancore.Bridge

open Ancore.Library Ancore.Library.EcmaScript

/-! ## Envelopes -/

def ancoreWalletRequest : String := "ANCORE_WALLET_REQUEST"
def ancoreWalletResponse : String := "ANCORE_WALLET_RESPONSE"
def contentScriptSource : String := "ancore-content-script@1"
def walletApiSource : String := "ancore-wallet-api@1"

inductive ExternalApiMethod where
  | requestAccess
  | connect
  | getAddress
  | getNetwork
  | isConnected
  | getSmartAccount
  | getPublicKey
  | signTransaction
  | signAuthEntry
  | signMessage
  | signRelayPayload
  | requestSessionKey
  deriving DecidableEq

def ExternalApiMethod.name : ExternalApiMethod → String
  | requestAccess => "requestAccess"
  | connect => "connect"
  | getAddress => "getAddress"
  | getNetwork => "getNetwork"
  | isConnected => "isConnected"
  | getSmartAccount => "getSmartAccount"
  | getPublicKey => "getPublicKey"
  | signTransaction => "signTransaction"
  | signAuthEntry => "signAuthEntry"
  | signMessage => "signMessage"
  | signRelayPayload => "signRelayPayload"
  | requestSessionKey => "requestSessionKey"

structure ExternalRequestEnvelope where
  requestId : String
  method : String
  params : Value

structure ExternalResponseEnvelope where
  requestId : String
  ok : Bool
  result : Value
  error : Value

def ExternalRequestEnvelope.data (envelope : ExternalRequestEnvelope) : Value :=
  .object fun
    | "type" => .string ancoreWalletRequest
    | "source" => .string walletApiSource
    | "requestId" => .string envelope.requestId
    | "method" => .string envelope.method
    | "params" => envelope.params
    | _ => .undefined

def ExternalResponseEnvelope.data (envelope : ExternalResponseEnvelope) : Value :=
  .object fun
    | "type" => .string ancoreWalletResponse
    | "source" => .string contentScriptSource
    | "requestId" => .string envelope.requestId
    | "ok" => .bool envelope.ok
    | "result" => envelope.result
    | "error" => envelope.error
    | _ => .undefined

/-- `isExternalRequest(data)`, and what the content script then reads of the data. -/
def externalRequest (data : Value) : Option ExternalRequestEnvelope :=
  match data.get "type", data.get "source", data.get "requestId", data.get "method" with
  | .string type, .string source, .string requestId, .string method =>
    if type = ancoreWalletRequest ∧ source = walletApiSource then
      some { requestId, method, params := data.get "params" }
    else none
  | _, _, _, _ => none

/-- `isExternalResponse(data)`, and what the page then reads of the data. -/
def externalResponse (data : Value) : Option ExternalResponseEnvelope :=
  match data.get "type", data.get "source", data.get "requestId", data.get "ok" with
  | .string type, .string source, .string requestId, .bool ok =>
    if type = ancoreWalletResponse ∧ source = contentScriptSource then
      some { requestId, ok, result := data.get "result", error := data.get "error" }
    else none
  | _, _, _, _ => none

section Envelopes

variable (request : ExternalRequestEnvelope) (response : ExternalResponseEnvelope)

@[simp] theorem externalRequest_data : externalRequest request.data = some request := by
  simp [externalRequest, ExternalRequestEnvelope.data, Value.get]

@[simp] theorem externalResponse_data : externalResponse response.data = some response := by
  simp [externalResponse, ExternalResponseEnvelope.data, Value.get]

@[simp] theorem externalResponse_request : externalResponse request.data = none := by
  simp [externalResponse, ExternalRequestEnvelope.data, Value.get]

@[simp] theorem externalRequest_response : externalRequest response.data = none := by
  simp [externalRequest, ExternalResponseEnvelope.data, Value.get]

end Envelopes

/-- What a listener of the window is given; `fromWindow` is `event.source === window`. -/
structure MessageEvent where
  fromWindow : Bool
  origin : String
  data : Value

/-! ## The content script -/

def allowedProtocols : List String := ["https:", "http:"]

def blockedOriginPrefixes : List String :=
  ["chrome-extension://", "moz-extension://", "safari-extension://", "safari-web-extension://",
    "chrome://", "about:", "data:", "blob:", "file://", "javascript:"]

/-- The methods that the content script relays, with their message types. -/
def methodToMessageType : List (String × String) :=
  [(ExternalApiMethod.requestAccess.name, "EXTERNAL_REQUEST_ACCESS"),
    (ExternalApiMethod.connect.name, "EXTERNAL_REQUEST_ACCESS"),
    (ExternalApiMethod.getAddress.name, "EXTERNAL_GET_PUBLIC_KEY"),
    (ExternalApiMethod.getPublicKey.name, "EXTERNAL_GET_PUBLIC_KEY"),
    (ExternalApiMethod.getNetwork.name, "EXTERNAL_GET_NETWORK"),
    (ExternalApiMethod.isConnected.name, "EXTERNAL_IS_CONNECTED"),
    (ExternalApiMethod.getSmartAccount.name, "EXTERNAL_GET_SMART_ACCOUNT"),
    (ExternalApiMethod.signTransaction.name, "EXTERNAL_SIGN_TRANSACTION"),
    (ExternalApiMethod.signAuthEntry.name, "EXTERNAL_SIGN_AUTH_ENTRY"),
    (ExternalApiMethod.signMessage.name, "EXTERNAL_SIGN_MESSAGE"),
    (ExternalApiMethod.requestSessionKey.name, "EXTERNAL_REQUEST_SESSION_KEY")]

/-- A request that was sent to the background: the message, and the `requestId` and the origin that
are kept for the response. -/
structure Relay where
  correlationId : String
  requestId : String
  method : String
  params : Value
  origin : String

/-- `params ?? {}` -/
def orEmpty : Value → Value
  | .undefined => .object fun _ => .undefined
  | .null => .object fun _ => .undefined
  | params => params

def failure (requestId error : String) : ExternalResponseEnvelope where
  requestId
  ok := false
  result := .undefined
  error := .string error

/-- The response to what the background answers; the error is one of `chrome.runtime`. -/
def responseTo (requestId : String) : Except Unit Value → ExternalResponseEnvelope
  | .error () => failure requestId "Request failed"
  | .ok .undefined => failure requestId "No response from background"
  | .ok .null => failure requestId "No response from background"
  | .ok payload =>
    match payload.get "ok" with
    | .bool ok => { requestId, ok, result := payload.get "result", error := payload.get "error" }
    | _ => failure requestId "Malformed background response"

@[simp] theorem responseTo_requestId (requestId : String) (answer : Except Unit Value) :
    (responseTo requestId answer).requestId = requestId := by
  unfold responseTo
  repeat' split <;> try rfl

/-- The content script of a tab. -/
structure ContentScript where
  /-- `new URL(origin).protocol`, where the constructor does not throw -/
  protocolOf : String → Option String
  /-- `window.location.origin` -/
  tabOrigin : String

namespace ContentScript

variable (script : ContentScript)

def isOriginPermitted (origin : String) : Bool :=
  if origin = "" then false
  else if blockedOriginPrefixes.any fun blocked =>
      blocked.toList.isPrefixOf (toLowerCase origin).toList then false
  else
    match script.protocolOf origin with
    | some protocol => allowedProtocols.contains protocol
    | none => false

/-- `respond`: the message that is posted, to this window alone. -/
def respond (response : ExternalResponseEnvelope) (pageOrigin : String) : List MessageEvent :=
  if script.isOriginPermitted pageOrigin then [⟨true, pageOrigin, response.data⟩] else []

/-- The listener: what it posts, and what it sends to the background. -/
def onMessage (event : MessageEvent) (correlationId : String) : List MessageEvent × List Relay :=
  if !event.fromWindow then ([], [])
  else
    match externalRequest event.data with
    | none => ([], [])
    | some request =>
      let browserOrigin := if event.origin = "" then script.tabOrigin else event.origin
      if browserOrigin ≠ script.tabOrigin then ([], [])
      else if !script.isOriginPermitted browserOrigin then
        (script.respond (failure request.requestId "Origin not permitted") browserOrigin, [])
      else
        match methodToMessageType.lookup request.method with
        | none => (script.respond (failure request.requestId "Unknown method") browserOrigin, [])
        | some _ =>
          ([], [{
            correlationId
            requestId := request.requestId
            method := request.method
            params := orEmpty request.params
            origin := browserOrigin }])

end ContentScript

/-! ## The page -/

/-- A call of `sendExternalRequest` whose promise is pending. -/
structure Call where
  requestId : String
  method : ExternalApiMethod
  params : Value

/-- The message that a call posts. -/
def Call.envelope (call : Call) : ExternalRequestEnvelope where
  requestId := call.requestId
  method := call.method.name
  params := call.params

inductive Outcome where
  | resolved (result : Value)
  /-- a `WalletApiError` with that message -/
  | rejected (error : Value)
  /-- `Request timed out after …ms` -/
  | timedOut

def outcomeOf (response : ExternalResponseEnvelope) : Outcome :=
  if response.ok then .resolved response.result
  else
    match response.error with
    | .undefined | .null => .rejected (.string "Unknown wallet error")
    | error => .rejected error

/-- The listener of a call: how it settles, if the message is its response. -/
def Call.onMessage (event : MessageEvent) (call : Call) : Option Outcome :=
  if !event.fromWindow then none
  else
    match externalResponse event.data with
    | none => none
    | some response =>
      if response.requestId = call.requestId then some (outcomeOf response) else none

/-! ## The window -/

structure State where
  listening : List Call := []
  /-- what is posted and not delivered -/
  window : List MessageEvent := []
  /-- what the background has not answered -/
  relays : List Relay := []

inductive Action where
  | call (call : Call)
  /-- another script, or a frame, posts a message -/
  | post (event : MessageEvent)
  | deliver (index : Nat) (correlationId : String)
  | answer (index : Nat) (answer : Except Unit Value)
  | timeout (index : Nat)

structure Output where
  sent : List Relay := []
  settled : List (Call × Outcome) := []

/-- The calls that a message settles. -/
def settledBy (event : MessageEvent) (listening : List Call) : List (Call × Outcome) :=
  listening.filterMap fun call => (call.onMessage event).map (call, ·)

def step (script : ContentScript) (action : Action) (state : State) : Option (Output × State) :=
  match action with
  | .call call =>
    some ({}, { state with
      listening := state.listening ++ [call]
      window := state.window ++ [⟨true, script.tabOrigin, call.envelope.data⟩] })
  | .post event => some ({}, { state with window := state.window ++ [event] })
  | .deliver index correlationId =>
    (state.window[index]?).map fun event =>
      let (posted, sent) := script.onMessage event correlationId
      ({ sent, settled := settledBy event state.listening }, {
        listening := state.listening.filter fun call => (call.onMessage event).isNone
        window := state.window.eraseIdx index ++ posted
        relays := state.relays ++ sent })
  | .answer index answer =>
    (state.relays[index]?).map fun relay =>
      ({}, { state with
        window := state.window ++ script.respond (responseTo relay.requestId answer) relay.origin
        relays := state.relays.eraseIdx index })
  | .timeout index =>
    (state.listening[index]?).map fun call =>
      ({ settled := [(call, .timedOut)] },
        { state with listening := state.listening.eraseIdx index })

end Ancore.Bridge
