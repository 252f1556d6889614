import Mathlib.Logic.Function.Basic

/-! # The queue of approvals

A request of a site waits in the queue until the user has decided.  Three maps are
kept by the id of the request: the pending approvals and the callbacks in memory,
and the entries of the session storage, which content scripts poll.  A request id
is drawn at random, so each id has one handler; `Entry` is what there is of a
request under its id. -/

namespace Ancore.Approvals

abbrev RequestId : Type := String

abbrev Millis : Type := Int

/-- The message of an error. -/
abbrev Thrown : Type := String

/-! ## Requests -/

/-- The methods that ask for approval. -/
inductive Method where
  | requestAccess
  | signTransaction
  | signAuthEntry
  | signMessage
  | signRelayPayload
  | requestSessionKey
  deriving DecidableEq, Repr

/-- The parameters of a relay payload. -/
structure RelayParams where
  operation : Option String
  nonce : Option Int
  toAddress : Option String
  amount : Option String
  asset : Option String
  deriving DecidableEq, Repr

/-- What the handlers and the signers read of `params`. -/
structure Params where
  xdr : Option String
  authEntry : Option String
  message : Option String
  relay : RelayParams
  networkPassphrase : Option String
  network : Option String
  smartAccountId : Option String
  expiresAt : Option Int
  permissions : Option Int
  deriving DecidableEq, Repr

/-- `ExternalHandlerContext`, with the method -/
structure ExternalRequest where
  method : Method
  origin : String
  params : Params
  deriving DecidableEq, Repr

/-- What a signer returns.  The passphrase is that of the network it signed for. -/
inductive SignerResult where
  | signedXdr (signedXdr : String) (passphrase : String)
  | requiresHardware (xdr : String) (passphrase : String)
  | signedAuthEntry (signedAuthEntry : String) (passphrase : String)
  | signature (signature : String)
  | relaySignature (sessionKey signature : String)
  deriving DecidableEq, Repr

/-- With what the promise of a handler is fulfilled. -/
inductive Reply where
  | access (smartAccountId network : String)
  | signed (result : SignerResult)
  | sessionKey (publicKey : String) (expiresAt : Int)
  deriving DecidableEq, Repr

/-- Where the handler of a request stands: it awaits `isAllowed`, the approval window, the approval
or the allowlist, or its promise is settled. -/
inductive Handler where
  | idle
  | checking (request : ExternalRequest)
  | opening (request : ExternalRequest)
  | waiting (request : ExternalRequest)
  | granting (request : ExternalRequest)
  | fulfilled (request : ExternalRequest) (reply : Reply)
  | failed (request : ExternalRequest) (error : Thrown)
  deriving DecidableEq, Repr

/-! ## Entries -/

/-- An entry of the session storage. -/
inductive SessionQueueEntry where
  | pending
  | resolved (result : SignerResult)
  | rejected (error : Thrown)
  | timedOut
  deriving DecidableEq, Repr

structure ApprovalQueueEntry where
  request : ExternalRequest
  timestamp : Millis
  deriving DecidableEq, Repr

/-- The signers that an approval starts. -/
inductive Signer where
  | signMessage
  | signRelayPayload
  | signTransaction
  | signAuthEntry
  deriving DecidableEq, Repr

/-- A signer at work; once it has checked what it was given it knows for which network it signs, if
for any. -/
structure Signing where
  signer : Signer
  params : Params
  checked : Option (Option String)
  deriving DecidableEq, Repr

/-- What there is of a request under its id; `timer` is that of `waitForApproval`. -/
structure Entry where
  handler : Handler
  pendingApproval : Option ApprovalQueueEntry
  responseCallbacks : Option Millis
  timer : Bool
  session : Option SessionQueueEntry
  signings : List Signing
  deriving DecidableEq, Repr

/-- There is nothing of the request yet. -/
def Entry.empty : Entry where
  handler := .idle
  pendingApproval := none
  responseCallbacks := none
  timer := false
  session := none
  signings := []

/-- Five minutes. -/
def defaultApprovalTtlMs : Millis := 5 * 60 * 1000

/-- The promise of `waitForApproval` rejects; a promise that is settled stays so. -/
def Handler.reject (error : Thrown) : Handler → Handler
  | .waiting request => .failed request error
  | handler => handler

/-- The promise of `waitForApproval` resolves. -/
def Handler.resolve (result : SignerResult) : Handler → Handler
  | .waiting request =>
    if request.method = .requestAccess then .granting request
    else .fulfilled request (.signed result)
  | handler => handler

namespace Entry

def rejectRequest (error : Thrown) (entry : Entry) : Entry :=
  { entry with
    handler := if entry.responseCallbacks.isSome then entry.handler.reject error else entry.handler
    timer := entry.timer && entry.responseCallbacks.isNone
    responseCallbacks := none
    pendingApproval := none
    session := some (.rejected error) }

def resolveRequest (result : SignerResult) (entry : Entry) : Entry :=
  { entry with
    handler :=
      if entry.responseCallbacks.isSome then entry.handler.resolve result else entry.handler
    timer := entry.timer && entry.responseCallbacks.isNone
    responseCallbacks := none
    pendingApproval := none
    session := some (.resolved result) }

/-- The approval or the callbacks are older than five minutes. -/
def stale (now : Millis) (entry : Entry) : Bool :=
  entry.pendingApproval.any (fun approval => defaultApprovalTtlMs < now - approval.timestamp) ||
    entry.responseCallbacks.any fun timestamp => defaultApprovalTtlMs < now - timestamp

/-- `sweepStaleRequests`, at one entry -/
def sweepStaleRequests (now : Millis) (entry : Entry) : Entry :=
  if entry.stale now then entry.rejectRequest "Request timed out" else entry

/-- `enqueueApproval`, after it has swept -/
def enqueueApproval (request : ExternalRequest) (now : Millis) (entry : Entry) : Entry :=
  { entry with
    pendingApproval := some ⟨request, now⟩
    session := some .pending }

/-- `waitForApproval`, after it has swept: the timer and the callbacks -/
def waitForApproval (now : Millis) (entry : Entry) : Entry :=
  { entry with
    timer := true
    responseCallbacks := some now }

/-- The timer of `waitForApproval`; the callbacks stay registered. -/
def expire (entry : Entry) : Entry :=
  { entry with
    handler := entry.handler.reject
      "Approval request expired after 5 minutes. Please reconnect to the dApp and try again."
    timer := false
    pendingApproval := none
    session := some .timedOut }

end Entry

end Ancore.Approvals
