import Ancore.Approvals.ResponseQueue
import Ancore.Library.EcmaScript

/-! # The handlers of the methods that ask for approval

A handler checks the allowlist, enqueues the request, opens the approval window and
waits; the listener of the service worker turns the messages of the approval screens
into rejections and into work for a signer.  `step` is what one event does to the
extension; between two awaits nothing else runs, so an event is the code from one
await to the next. -/

namespace Ancore.Approvals

open Ancore.Library

/-! ## What a request says -/

/-- `value || fallback` -/
def orDefault (value : Option String) (fallback : String) : String :=
  match value with
  | some text => if text = "" then fallback else text
  | none => fallback

def defaultMockSmartAccountId : String :=
  "CAAAAAAAAAAAAAAAAAAAAAAAAAAAAAAAAAAAAAAAAAAAAAAAAAAAAAAA"

/-- What an origin is allowed for. -/
structure Grant where
  network : String
  smartAccountId : String
  origin : String
  deriving DecidableEq, Repr

/-- `resolveWalletContext`, with the origin: what a handler looks up in the allowlist -/
def ExternalRequest.grant (request : ExternalRequest) : Grant where
  network := orDefault request.params.network "testnet"
  smartAccountId := orDefault request.params.smartAccountId defaultMockSmartAccountId
  origin := request.origin

/-- The issues of a text that is required and must not be blank. -/
def issuesOf (field : String) : Option String → List String
  | none => [field ++ ": Required"]
  | some text =>
    (if text = "" then [field ++ ": " ++ field ++ " is required"] else []) ++
      if EcmaScript.trim text = "" then [field ++ ": " ++ field ++ " must not be empty"] else []

/-- The issues of an integer that is required. -/
def integerIssuesOf (field : String) (least : Int) (message : String) : Option Int → List String
  | none => [field ++ ": Required"]
  | some value => if value < least then [field ++ ": " ++ message] else []

def invalidParams (method : String) (issues : List String) : Option Thrown :=
  if issues = [] then none
  else some ("Invalid " ++ method ++ " params: " ++ "; ".intercalate issues)

def isBase64Letter (letter : Char) : Bool :=
  letter.isAlphanum || letter = '+' || letter = '/' || letter = '-' || letter = '_'

/-- `Buffer.from(text.trim(), 'base64')` is empty: two letters make the first byte. -/
def decodesToNothing (text : String) : Bool :=
  (((EcmaScript.trim text).toList.takeWhile (· ≠ '=')).filter isBase64Letter).length < 2

/-- Why a handler throws before it looks at the allowlist. -/
def ExternalRequest.refusal (request : ExternalRequest) (now : Millis) : Option Thrown :=
  match request.method with
  | .requestAccess | .signRelayPayload => none
  | .signTransaction => invalidParams "signTransaction" (issuesOf "xdr" request.params.xdr)
  | .signMessage => invalidParams "signMessage" (issuesOf "message" request.params.message)
  | .signAuthEntry =>
    (invalidParams "signAuthEntry" (issuesOf "authEntry" request.params.authEntry)).or
      (if request.params.authEntry.any decodesToNothing then some "Invalid auth entry XDR"
      else none)
  | .requestSessionKey =>
    (invalidParams "session key"
      (integerIssuesOf "expiresAt" 1 "expiresAt must be a positive integer"
          request.params.expiresAt ++
        integerIssuesOf "permissions" 0 "permissions must be a non-negative integer"
          request.params.permissions)).or
      (if request.params.expiresAt.any (· ≤ now) then
        some "Session key policy must include a future expiresAt timestamp."
      else none)

/-! ## Networks and signers -/

inductive NetworkMode where
  | mainnet
  | testnet
  | futurenet
  deriving DecidableEq, Repr

def NetworkMode.name : NetworkMode → String
  | mainnet => "mainnet"
  | testnet => "testnet"
  | futurenet => "futurenet"

/-- `NETWORK_PASSPHRASES` -/
def NetworkMode.passphrase : NetworkMode → String
  | mainnet => "Public Global Stellar Network ; September 2015"
  | testnet => "Test SDF Network ; September 2015"
  | futurenet => "Test SDF Future Network ; October 2022"

/-- The passphrase that a signer expects, if it is that of the active network. -/
def Params.expectedPassphrase (params : Params) (network : NetworkMode) :
    Except Thrown (Option String) :=
  let expected := params.networkPassphrase.getD NetworkMode.testnet.passphrase
  if expected = network.passphrase then .ok (some expected)
  else .error "Network passphrase mismatch"

def RelayParams.refusal (relay : RelayParams) : Option Thrown :=
  if orDefault relay.operation "" = "" then some "Invalid operation"
  else if relay.nonce = none then some "Invalid nonce"
  else if relay.toAddress = none ∨ relay.amount = none ∨ relay.asset = none then
    some "Invalid relay parameters"
  else none

/-- What a signer checks before it signs; it comes to the network it signs for, if to any. -/
def Signing.check (signing : Signing) (unlocked : Bool) (network : NetworkMode) :
    Except Thrown (Option String) := do
  match signing.signer with
  | .signMessage => do
    if orDefault signing.params.message "" = "" then throw "Invalid message"
    if !unlocked then throw "Wallet is locked"
    pure none
  | .signRelayPayload => do
    if let some error := signing.params.relay.refusal then throw error
    if !unlocked then throw "Wallet is locked"
    pure none
  | .signTransaction => do
    if !unlocked then throw "Wallet is locked"
    signing.params.expectedPassphrase network
  | .signAuthEntry => do
    if EcmaScript.trim (signing.params.authEntry.getD "") = "" then throw "Invalid auth entry XDR"
    if !unlocked then throw "Wallet is locked"
    signing.params.expectedPassphrase network

/-- What the SDK makes with the key of the wallet. -/
structure Made where
  publicKey : String
  signed : String
  deriving DecidableEq, Repr

/-- What a signer returns of what the SDK made, or where a Ledger is preferred. -/
def Signing.result (signing : Signing) (passphrase : Option String) (ledger : Bool) (made : Made) :
    SignerResult :=
  match signing.signer with
  | .signMessage => .signature made.signed
  | .signRelayPayload => .relaySignature made.publicKey made.signed
  | .signAuthEntry => .signedAuthEntry made.signed (passphrase.getD "")
  | .signTransaction =>
    if ledger then .requiresHardware (signing.params.xdr.getD "") (passphrase.getD "")
    else .signedXdr made.signed (passphrase.getD "")

/-- The signer of a method, where the user approves it with `APPROVE_SIGN_REQUEST`. -/
def Method.signer : Method → Signer
  | .signMessage => .signMessage
  | .signRelayPayload => .signRelayPayload
  | .requestAccess | .signTransaction | .signAuthEntry | .requestSessionKey => .signTransaction

/-! ## Messages of the approval screens -/

/-- The messages that the approval screens send. -/
inductive ApprovalMessage where
  | approveSignRequest
  | rejectSignRequest
  | approveAuthEntryRequest
  | rejectAuthEntryRequest
  | approveAccessRequest
  | rejectAccessRequest
  deriving DecidableEq, Repr

/-- The listener; it does not know the messages of the screen that grants access. -/
def Entry.receive (message : ApprovalMessage) (entry : Entry) : Entry :=
  match message with
  | .approveSignRequest =>
    match entry.pendingApproval with
    | none => entry.rejectRequest "Approval request not found"
    | some pending =>
      { entry with signings :=
          ⟨pending.request.method.signer, pending.request.params, none⟩ :: entry.signings }
  | .rejectSignRequest => entry.rejectRequest "User rejected the sign request"
  | .approveAuthEntryRequest =>
    match entry.pendingApproval with
    | none => entry.rejectRequest "Approval request not found"
    | some pending =>
      if orDefault pending.request.params.authEntry "" = "" then
        entry.rejectRequest "Auth entry XDR not found in request"
      else
        { entry with signings :=
            ⟨.signAuthEntry, pending.request.params, none⟩ :: entry.signings }
  | .rejectAuthEntryRequest => entry.rejectRequest "User rejected the auth entry sign request"
  | .approveAccessRequest | .rejectAccessRequest => entry

/-! ## The extension -/

structure Extension where
  entries : RequestId → Entry
  allowlist : Grant → Bool
  network : NetworkMode
  contractAddress : Option String

/-- What happens at the extension: a handler goes on from one of its awaits, a screen sends a
message, a signer goes on, a timer or the window ends a request, or the user changes the allowlist
or the settings. -/
inductive Event where
  | requested (id : RequestId) (request : ExternalRequest) (now : Millis)
  | checked (id : RequestId) (now : Millis) (publicKey : String)
  | opened (id : RequestId) (result : Except Thrown Unit) (now : Millis)
  | granted (id : RequestId)
  | message (id : RequestId) (message : ApprovalMessage)
  | signerChecked (id : RequestId) (signing : Signing) (unlocked : Bool)
  | signerEnded (id : RequestId) (signing : Signing) (passphrase : Option String) (ledger : Bool)
      (made : Except Thrown Made)
  | expired (id : RequestId)
  | windowClosed (id : RequestId)
  | swept (now : Millis)
  | siteChanged (grant : Grant) (approved : Bool)
  | networkChanged (network : NetworkMode)
  | contractDeployed (contractAddress : String)

namespace Extension

def modify (extension : Extension) (id : RequestId) (change : Entry → Entry) : Extension :=
  { extension with
    entries := Function.update extension.entries id (change (extension.entries id)) }

def sweep (extension : Extension) (now : Millis) : Extension :=
  { extension with entries := fun id => (extension.entries id).sweepStaleRequests now }

/-- The request is enqueued, and its handler goes on. -/
def enqueue (extension : Extension) (id : RequestId) (request : ExternalRequest) (now : Millis)
    (handler : Handler) : Extension :=
  (extension.sweep now).modify id fun entry =>
    let enqueued := entry.enqueueApproval request now
    { enqueued with handler := handler }

/-- A handler goes on when it knows whether the origin is allowed. -/
def admitRequest (extension : Extension) (id : RequestId) (request : ExternalRequest) (now : Millis)
    (publicKey : String) : Extension :=
  let allowed := extension.allowlist request.grant
  match request.method, allowed with
  | .requestAccess, true => extension.modify id fun entry =>
    { entry with
      handler := .fulfilled request
        (.access request.grant.smartAccountId request.grant.network) }
  | .requestSessionKey, true => extension.enqueue id request now
    (.fulfilled request (.sessionKey publicKey (request.params.expiresAt.getD 0)))
  | .requestAccess, false => extension.enqueue id request now (.opening request)
  | _, true => extension.enqueue id request now (.opening request)
  | _, false => extension.modify id fun entry =>
    { entry with handler := .failed request "Origin not allowed. Call requestAccess first." }

/-- A signer goes on when it knows whether the wallet is unlocked. -/
def checkSigning (extension : Extension) (id : RequestId) (signing : Signing) (unlocked : Bool) :
    Extension :=
  extension.modify id fun entry =>
    match signing.check unlocked extension.network with
    | .ok passphrase =>
      { entry with
        signings := { signing with checked := some passphrase } :: entry.signings.erase signing }
    | .error error => { (entry.rejectRequest error) with signings := entry.signings.erase signing }

/-- The promise of a signer is settled. -/
def endSigning (extension : Extension) (id : RequestId) (signing : Signing)
    (passphrase : Option String) (ledger : Bool) (made : Except Thrown Made) : Extension :=
  extension.modify id fun entry =>
    match made with
    | .ok made =>
      { (entry.resolveRequest (signing.result passphrase ledger made)) with
        signings := entry.signings.erase signing }
    | .error error => { (entry.rejectRequest error) with signings := entry.signings.erase signing }

end Extension

/-- What an event does; it is `none` where the event cannot happen. -/
def step (event : Event) (extension : Extension) : Option (Unit × Extension) :=
  match event with
  | .requested id request now =>
    match (extension.entries id).handler, request.refusal now with
    | .idle, none => some ((), extension.modify id fun entry =>
        { entry with handler := .checking request })
    | .idle, some error => some ((), extension.modify id fun entry =>
        { entry with handler := .failed request error })
    | _, _ => none
  | .checked id now publicKey =>
    match (extension.entries id).handler with
    | .checking request => some ((), extension.admitRequest id request now publicKey)
    | _ => none
  | .opened id result now =>
    match (extension.entries id).handler, result with
    | .opening request, .ok () => some ((), (extension.sweep now).modify id fun entry =>
        { entry.waitForApproval now with handler := .waiting request })
    | .opening request, .error error => some ((), extension.modify id fun entry =>
        { entry with handler := .failed request error })
    | _, _ => none
  | .granted id =>
    match (extension.entries id).handler with
    | .granting request =>
      let answered := extension.modify id fun entry =>
        { entry with
          handler := .fulfilled request
            (.access request.grant.smartAccountId request.grant.network) }
      some ((), { answered with
        allowlist := Function.update extension.allowlist request.grant true })
    | _ => none
  | .message id message => some ((), extension.modify id (Entry.receive message))
  | .signerChecked id signing unlocked =>
    if signing ∈ (extension.entries id).signings ∧ signing.checked = none then
      some ((), extension.checkSigning id signing unlocked)
    else none
  | .signerEnded id signing passphrase ledger made =>
    if signing ∈ (extension.entries id).signings ∧ signing.checked = some passphrase then
      some ((), extension.endSigning id signing passphrase ledger made)
    else none
  | .expired id =>
    if (extension.entries id).timer then some ((), extension.modify id Entry.expire) else none
  | .windowClosed id =>
    some ((), if (extension.entries id).pendingApproval.isSome then
      extension.modify id (Entry.rejectRequest "User closed approval window")
    else extension)
  | .swept now => some ((), extension.sweep now)
  | .siteChanged grant approved =>
    some ((), { extension with allowlist := Function.update extension.allowlist grant approved })
  | .networkChanged network => some ((), { extension with network := network })
  | .contractDeployed contractAddress =>
    some ((), { extension with contractAddress := some contractAddress })

/-- An extension that has no requests yet. -/
def Extension.start (allowlist : Grant → Bool) (network : NetworkMode)
    (contractAddress : Option String) : Extension where
  entries := fun _ => .empty
  allowlist := allowlist
  network := network
  contractAddress := contractAddress

end Ancore.Approvals
