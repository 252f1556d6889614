import Ancore.Approvals.Handlers
import Ancore.Library.Records
import Ancore.Library.Runs

/-! # The allowlist store

Grants are kept twice: as lists of origins (`approvedSites`) and as records of
connected sites (`connectedSites`), each by account and network.  Rehydration reads
both through a sanitizer.  Parsing a URL is the platform's; it is the parameter
`newURL`.
-/

namespace Ancore.Approvals

open Ancore.Library

structure ConnectedSiteRecord where
  origin : String
  accountId : String
  network : String
  /-- `Date.now()` -/
  connectedAt : Nat
deriving DecidableEq

structure AllowlistState where
  approvedSites : Record String (Record String (List String))
  connectedSites : Record String (Record String (Record String ConnectedSiteRecord))

def AllowlistState.empty : AllowlistState := ⟨∅, ∅⟩

/-- What `new URL(value)` says of a text. -/
structure ParsedURL where
  protocol : String
  origin : String

/-! ## Validation -/

section Validation

variable (newURL : String → Option ParsedURL)

/-- `Object.keys(NETWORK_PASSPHRASES)` -/
def knownNetworks : List String := ["mainnet", "testnet", "futurenet", "local"]

def isBase32Letter (letter : Char) : Bool :=
  ('A' ≤ letter && letter ≤ 'Z') || ('2' ≤ letter && letter ≤ '7')

/-- `/^C[A-Z2-7]{55}$/` -/
def isValidAccountId (value : String) : Bool :=
  match value.toList with
  | 'C' :: letters => letters.length = 55 && letters.all isBase32Letter
  | _ => false

def isValidNetwork (value : String) : Bool := knownNetworks.contains value

def isValidOrigin (value : String) : Bool :=
  if value = "" then false
  else
    match newURL value with
    | none => false
    | some parsed =>
      (parsed.protocol = "https:" || parsed.protocol = "http:") && parsed.origin = value

/-- What the sanitizer lets through. -/
def Grant.isValid (grant : Grant) : Bool :=
  isValidAccountId grant.smartAccountId && isValidNetwork grant.network &&
    isValidOrigin newURL grant.origin

/-- An entry without anything in it is not made. -/
def unlessEmpty {β : Type} (record : Record String β) : Option (Record String β) :=
  if record.isEmpty then none else some record

def sanitizeApprovedSites (raw : Record String (Record String (List String))) :
    Record String (Record String (List String)) :=
  raw.sift fun accountId byNetwork =>
    if isValidAccountId accountId then
      unlessEmpty (byNetwork.sift fun network origins =>
        let validOrigins := origins.filter (isValidOrigin newURL)
        if isValidNetwork network && !validOrigins.isEmpty then some validOrigins else none)
    else none

def sanitizeConnectedSites
    (raw : Record String (Record String (Record String ConnectedSiteRecord))) :
    Record String (Record String (Record String ConnectedSiteRecord)) :=
  raw.sift fun accountId byNetwork =>
    if isValidAccountId accountId then
      unlessEmpty (byNetwork.sift fun network byOrigin =>
        if isValidNetwork network then
          unlessEmpty (byOrigin.sift fun origin record =>
            if isValidOrigin newURL origin && record.origin = origin &&
                record.accountId = accountId && record.network = network then
              some { origin, accountId, network, connectedAt := record.connectedAt }
            else none)
        else none)
    else none

end Validation

/-! ## Operations -/

/-- `record[key] || {}` -/
def childOf {β : Type} (record : Record String (Record String β)) (key : String) :
    Record String β :=
  (record.lookup key).getD ∅

/-- `delete record[key]?.[inner]` -/
def deleteIn {β : Type} (record : Record String (Record String β)) (key inner : String) :
    Record String (Record String β) :=
  match record.lookup key with
  | none => record
  | some child => record.insert key (child.erase inner)

namespace AllowlistState

/-- `getApprovedList` -/
def getApprovedList (state : AllowlistState) (accountId network : String) : List String :=
  ((childOf state.approvedSites accountId).lookup network).getD []

/-- `connectedSites[accountId]?.[network] || {}` -/
def connectedRecords (state : AllowlistState) (accountId network : String) :
    Record String ConnectedSiteRecord :=
  childOf (childOf state.connectedSites accountId) network

def isApproved (state : AllowlistState) (grant : Grant) : Bool :=
  (state.getApprovedList grant.smartAccountId grant.network).contains grant.origin

def approve (grant : Grant) (now : Nat) (state : AllowlistState) : AllowlistState :=
  let accountId := grant.smartAccountId
  let accountSites := childOf state.approvedSites accountId
  let networkSites := (accountSites.lookup grant.network).getD []
  if networkSites.contains grant.origin then state
  else
    let accountConnectedSites := childOf state.connectedSites accountId
    let networkConnectedSites := childOf accountConnectedSites grant.network
    { approvedSites := state.approvedSites.insert accountId
        (accountSites.insert grant.network (networkSites ++ [grant.origin]))
      connectedSites := state.connectedSites.insert accountId
        (accountConnectedSites.insert grant.network
          (networkConnectedSites.insert grant.origin
            ⟨grant.origin, accountId, grant.network, now⟩)) }

def revoke (grant : Grant) (state : AllowlistState) : AllowlistState :=
  let accountId := grant.smartAccountId
  let accountSites := childOf state.approvedSites accountId
  let networkSites := (accountSites.lookup grant.network).getD []
  if !networkSites.contains grant.origin then state
  else
    let accountConnectedSites := childOf state.connectedSites accountId
    let nextNetworkConnectedSites :=
      (childOf accountConnectedSites grant.network).erase grant.origin
    { approvedSites := state.approvedSites.insert accountId
        (accountSites.insert grant.network (networkSites.filter (· ≠ grant.origin)))
      connectedSites :=
        if Record.isEmpty nextNetworkConnectedSites then
          deleteIn state.connectedSites accountId grant.network
        else state.connectedSites.insert accountId
          (accountConnectedSites.insert grant.network nextNetworkConnectedSites) }

def revokeAll (accountId network : String) (state : AllowlistState) : AllowlistState :=
  let accountSites := childOf state.approvedSites accountId
  if (accountSites.lookup network).isNone then state
  else
    let accountConnectedSites := (childOf state.connectedSites accountId).erase network
    { approvedSites := state.approvedSites.insert accountId (accountSites.erase network)
      connectedSites :=
        if Record.isEmpty accountConnectedSites then state.connectedSites.erase accountId
        else state.connectedSites.insert accountId accountConnectedSites }

/-- What is read back of the persisted state. -/
def rehydrate (newURL : String → Option ParsedURL) (state : AllowlistState) : AllowlistState where
  approvedSites := sanitizeApprovedSites newURL state.approvedSites
  connectedSites := sanitizeConnectedSites newURL state.connectedSites

/-- The connected sites, sorted by `localeCompare` of their origins. -/
def getConnectedSites (localeCompare : String → String → Int) (accountId network : String)
    (now : Nat) (state : AllowlistState) : List ConnectedSiteRecord :=
  ((state.getApprovedList accountId network).map fun origin =>
    ((state.connectedRecords accountId network).lookup origin).getD
      ⟨origin, accountId, network, now⟩).insertionSort fun left right =>
        localeCompare left.origin right.origin ≤ 0

end AllowlistState

end Ancore.Approvals
