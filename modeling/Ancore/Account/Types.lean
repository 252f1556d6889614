import Ancore.Soroban.Host

/-! # The account contract: data model

The storage, errors, events and arguments of `AncoreAccount`.  Instance storage
is a record with one optional field for each key; the persistent entries
`DataKey::SessionKey(public_key)` are a function of the public key.
-/

namespace Ancore.Account

open Ancore.Library Ancore.Soroban

/-- Contract error types for structured error handling -/
inductive ContractError where
  | alreadyInitialized
  | notInitialized
  | unauthorized
  | invalidNonce
  | sessionKeyNotFound
  | sessionKeyExpired
  | insufficientPermission
  | invalidVersion
  | invalidSignature
  /-- Invalid WASM hash provided for upgrade -/
  | invalidWasmHash
  /-- Expiration timestamp is invalid (e.g., zero) -/
  | invalidExpiration
  /-- Caller identity does not match provided auth parameters -/
  | invalidCallerIdentity
  /-- Signature payload does not match the canonical execute() signing payload -/
  | signaturePayloadMismatch
  /-- Session key registration already exists -/
  | sessionKeyAlreadyExists
  /-- Session key expiration is already in the past -/
  | sessionKeyExpirationInPast
  | arithmeticOverflow
  /-- Session key spend limit exceeded (per-call or cumulative window) -/
  | exceededSpendLimit
  /-- Invalid spend policy configuration at session key registration -/
  | invalidSpendPolicy
  /-- Invalid threshold or owner configuration -/
  | invalidThreshold
deriving DecidableEq

abbrev PublicKey := BytesN 32

structure SessionKey where
  publicKey : PublicKey
  expiresAt : UInt64
  permissions : List UInt32
  /-- Optional contract allowlist: `none` means unrestricted. -/
  allowedContracts : Option (List Address)
  maxAmountPerCall : Option Int128
  cumulativeLimit : Option Int128
  spendWindowStart : UInt64
  spendWindowSeconds : UInt64
  spentInWindow : Int128
deriving DecidableEq

/-- The contract's storage; `DataKey::PendingOwner` is declared by the source and never used. -/
structure Storage where
  owner : Option Address
  nonce : Option UInt64
  version : Option UInt32
  validationModules : Option (List Address)
  owners : Option (List Address)
  threshold : Option UInt32
  sessionKey : PublicKey → Option SessionKey

/-- The storage of a freshly deployed account. -/
def Storage.empty : Storage where
  owner := none
  nonce := none
  version := none
  validationModules := none
  owners := none
  threshold := none
  sessionKey _ := none

def Storage.setSessionKey (storage : Storage) (publicKey : PublicKey) (session : SessionKey) :
    Storage :=
  { storage with sessionKey := Function.update storage.sessionKey publicKey (some session) }

def Storage.removeSessionKey (storage : Storage) (publicKey : PublicKey) : Storage :=
  { storage with sessionKey := Function.update storage.sessionKey publicKey none }

inductive Event where
  | initialized (owner : Address)
  | executed (target : Address) (function : Symbol) (nonce : UInt64)
  | sessionKeyAdded (publicKey : PublicKey) (expiresAt : UInt64)
  | sessionKeyRevoked (publicKey : PublicKey)
  | upgraded (newWasmHash : BytesN 32)
  | migrated (oldVersion newVersion : UInt32)
  | sessionKeyTtlRefreshed (publicKey : PublicKey) (expiresAt : UInt64)
  | sessionKeyRefreshed (publicKey : PublicKey) (newExpiresAt : UInt64)
  | ownerAdded (newOwner : Address)
  | ownerRemoved (removedOwner : Address)
  | thresholdChanged (newThreshold : UInt32)
  | allowedContractsSet (publicKey : PublicKey) (allowedContracts : Option (List Address))
  | moduleRegistered (module : Address)
  | moduleUnregistered (module : Address)

/-- Caller authorization path for `execute`. -/
inductive CallerIdentity where
  | owner
  | sessionKey (publicKey : PublicKey)
  | quorum (signers : List Address)
deriving DecidableEq

/-- The arguments of `execute`. -/
structure ExecuteRequest where
  caller : CallerIdentity
  /-- The argument `to`. -/
  target : Address
  function : Symbol
  args : List Val
  expectedNonce : UInt64
  sessionPubKey : Option PublicKey
  signature : Option (BytesN 64)
  signaturePayload : Option Bytes

/-- The arguments of `add_session_key`. -/
structure SessionKeyRequest where
  publicKey : PublicKey
  expiresAt : UInt64
  permissions : List UInt32
  allowedContracts : Option (List Address)
  maxAmountPerCall : Option Int128
  cumulativeLimit : Option Int128
  spendWindowSeconds : UInt64

/-- The entry points that can change the account. -/
inductive Call where
  | initializeAccount (owner : Address)
  | execute (request : ExecuteRequest)
  | addSessionKey (request : SessionKeyRequest)
  | revokeSessionKey (publicKey : PublicKey)
  | setAllowedContracts (publicKey : PublicKey) (allowedContracts : Option (List Address))
  | registerModule (module : Address)
  | unregisterModule (module : Address)
  | initializeMultiOwner (owners : List Address) (threshold : UInt32)
  | addOwner (signers : List Address) (newOwner : Address)
  | removeOwner (signers : List Address) (ownerToRemove : Address)
  | setThreshold (signers : List Address) (newThreshold : UInt32)
  | upgrade (newWasmHash : BytesN 32)
  | migrate (newVersion : UInt32)
  | refreshSessionKeyTtl (publicKey : PublicKey)

abbrev AccountM := Contract ContractError Storage PublicKey Event

abbrev AccountEffect := Effect PublicKey Event

/-! ## Constants -/

def dayInLedgers : UInt32 := 17280
def instanceBumpAmount : UInt32 := 30 * dayInLedgers
def instanceBumpThreshold : UInt32 := 15 * dayInLedgers
def minMillisecondsTimestamp : UInt64 := 100000000000
/-- Maximum number of contracts that may be stored in a session-key allowlist. -/
def maxAllowedContracts : Nat := 50

end Ancore.Account
