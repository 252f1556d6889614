import Mathlib

/-! # Events of the indexer

Raw contract events as the source delivers them, and their canonical form.  A raw
event without a transaction hash or a contract is rejected; everything else is
classified by its first topic, unknown topics included.

Topics arrive as base64 XDR; their decoding is the parameter `decodeTopic`.
-/

namespace Ancore.Indexer

/-- High-level classification of a contract event. -/
inductive EventKind where
  | transfer
  | initialized
  | sessionKeyAdded
  | sessionKeyRevoked
  | sessionKeyTtlRefreshed
  | relayExecuted
  | upgraded
  | migrated
  | unknown
deriving DecidableEq

/-- `Display for EventKind` -/
def EventKind.toText : EventKind → String
  | .transfer => "transfer"
  | .initialized => "initialized"
  | .sessionKeyAdded => "session_key_added"
  | .sessionKeyRevoked => "session_key_revoked"
  | .sessionKeyTtlRefreshed => "session_key_ttl_refreshed"
  | .relayExecuted => "relay_executed"
  | .upgraded => "upgraded"
  | .migrated => "migrated"
  | .unknown => "unknown"

/-- A point in time, in microseconds. -/
abbrev Timestamp := Int

structure RawEvent where
  ledgerSeq : Nat
  ledgerCloseTime : Timestamp
  txHash : String
  contractId : String
  topics : List String
  data : String
deriving DecidableEq

def RawEvent.texts (raw : RawEvent) : List String :=
  raw.txHash :: raw.contractId :: raw.data :: raw.topics

structure CanonicalEvent where
  kind : EventKind
  accountId : String
  ledgerSeq : Nat
  occurredAt : Timestamp
  txHash : String
  contractId : String
  amount : Option String
  asset : Option String
  counterparty : Option String
  raw : RawEvent
deriving DecidableEq

inductive NormaliseError where
  | missingField (field : String)
  | malformedField (field reason : String)
deriving DecidableEq

/-- `Display for NormaliseError` -/
def NormaliseError.toText : NormaliseError → String
  | .missingField field => "Missing required field: " ++ field
  | .malformedField field reason => "Malformed field '" ++ field ++ "': " ++ reason

/-- Classify an event based on its topic list. -/
def classifyEvent (topics : List String) : EventKind :=
  match topics.head? with
  | some "transfer" => .transfer
  | some "initialized" => .initialized
  | some "session_key_added" | some "add_session_key" => .sessionKeyAdded
  | some "session_key_revoked" | some "revoke_session_key" => .sessionKeyRevoked
  | some "session_key_ttl_refreshed" => .sessionKeyTtlRefreshed
  | some "relay_executed" | some "execute" => .relayExecuted
  | some "upgraded" => .upgraded
  | some "migrated" => .migrated
  | _ => .unknown

/-- Amount, asset and counterparty, by the position of the topics. -/
def extractTransferFields (kind : EventKind) (topics : List String) :
    Option String × Option String × Option String :=
  if kind ≠ .transfer then (none, none, topics[1]?)
  else (topics[3]?, topics[1]?, topics[2]?)

/-- Normalise a raw event into a canonical event. -/
def normalise (decodeTopic : String → String) (raw : RawEvent) :
    Except NormaliseError CanonicalEvent :=
  if raw.txHash = "" then .error (.missingField "tx_hash")
  else if raw.contractId = "" then .error (.missingField "contract_id")
  else
    let topics := raw.topics.map decodeTopic
    let kind := classifyEvent topics
    let (amount, asset, counterparty) := extractTransferFields kind topics
    .ok {
      kind := kind
      accountId := raw.contractId
      ledgerSeq := raw.ledgerSeq
      occurredAt := raw.ledgerCloseTime
      txHash := raw.txHash
      contractId := raw.contractId
      amount := amount
      asset := asset
      counterparty := counterparty
      raw := raw }

section Normalise

variable {decodeTopic : String → String} {raw : RawEvent} {event : CanonicalEvent}

/-- The canonical form keeps its raw event, ledger and transaction. -/
theorem normalise_ok (normalised : normalise decodeTopic raw = .ok event) :
    event.raw = raw ∧ event.ledgerSeq = raw.ledgerSeq ∧ event.txHash = raw.txHash := by
  simp only [normalise] at normalised
  split at normalised
  · cases normalised
  · split at normalised
    · cases normalised
    · cases normalised
      exact ⟨rfl, rfl, rfl⟩

/-- Exactly the events without a transaction hash or a contract are rejected. -/
theorem normalise_isOk_iff :
    (∃ event, normalise decodeTopic raw = .ok event) ↔ raw.txHash ≠ "" ∧ raw.contractId ≠ "" := by
  simp only [normalise]
  split
  · rename_i missing
    simp [missing]
  · split
    · rename_i missing
      simp [missing]
    · rename_i hash contract
      simp [hash, contract]

end Normalise

end Ancore.Indexer
