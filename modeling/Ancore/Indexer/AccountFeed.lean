import Ancore.Account.Change
import Ancore.Indexer.Events
import Ancore.Library.Base64

/-! # The account contract in the indexer

The topics of the events of the account contract travel as base64 XDR.  `decodeTopic`
of the indexer reads them back, and its classification then takes most of them for
unknown: an execution announces itself as `executed`, which it has no kind for.
Everything but the name of an event is in its data, which the indexer does not read.
-/

namespace Ancore.Account

open Ancore.Soroban

/-- The one topic of an event. -/
def Event.topicText : Event → String
  | .initialized .. => "initialized"
  | .executed .. => "executed"
  | .sessionKeyAdded .. => "session_key_added"
  | .sessionKeyRevoked .. => "session_key_revoked"
  | .upgraded .. => "upgraded"
  | .migrated .. => "migrated"
  | .sessionKeyTtlRefreshed .. => "session_key_ttl_refreshed"
  | .sessionKeyRefreshed .. => "session_key_refreshed"
  | .ownerAdded .. => "owner_added"
  | .ownerRemoved .. => "owner_removed"
  | .thresholdChanged .. => "threshold_changed"
  | .allowedContractsSet .. => "allowed_contracts_set"
  | .moduleRegistered .. => "module_registered"
  | .moduleUnregistered .. => "module_unregistered"

def Event.topic (event : Event) : Symbol where
  name := event.topicText.toList
  short := by cases event <;> simp [topicText]
  wellFormed := by cases event <;> simp [topicText, isSymbolChar]

end Ancore.Account

namespace Ancore.Indexer

open Ancore.Library Ancore.Soroban

/-! ## Topics -/

/-- The crates that the indexer reads topics with, and the writer of the RPC server. -/
structure TopicCodec where
  encodeBase64 : Bytes → String
  /-- `STANDARD.decode` -/
  decodeBase64 : String → Option Bytes
  /-- `ScVal::read_xdr_to_end`, for the values that are modelled; none where it fails -/
  readScVal : Bytes → Option Val
  /-- `Display` of the bytes of a symbol or a string -/
  display : Bytes → String

structure TopicCodec.Documented (codec : TopicCodec) : Prop where
  base64 : ∀ bytes, codec.decodeBase64 (codec.encodeBase64 bytes) = some bytes
  scVal : ∀ value bytes, value.toXdr = some bytes → codec.readScVal bytes = some value
  display : ∀ symbol : Symbol, codec.display symbol.bytes = String.ofList symbol.name

/-- `MAX_TOPIC_XDR_BYTES` -/
def maxTopicXdrBytes : Nat := 4096

/-- Decode a single topic entry; what cannot be read is returned as it is. -/
def decodeTopic (codec : TopicCodec) (raw : String) : String :=
  match codec.decodeBase64 raw with
  | none => raw
  | some bytes =>
    if bytes.length > maxTopicXdrBytes then raw
    else
      match codec.readScVal bytes with
      | some (.symbol symbol) => codec.display symbol.bytes
      | some (.string text) => codec.display text
      | _ => raw

/-- A symbol on the wire. -/
def encodeTopic (codec : TopicCodec) (symbol : Symbol) : String :=
  codec.encodeBase64 ((Val.symbol symbol).toXdr.getD [])

section Topics

variable {codec : TopicCodec}

theorem toXdr_symbol (symbol : Symbol) :
    ∃ bytes, (Val.symbol symbol).toXdr = some bytes ∧ bytes.length ≤ maxTopicXdrBytes := by
  have short : symbol.bytes.length ≤ 32 := by
    rw [Symbol.bytes, List.length_map]
    exact symbol.short
  have fits : symbol.bytes.length < 256 ^ 4 := by omega
  have body : (Val.symbol symbol).encodeBody = some (bigEndian 4 symbol.bytes.length ++
      (symbol.bytes ++ List.replicate ((4 - symbol.bytes.length % 4) % 4) 0)) := by
    rw [Val.encodeBody, encodeOpaque, if_pos fits]
  refine ⟨_, Val.toXdr_eq_some.mpr ⟨_, body, rfl⟩, ?_⟩
  simp only [List.length_append, bigEndian_length, List.length_replicate, maxTopicXdrBytes]
  omega

/-- What the contract publishes as a symbol is read as the text of the symbol. -/
theorem decodeTopic_encodeTopic (documented : codec.Documented) (symbol : Symbol) :
    decodeTopic codec (encodeTopic codec symbol) = String.ofList symbol.name := by
  obtain ⟨bytes, encoded, short⟩ := toXdr_symbol symbol
  have read : codec.decodeBase64 (encodeTopic codec symbol) = some bytes := by
    rw [encodeTopic, encoded, Option.getD_some, documented.base64]
  rw [decodeTopic, read]
  simp only [Nat.not_lt.mpr short, if_false, documented.scVal _ _ encoded]
  exact documented.display symbol

end Topics

/-! ## The events of a run -/

/-- The ledger that a transaction is in. -/
structure LedgerEntry where
  ledgerSeq : Nat
  ledgerCloseTime : Timestamp
  txHash : String
  contractId : String
  hashPresent : txHash ≠ ""
  contractPresent : contractId ≠ ""

/-- The event as the RPC server has it; its data is in XDR too. -/
def rawEvent (codec : TopicCodec) (data : Account.Event → String) (entry : LedgerEntry)
    (event : Account.Event) : RawEvent where
  ledgerSeq := entry.ledgerSeq
  ledgerCloseTime := entry.ledgerCloseTime
  txHash := entry.txHash
  contractId := entry.contractId
  topics := [encodeTopic codec event.topic]
  data := data event

/-- The events of a run, oldest first, as the indexer's source delivers them. -/
def accountLog (codec : TopicCodec) (data : Account.Event → String)
    (entry : Account.AccountTransition → LedgerEntry) (past : List Account.AccountTransition) :
    List RawEvent :=
  (past.flatMap fun transition =>
    (published transition.output.2).map fun event => (entry transition, event)).map
      fun (entry, event) => rawEvent codec data entry event

/-- What the indexer makes of an event of the account contract. -/
def kindOf : Account.Event → EventKind
  | .initialized .. => .initialized
  | .sessionKeyAdded .. => .sessionKeyAdded
  | .sessionKeyRevoked .. => .sessionKeyRevoked
  | .sessionKeyTtlRefreshed .. => .sessionKeyTtlRefreshed
  | .upgraded .. => .upgraded
  | .migrated .. => .migrated
  | .executed .. | .sessionKeyRefreshed .. | .allowedContractsSet .. | .ownerAdded ..
  | .ownerRemoved .. | .thresholdChanged .. | .moduleRegistered .. | .moduleUnregistered .. =>
    .unknown

/-- What the indexer shows of a successful call. -/
def kindsOf : Account.Call → List EventKind
  | .initializeAccount .. => [.initialized]
  | .addSessionKey .. => [.sessionKeyAdded]
  | .revokeSessionKey .. => [.sessionKeyRevoked]
  | .refreshSessionKeyTtl .. => [.sessionKeyTtlRefreshed, .unknown]
  | .upgrade .. => [.upgraded]
  | .migrate .. => [.migrated]
  -- nothing is published
  | .initializeMultiOwner .. => []
  | .execute .. | .setAllowedContracts .. | .registerModule .. | .unregisterModule ..
  | .addOwner .. | .removeOwner .. | .setThreshold .. => [.unknown]

theorem classifyEvent_topic (event : Account.Event) :
    classifyEvent [String.ofList event.topic.name] = kindOf event := by
  rw [Account.Event.topic, String.ofList_toList]
  cases event <;> rfl

section Classification

variable {codec : TopicCodec}

theorem normalise_rawEvent (documented : codec.Documented) (data : Account.Event → String)
    (entry : LedgerEntry) (event : Account.Event) :
    ∃ activity, normalise (decodeTopic codec) (rawEvent codec data entry event) = .ok activity ∧
      activity.kind = kindOf event ∧ activity.amount = none ∧ activity.asset = none ∧
        activity.counterparty = none := by
  have topics : (rawEvent codec data entry event).topics.map (decodeTopic codec) =
      [String.ofList event.topic.name] := by
    simp [rawEvent, decodeTopic_encodeTopic documented]
  have notTransfer : kindOf event ≠ .transfer := by cases event <;> simp [kindOf]
  have fields : extractTransferFields (kindOf event) [String.ofList event.topic.name] =
      (none, none, none) := if_pos notTransfer
  have hash : (rawEvent codec data entry event).txHash ≠ "" := entry.hashPresent
  have contract : (rawEvent codec data entry event).contractId ≠ "" := entry.contractPresent
  simp only [normalise, topics, classifyEvent_topic, fields]
  rw [if_neg hash, if_neg contract]
  exact ⟨_, rfl, rfl, rfl, rfl, rfl⟩

end Classification

/-! ## The kinds of a run -/

section Calls

variable {env : Env} {call : Account.Call} {before after : Account.Storage} {value : Val}
  {effects : List Account.AccountEffect}

attribute [local simp] Account.ownerEffects Account.quorumEffects Account.ttlEffect kindsOf kindOf

/-- One case for each entry point, inverted by its `_ok` lemma. -/
theorem kinds_published
    (performed : Account.step (env, call) before = some ((value, effects), after)) :
    (published effects).map kindOf = kindsOf call := by
  rw [Account.step, Contract.invoke_eq_some] at performed
  cases call with
  | initializeAccount owner =>
    obtain ⟨-, -, equal⟩ := Account.initializeAccount_ok.mp (returnVoid_ok.mp performed).1
    cases equal
    simp
  | execute request =>
    obtain ⟨authorizers, next, storage, -, -, -, -, -, equal⟩ := Account.execute_ok performed
    cases equal
    simp
  | addSessionKey request =>
    obtain ⟨-, -, owner, -, -, -, -, -, expiry, -, -, equal⟩ :=
      Account.addSessionKey_ok.mp (returnVoid_ok.mp performed).1
    cases equal
    simp
  | revokeSessionKey publicKey =>
    obtain ⟨owner, -, -, equal⟩ :=
      Account.revokeSessionKey_ok.mp (returnVoid_ok.mp performed).1
    cases equal
    simp
  | setAllowedContracts publicKey allowed =>
    obtain ⟨owner, -, session, -, -, equal⟩ :=
      Account.setAllowedContracts_ok.mp (returnVoid_ok.mp performed).1
    cases equal
    simp
  | registerModule module =>
    obtain ⟨owner, -, equal⟩ := Account.registerModule_ok.mp (returnVoid_ok.mp performed).1
    cases equal
    simp
  | unregisterModule module =>
    obtain ⟨owner, -, equal⟩ := Account.unregisterModule_ok.mp (returnVoid_ok.mp performed).1
    cases equal
    simp
  | initializeMultiOwner owners threshold =>
    obtain ⟨-, owner, -, -, -, -, -, equal⟩ :=
      Account.initializeMultiOwner_ok.mp (returnVoid_ok.mp performed).1
    cases equal
    simp
  | addOwner signers newOwner =>
    obtain ⟨owners, threshold, distinct, -, -, equal⟩ :=
      Account.addOwner_ok (returnVoid_ok.mp performed).1
    cases equal
    simp
  | removeOwner signers ownerToRemove =>
    obtain ⟨owners, threshold, distinct, -, -, -, equal⟩ :=
      Account.removeOwner_ok (returnVoid_ok.mp performed).1
    cases equal
    simp
  | setThreshold signers newThreshold =>
    obtain ⟨owners, threshold, distinct, -, -, -, equal⟩ :=
      Account.setThreshold_ok (returnVoid_ok.mp performed).1
    cases equal
    simp
  | upgrade newWasmHash =>
    obtain ⟨owner, -, -, nextVersion, -, -, equal⟩ :=
      Account.upgrade_ok.mp (returnVoid_ok.mp performed).1
    cases equal
    simp
  | migrate newVersion =>
    obtain ⟨owner, -, -, equal⟩ := Account.migrate_ok.mp (returnVoid_ok.mp performed).1
    cases equal
    simp
  | refreshSessionKeyTtl publicKey =>
    obtain ⟨owner, -, session, -, -, expiry, -, equal⟩ :=
      Account.refreshSessionKeyTtl_ok.mp (returnVoid_ok.mp performed).1
    cases equal
    simp

theorem kinds_published_of_history {calls : List (Env × Account.Call)} :
    ∀ transition ∈ history Account.step .empty calls,
      (published transition.output.2).map kindOf = kindsOf transition.input.2 :=
  fun _ member => kinds_published (performed_of_mem_history Account.step member)

end Calls

/-- What an activity shows of an event of the contract: its kind, and nothing of its data. -/
structure Shown (event : LedgerEntry × Account.Event) (activity : CanonicalEvent) : Prop where
  kind : activity.kind = kindOf event.2
  amount : activity.amount = none
  asset : activity.asset = none
  counterparty : activity.counterparty = none

section Feed

variable {codec : TopicCodec}

theorem mapM_normalise (documented : codec.Documented) (data : Account.Event → String)
    (events : List (LedgerEntry × Account.Event)) :
    ∃ activities, (events.map fun (entry, event) => rawEvent codec data entry event).mapM
        (normalise (decodeTopic codec)) = .ok activities ∧
      List.Forall₂ Shown events activities := by
  induction events with
  | nil => exact ⟨[], rfl, .nil⟩
  | cons event events inductionHypothesis =>
    obtain ⟨activities, normalised, shown⟩ := inductionHypothesis
    obtain ⟨activity, first, kind, amount, asset, counterparty⟩ :=
      normalise_rawEvent documented data event.1 event.2
    refine ⟨activity :: activities, ?_, .cons ⟨kind, amount, asset, counterparty⟩ shown⟩
    rw [List.map_cons, List.mapM_cons, first, normalised]
    rfl

theorem kinds_of_shown {events : List (LedgerEntry × Account.Event)}
    {activities : List CanonicalEvent} (shown : List.Forall₂ Shown events activities) :
    activities.map CanonicalEvent.kind = events.map fun event => kindOf event.2 := by
  induction shown with
  | nil => rfl
  | cons head _ inductionHypothesis =>
    rw [List.map_cons, List.map_cons, head.kind, inductionHypothesis]

theorem notExecuted_of_shown {events : List (LedgerEntry × Account.Event)}
    {activities : List CanonicalEvent} (shown : List.Forall₂ Shown events activities) :
    ∀ activity ∈ activities, activity.kind ≠ .relayExecuted ∧ activity.amount = none ∧
      activity.asset = none ∧ activity.counterparty = none := by
  induction shown with
  | nil => exact List.forall_mem_nil _
  | @cons event _ _ _ head _ inductionHypothesis =>
    rw [List.forall_mem_cons]
    refine ⟨⟨?_, head.amount, head.asset, head.counterparty⟩, inductionHypothesis⟩
    rw [head.kind]
    cases event.2 <;> simp [kindOf]

/-- The activities of a run are those of its calls in order; an execution is an unknown activity,
and none shows the key, the owner or the contract that it is about. -/
theorem account_feed (documented : codec.Documented) (calls : List (Env × Account.Call))
    (data : Account.Event → String) (entry : Account.AccountTransition → LedgerEntry) :
    ∃ activities, (accountLog codec data entry (history Account.step .empty calls)).mapM
        (normalise (decodeTopic codec)) = .ok activities ∧
      activities.map CanonicalEvent.kind =
        (history Account.step .empty calls).flatMap (fun transition =>
          kindsOf transition.input.2) ∧
      ∀ activity ∈ activities, activity.kind ≠ .relayExecuted ∧ activity.amount = none ∧
        activity.asset = none ∧ activity.counterparty = none := by
  obtain ⟨activities, normalised, shown⟩ := mapM_normalise documented data
    ((history Account.step .empty calls).flatMap fun transition =>
      (published transition.output.2).map fun event => (entry transition, event))
  refine ⟨activities, normalised, ?_, notExecuted_of_shown shown⟩
  rw [kinds_of_shown shown, List.map_flatMap]
  apply List.flatMap_congr
  intro transition member
  rw [← kinds_published_of_history transition member, List.map_map]
  rfl

end Feed

section Sample

open Classical in
/-- The value that is encoded by the bytes. -/
noncomputable def valueOf (bytes : Bytes) : Option Val :=
  if encoded : ∃ value : Val, value.toXdr = some bytes then some encoded.choose else none

noncomputable def sampleCodec : TopicCodec where
  encodeBase64 bytes := String.ofList ((Base64.btoa (bytes.map UInt8.toNat)).map Char.ofNat)
  decodeBase64 text :=
    (Base64.atob (text.toList.map Char.toNat)).map fun binary => binary.map UInt8.ofNat
  readScVal := valueOf
  display bytes := String.ofList (bytes.map fun byte => Char.ofNat byte.toNat)

theorem valueOf_toXdr {value : Val} {bytes : Bytes} (encoded : value.toXdr = some bytes) :
    valueOf bytes = some value := by
  have exists_value : ∃ value : Val, value.toXdr = some bytes := ⟨value, encoded⟩
  rw [valueOf, dif_pos exists_value]
  have same := Val.delimits exists_value.choose exists_value.choose_spec encoded
    (rfl : bytes ++ [] = bytes ++ [])
  rw [same.1]

theorem btoa_small {binary : List Nat} (small : ∀ byte ∈ binary, byte < 256) :
    ∀ unit ∈ Base64.btoa binary, unit < 128 := by
  intro unit member
  obtain letter | padding := List.mem_append.mp member
  · obtain ⟨digit, isDigit, rfl⟩ := List.mem_map.mp letter
    have each : ∀ digit < 64, Base64.unitOf digit < 128 := by decide
    exact each digit (Base64.digitsOf_lt small digit isDigit)
  · rw [List.eq_of_mem_replicate padding]
    decide

theorem sampleCodec_documented : sampleCodec.Documented where
  base64 bytes := by
    have small : ∀ byte ∈ bytes.map UInt8.toNat, byte < 256 :=
      List.forall_mem_map.mpr fun byte _ => byte.toNat_lt
    have units : (Base64.btoa (bytes.map UInt8.toNat)).map (Char.toNat ∘ Char.ofNat) =
        Base64.btoa (bytes.map UInt8.toNat) := by
      refine (List.map_congr_left fun unit member => ?_).trans (List.map_id _)
      have valid : unit.isValidChar := .inl (by have := btoa_small small unit member; omega)
      simp [Char.toNat_ofNat, valid]
    have restored : bytes.map (UInt8.ofNat ∘ UInt8.toNat) = bytes :=
      (List.map_congr_left fun byte _ => UInt8.ofNat_toNat).trans (List.map_id _)
    simp [sampleCodec, units, Base64.atob_btoa small, restored]
  scVal value bytes := valueOf_toXdr
  display symbol := (congrArg String.ofList symbol.name_eq).symm

/-- An account that its owner initializes and calls a contract with. -/
def executingCalls : List (Env × Account.Call) :=
  let owner : Address := .account (repeatedByte 1)
  let env : Env := .sample (.contract (repeatedByte 4)) 0 [owner] []
  [(env, .initializeAccount owner),
    (env, .execute {
      caller := .owner
      target := .contract (repeatedByte 5)
      function := (Account.Event.initialized owner).topic
      args := []
      expectedNonce := 0
      sessionPubKey := none
      signature := none
      signaturePayload := none })]

def sampleEntry (_ : Account.AccountTransition) : LedgerEntry where
  ledgerSeq := 1
  ledgerCloseTime := 0
  txHash := "tx"
  contractId := "C"
  hashPresent := by decide
  contractPresent := by decide

/-- The execution is unknown to the indexer. -/
theorem account_feed_of_sample :
    ∃ activities, (accountLog sampleCodec (fun _ => "") sampleEntry
        (history Account.step .empty executingCalls)).mapM
        (normalise (decodeTopic sampleCodec)) = .ok activities ∧
      activities.map CanonicalEvent.kind = [.initialized, .unknown] := by
  obtain ⟨activities, normalised, kinds, -⟩ :=
    account_feed sampleCodec_documented executingCalls (fun _ => "") sampleEntry
  exact ⟨activities, normalised, kinds⟩

end Sample

end Ancore.Indexer
