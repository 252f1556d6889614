import Ancore.Invoices.Contract
import Ancore.Library.EcmaScript
import Ancore.Soroban.StrKey

/-! # The events of the invoice contract and their decoder

What the contract publishes as topics and a body, and `decodeInvoiceEvents` of the
relayer's indexer, which reads it.  The decoder goes through `scValToNative` of
stellar-sdk, which is a parameter (`StellarSdk`), with what it does to the values that
the contract publishes (`StellarSdk.Documented`).
-/

namespace Ancore.Invoices

open Ancore.Library Ancore.Soroban

/-! ## What the contract publishes -/

def invSymbol : Symbol := ⟨"inv".toList, by decide, by simp [isSymbolChar]⟩
def createdSymbol : Symbol := ⟨"created".toList, by decide, by simp [isSymbolChar]⟩
def openedSymbol : Symbol := ⟨"opened".toList, by decide, by simp [isSymbolChar]⟩
def paidSymbol : Symbol := ⟨"paid".toList, by decide, by simp [isSymbolChar]⟩
def cancelledSymbol : Symbol := ⟨"cancelled".toList, by decide, by simp [isSymbolChar]⟩
def expiredSymbol : Symbol := ⟨"expired".toList, by decide, by simp [isSymbolChar]⟩

namespace Event

def name : Event → Symbol
  | created .. => createdSymbol
  | opened .. => openedSymbol
  | paid .. => paidSymbol
  | cancelled .. => cancelledSymbol
  | expired .. => expiredSymbol

def topics (event : Event) : List Val := [.symbol invSymbol, .symbol event.name]

def body : Event → Val
  | created id creator recipient amount asset dueDate =>
    .vec [.bytes id.val, .address creator, .address recipient, .i128 amount, .address asset,
      .u64 dueDate]
  | opened id creator => .vec [.bytes id.val, .address creator]
  | paid id payer amount asset tx =>
    .vec [.bytes id.val, .address payer, .i128 amount, .address asset, .bytes tx.val]
  | cancelled id cancelledBy => .vec [.bytes id.val, .address cancelledBy]
  | expired id creator => .vec [.bytes id.val, .address creator]

end Event

/-! ## stellar-sdk -/

/-- The values of ECMAScript that the decoder tells apart. -/
inductive Native where
  | undefined
  | string (text : String)
  | bigint (value : Int)
  | buffer (bytes : Bytes)
  | array (items : List Native)
  | other (value : Val)

structure StellarSdk where
  /-- none where it throws -/
  scValToNative : Val → Option Native
  /-- `Buffer.from(value)`; none where it throws -/
  bufferFrom : Native → Option Bytes
  /-- `String(value)` -/
  stringOf : Native → String

/-- What is documented of the values that the contract publishes. -/
structure StellarSdk.Documented (sdk : StellarSdk) : Prop where
  symbol : ∀ symbol : Symbol,
    sdk.scValToNative (.symbol symbol) = some (.string (String.ofList symbol.name))
  bytes : ∀ bytes, sdk.scValToNative (.bytes bytes) = some (.buffer bytes)
  address : ∀ address : Address,
    sdk.scValToNative (.address address) = some (.string (String.ofList address.toStrkey))
  i128 : ∀ value : Int128, sdk.scValToNative (.i128 value) = some (.bigint value.val)
  u64 : ∀ value : UInt64, sdk.scValToNative (.u64 value) = some (.bigint value.toNat)
  vec : ∀ items natives, items.mapM sdk.scValToNative = some natives →
    sdk.scValToNative (.vec items) = some (.array natives)
  buffer : ∀ bytes, sdk.bufferFrom (.buffer bytes) = some bytes

/-! ## The decoder -/

structure RawSorobanEvent where
  contractId : String
  topics : List Val
  body : Val
  ledger : Nat
  txHash : String

/-- `...meta` -/
structure EventMeta where
  ledger : Nat
  txHash : String
  contractId : String
  deriving DecidableEq

inductive DecodedInvoiceEvent where
  | created (id creator recipient : String) (amount : Native) (asset : String) (dueDate : Native)
      (details : EventMeta)
  | opened (id creator : String) (details : EventMeta)
  | paid (id payer : String) (amount : Native) (asset paymentTx : String) (details : EventMeta)
  | cancelled (id cancelledBy : String) (details : EventMeta)
  | expired (id creator : String) (details : EventMeta)

/-- The hexadecimal text of bytes. -/
def hexOf (bytes : Bytes) : String := EcmaScript.hexOfBytes ⟨bytes.toArray⟩

/-- The element of a destructured array. -/
def element (items : List Native) (index : Nat) : Native := items.getD index .undefined

section Decoder

variable (sdk : StellarSdk)

/-- `Buffer.from(buf).toString('hex')`; none where it throws -/
def bufferToHex (buf : Native) : Option String := (sdk.bufferFrom buf).map hexOf

def normalizeAddress : Native → String
  | .string text => text
  | value => sdk.stringOf value

def isInvoiceEvent (event : RawSorobanEvent) : Bool :=
  match event.topics with
  | topic :: _ :: _ =>
    match sdk.scValToNative topic with
    | some (.string text) => text = "inv"
    | _ => false
  | _ => false

def decodeBody (name : Native) (body : List Native) (details : EventMeta) :
    Option (Option DecodedInvoiceEvent) :=
  let address (index : Nat) : String := normalizeAddress sdk (element body index)
  match name with
  | .string eventName =>
    if eventName = "created" then do
      let id ← bufferToHex sdk (element body 0)
      return some (.created id (address 1) (address 2) (element body 3) (address 4)
        (element body 5) details)
    else if eventName = "opened" then do
      let id ← bufferToHex sdk (element body 0)
      return some (.opened id (address 1) details)
    else if eventName = "paid" then do
      let id ← bufferToHex sdk (element body 0)
      let paymentTx ← bufferToHex sdk (element body 4)
      return some (.paid id (address 1) (element body 2) (address 3) paymentTx details)
    else if eventName = "cancelled" then do
      let id ← bufferToHex sdk (element body 0)
      return some (.cancelled id (address 1) details)
    else if eventName = "expired" then do
      let id ← bufferToHex sdk (element body 0)
      return some (.expired id (address 1) details)
    else some none
  | _ => some none

/-- none where it throws, and `some none` for `null` -/
def decodeInvoiceEvent (event : RawSorobanEvent) : Option (Option DecodedInvoiceEvent) :=
  if !isInvoiceEvent sdk event then some none
  else
    match event.topics[1]?.bind sdk.scValToNative with
    | none => some none
    | some eventName =>
      match sdk.scValToNative event.body with
      | none => none
      | some (.array body) =>
        decodeBody sdk eventName body ⟨event.ledger, event.txHash, event.contractId⟩
      | some _ => some none

/-- One event that throws takes the whole batch with it. -/
def decodeInvoiceEvents (events : List RawSorobanEvent) : Option (List DecodedInvoiceEvent) := do
  let decoded ← (events.filter (isInvoiceEvent sdk)).mapM (decodeInvoiceEvent sdk)
  return decoded.filterMap id

end Decoder

/-! ## What is decoded of an event of the contract -/

/-- The event of the contract as the indexer has it. -/
def Event.decoded (event : Event) (details : EventMeta) : DecodedInvoiceEvent :=
  let text (address : Address) : String := String.ofList address.toStrkey
  match event with
  | .created id creator recipient amount asset dueDate =>
    .created (hexOf id.val) (text creator) (text recipient) (.bigint amount.val) (text asset)
      (.bigint dueDate.toNat) details
  | .opened id creator => .opened (hexOf id.val) (text creator) details
  | .paid id payer amount asset tx =>
    .paid (hexOf id.val) (text payer) (.bigint amount.val) (text asset) (hexOf tx.val) details
  | .cancelled id cancelledBy => .cancelled (hexOf id.val) (text cancelledBy) details
  | .expired id creator => .expired (hexOf id.val) (text creator) details

/-- The event on the ledger. -/
def Event.raw (event : Event) (details : EventMeta) : RawSorobanEvent where
  contractId := details.contractId
  topics := event.topics
  body := event.body
  ledger := details.ledger
  txHash := details.txHash

section Decoded

variable {sdk : StellarSdk}

theorem isInvoiceEvent_raw (documented : sdk.Documented) (event : Event) (details : EventMeta) :
    isInvoiceEvent sdk (event.raw details) = true := by
  have topic : sdk.scValToNative (.symbol invSymbol) = some (.string "inv") :=
    documented.symbol invSymbol
  simp only [isInvoiceEvent, Event.raw, Event.topics, topic, decide_true]

/-- The body of an event, item by item. -/
theorem scValToNative_vec (documented : sdk.Documented) {items : List Val} {natives : List Native}
    (each : List.Forall₂ (fun item native => sdk.scValToNative item = some native) items natives) :
    sdk.scValToNative (.vec items) = some (.array natives) := by
  apply documented.vec
  induction each with
  | nil => rfl
  | cons head _ inductionHypothesis => simp [List.mapM_cons, head, inductionHypothesis]

/-- The body of an event as the decoder has it. -/
def Event.natives (event : Event) : List Native :=
  let text (address : Address) : Native := .string (String.ofList address.toStrkey)
  match event with
  | .created id creator recipient amount asset dueDate =>
    [.buffer id.val, text creator, text recipient, .bigint amount.val, text asset,
      .bigint dueDate.toNat]
  | .opened id creator => [.buffer id.val, text creator]
  | .paid id payer amount asset tx =>
    [.buffer id.val, text payer, .bigint amount.val, text asset, .buffer tx.val]
  | .cancelled id cancelledBy => [.buffer id.val, text cancelledBy]
  | .expired id creator => [.buffer id.val, text creator]

theorem scValToNative_body (documented : sdk.Documented) (event : Event) :
    sdk.scValToNative event.body = some (.array event.natives) := by
  cases event with
  | created id creator recipient amount asset dueDate =>
    exact scValToNative_vec documented (.cons (documented.bytes _) (.cons (documented.address _)
      (.cons (documented.address _) (.cons (documented.i128 _) (.cons (documented.address _)
        (.cons (documented.u64 _) .nil))))))
  | opened id creator =>
    exact scValToNative_vec documented (.cons (documented.bytes _)
      (.cons (documented.address _) .nil))
  | paid id payer amount asset tx =>
    exact scValToNative_vec documented (.cons (documented.bytes _) (.cons (documented.address _)
      (.cons (documented.i128 _) (.cons (documented.address _) (.cons (documented.bytes _) .nil)))))
  | cancelled id cancelledBy =>
    exact scValToNative_vec documented (.cons (documented.bytes _)
      (.cons (documented.address _) .nil))
  | expired id creator =>
    exact scValToNative_vec documented (.cons (documented.bytes _)
      (.cons (documented.address _) .nil))

theorem bufferToHex_buffer (documented : sdk.Documented) (bytes : Bytes) :
    bufferToHex sdk (.buffer bytes) = some (hexOf bytes) := by
  rw [bufferToHex, documented.buffer, Option.map_some]

theorem decodeBody_natives (documented : sdk.Documented) (event : Event) (details : EventMeta) :
    decodeBody sdk (.string (String.ofList event.name.name)) event.natives details =
      some (some (event.decoded details)) := by
  have hex := bufferToHex_buffer documented
  cases event with
  | created id creator recipient amount asset dueDate =>
    change (bufferToHex sdk (.buffer id.val)).bind _ = _
    rw [hex]
    rfl
  | opened id creator =>
    change (bufferToHex sdk (.buffer id.val)).bind _ = _
    rw [hex]
    rfl
  | paid id payer amount asset tx =>
    change (bufferToHex sdk (.buffer id.val)).bind (fun id =>
      (bufferToHex sdk (.buffer tx.val)).bind _) = _
    rw [hex, hex]
    rfl
  | cancelled id cancelledBy =>
    change (bufferToHex sdk (.buffer id.val)).bind _ = _
    rw [hex]
    rfl
  | expired id creator =>
    change (bufferToHex sdk (.buffer id.val)).bind _ = _
    rw [hex]
    rfl

theorem decodeInvoiceEvent_raw (documented : sdk.Documented) (event : Event)
    (details : EventMeta) :
    decodeInvoiceEvent sdk (event.raw details) = some (some (event.decoded details)) := by
  have eventName : (event.raw details).topics[1]?.bind sdk.scValToNative =
      some (.string (String.ofList event.name.name)) :=
    documented.symbol event.name
  have body : sdk.scValToNative (event.raw details).body = some (.array event.natives) :=
    scValToNative_body documented event
  rw [decodeInvoiceEvent, isInvoiceEvent_raw documented, eventName]
  simp only [Bool.not_true, Bool.false_eq_true, if_false, body]
  exact decodeBody_natives documented event details

theorem hexOf_inj {bytes bytes' : Bytes} (same : hexOf bytes = hexOf bytes') : bytes = bytes' := by
  have arrays := congrArg ByteArray.data (EcmaScript.hexOfBytes_inj same)
  exact Array.toList_inj.mpr arrays

end Decoded

end Ancore.Invoices
