import Ancore.Soroban.Host

/-! # The invoice contract

An invoice is created as a draft, opened by its creator and then paid by its
recipient, cancelled by its creator or expired by anyone once it is overdue.
Records are kept under an id that is the SHA-256 hash of the creation parameters;
two indexes list the ids of each creator and of each recipient.

The host's hash function is the parameter `sha256` of the model.
-/

namespace Ancore.Invoices

open Ancore.Library Ancore.Library.FixedWidth Ancore.Soroban

/-! ## Data model -/

inductive InvoiceError where
  | alreadyExists
  | notFound
  | unauthorized
  | invalidStatus
  | alreadyPaid
  | expired
  | invalidAmount
  | invalidDueDate
  | assetMismatch
  | amountMismatch
deriving DecidableEq

inductive InvoiceStatus where
  | draft
  | open
  | paid
  | expired
  | cancelled
deriving DecidableEq

abbrev InvoiceId := BytesN 32

structure Invoice where
  id : InvoiceId
  creator : Address
  recipient : Address
  amount : Int128
  asset : Address
  status : InvoiceStatus
  description : Option Bytes
  dueDate : Option UInt64
  reference : Option Bytes
  createdAt : UInt64
  updatedAt : UInt64
  openedAt : Option UInt64
  paidAt : Option UInt64
  paymentTx : Option Bytes
  cancelledAt : Option UInt64
  expiredAt : Option UInt64
  nonce : UInt64
deriving DecidableEq

namespace Invoice

variable (invoice : Invoice) (now : UInt64)

def markOpen : Invoice :=
  { invoice with
    status := .open
    openedAt := some now
    updatedAt := now }

def markPaid (paymentTx : BytesN 32) : Invoice :=
  { invoice with
    status := .paid
    paidAt := some now
    paymentTx := some paymentTx.val
    updatedAt := now }

def markCancelled : Invoice :=
  { invoice with
    status := .cancelled
    cancelledAt := some now
    updatedAt := now }

def markExpired : Invoice :=
  { invoice with
    status := .expired
    expiredAt := some now
    updatedAt := now }

end Invoice

/-- Instance storage: the counter, the records and the two indexes. -/
structure Storage where
  counter : Option UInt64
  invoice : InvoiceId → Option Invoice
  creatorIndex : Address → Option (List InvoiceId)
  recipientIndex : Address → Option (List InvoiceId)

def Storage.empty : Storage where
  counter := none
  invoice _ := none
  creatorIndex _ := none
  recipientIndex _ := none

def Storage.setInvoice (storage : Storage) (id : InvoiceId) (invoice : Invoice) : Storage :=
  { storage with invoice := Function.update storage.invoice id (some invoice) }

/-- `push_to_index` on one of the two indexes. -/
def pushToIndex (index : Address → Option (List InvoiceId)) (key : Address) (id : InvoiceId) :
    Address → Option (List InvoiceId) :=
  Function.update index key (some ((index key).getD [] ++ [id]))

def Storage.pushCreator (storage : Storage) (creator : Address) (id : InvoiceId) : Storage :=
  { storage with creatorIndex := pushToIndex storage.creatorIndex creator id }

def Storage.pushRecipient (storage : Storage) (recipient : Address) (id : InvoiceId) : Storage :=
  { storage with recipientIndex := pushToIndex storage.recipientIndex recipient id }

inductive Event where
  | created (id : InvoiceId) (creator recipient : Address) (amount : Int128) (asset : Address)
      (dueDate : UInt64)
  | opened (id : InvoiceId) (creator : Address)
  | paid (id : InvoiceId) (payer : Address) (amount : Int128) (asset : Address) (tx : BytesN 32)
  | cancelled (id : InvoiceId) (cancelledBy : Address)
  | expired (id : InvoiceId) (creator : Address)

/-- The entry points that can change the contract. -/
inductive Call where
  | create (creator recipient : Address) (amount : Int128) (asset : Address)
      (description : Option Bytes) (dueDate : Option UInt64) (reference : Option Bytes)
  | open (id : InvoiceId)
  | pay (id : InvoiceId) (payer : Address) (paymentTx : BytesN 32)
  | payVerified (id : InvoiceId) (payer : Address) (paymentTx : BytesN 32)
      (expectedAmount : Option Int128) (expectedAsset : Option Address)
  | cancel (id : InvoiceId)
  | expire (id : InvoiceId)

/-- The contract has no persistent entries. -/
abbrev InvoiceM := Contract InvoiceError Storage Empty Event

abbrev InvoiceEffect := Effect Empty Event

/-! ## Instance lifetime -/

def instanceBumpAmount : UInt32 := 30 * 17280
def instanceBumpThreshold : UInt32 := 15 * 17280

/-- `u32::try_from(value).unwrap_or(u32::MAX)` -/
def clampToUInt32 (value : UInt64) : UInt32 :=
  if value.toNat < 2 ^ 32 then value.toUInt32 else 0xFFFFFFFF

/-- The threshold and the amount `extend_ttl` bumps the instance by. -/
def ttlBump (current : UInt64) : Option UInt64 → UInt32 × UInt32
  | some due =>
    if due > current then
      let ledgersToLive : UInt32 :=
        saturatingAdd (clampToUInt32 (saturatingSub due current / 5)) instanceBumpAmount
      (saturatingSub ledgersToLive (instanceBumpAmount / 2), ledgersToLive)
    else (instanceBumpThreshold, instanceBumpAmount)
  | none => (instanceBumpThreshold, instanceBumpAmount)

/-- Extends the contract instance TTL after every write. -/
def extendTtl (dueDate : Option UInt64) : InvoiceM Unit := do
  let env ← getEnv
  extendInstanceTtl (ttlBump env.timestamp dueDate).1 (ttlBump env.timestamp dueDate).2

/-! ## Entry points -/

/-- The bytes an invoice id is the hash of. -/
def idPayload (creator recipient : Address) (amount : Int128) (asset : Address)
    (nonce timestamp : UInt64) : Option Bytes :=
  encodeAll Val.toXdr
    [.address creator, .address recipient, .i128 amount, .address asset, .u64 nonce, .u64 timestamp]

/-- The due date lies before or at the present. -/
def dueBy (dueDate : Option UInt64) (now : UInt64) : Bool := dueDate.any fun due => now ≥ due

/-- The due date lies before the present. -/
def overdue (dueDate : Option UInt64) (now : UInt64) : Bool := dueDate.any fun due => now > due

def getInvoice (id : InvoiceId) : InvoiceM Invoice := do
  let storage ← getStorage
  okOr (storage.invoice id) .notFound

/-- Creates a new invoice in draft status and returns its id. -/
def create (sha256 : Bytes → BytesN 32) (creator recipient : Address) (amount : Int128)
    (asset : Address) (description : Option Bytes) (dueDate : Option UInt64)
    (reference : Option Bytes) : InvoiceM InvoiceId := do
  requireAuth creator
  failIf (amount ≤ 0) .invalidAmount
  let env ← getEnv
  failIf (dueBy dueDate env.timestamp) .invalidDueDate
  let storage ← getStorage
  -- the release profile checks additions for overflow
  let nonce ← unwrap (checkedAdd (storage.counter.getD 0) 1)
  modifyStorage fun storage => { storage with counter := some nonce }
  let payload ← unwrap (idPayload creator recipient amount asset nonce env.timestamp)
  let id := sha256 payload
  -- nothing checks that the id is new
  modifyStorage fun storage => storage.setInvoice id {
    id := id
    creator := creator
    recipient := recipient
    amount := amount
    asset := asset
    status := .draft
    description := description
    dueDate := dueDate
    reference := reference
    createdAt := env.timestamp
    updatedAt := env.timestamp
    openedAt := none
    paidAt := none
    paymentTx := none
    cancelledAt := none
    expiredAt := none
    nonce := nonce }
  modifyStorage fun storage => storage.pushCreator creator id
  modifyStorage fun storage => storage.pushRecipient recipient id
  extendTtl dueDate
  publish (.created id creator recipient amount asset (dueDate.getD 0))
  return id

/-- Transitions a draft invoice to open, making it payable by the recipient. -/
def openInvoice (id : InvoiceId) : InvoiceM Unit := do
  let invoice ← getInvoice id
  requireAuth invoice.creator
  failIf (invoice.status ≠ .draft) .invalidStatus
  let env ← getEnv
  failIf (dueBy invoice.dueDate env.timestamp) .expired
  modifyStorage fun storage => storage.setInvoice id (invoice.markOpen env.timestamp)
  extendTtl invoice.dueDate
  publish (.opened id invoice.creator)

/-- The common end of `expire` and of the expiry branch of `pay`. -/
def writeExpired (id : InvoiceId) (invoice : Invoice) : InvoiceM Unit := do
  let env ← getEnv
  modifyStorage fun storage => storage.setInvoice id (invoice.markExpired env.timestamp)
  extendTtl none
  publish (.expired id invoice.creator)

theorem transfer_short : "transfer".toList.length ≤ 32 := by decide

theorem transfer_wellFormed : ∀ c ∈ "transfer".toList, isSymbolChar c = true := by
  simp [isSymbolChar]

def transferSymbol : Symbol := ⟨"transfer".toList, transfer_short, transfer_wellFormed⟩

/-- The client of a function without a result traps on any other answer than the unit value. -/
def expectVoid : Val → InvoiceM Unit
  | .void => pure ()
  | _ => trap

/-- `token::Client::transfer` -/
def tokenTransfer (asset payer payee : Address) (amount : Int128) : InvoiceM Unit := do
  let answer ← invokeContract asset transferSymbol [.address payer, .address payee, .i128 amount]
  expectVoid answer

/-- Pays an open invoice; only its recipient may call this. -/
def pay (id : InvoiceId) (payer : Address) (paymentTx : BytesN 32) : InvoiceM Unit := do
  requireAuth payer
  let invoice ← getInvoice id
  failIf (payer ≠ invoice.recipient) .unauthorized
  failIf (invoice.status = .paid) .alreadyPaid
  failIf (invoice.status ≠ .open) .invalidStatus
  let env ← getEnv
  if overdue invoice.dueDate env.timestamp then
    -- the error takes these writes back
    writeExpired id invoice
    failWith .expired
  else
    tokenTransfer invoice.asset payer invoice.creator invoice.amount
    modifyStorage fun storage =>
      storage.setInvoice id (invoice.markPaid env.timestamp paymentTx)
    extendTtl none
    publish (.paid id payer invoice.amount invoice.asset paymentTx)

/-- Pays an open invoice with optional caller-supplied expected amount and asset verification. -/
def payVerified (id : InvoiceId) (payer : Address) (paymentTx : BytesN 32)
    (expectedAmount : Option Int128) (expectedAsset : Option Address) : InvoiceM Unit := do
  let invoice ← getInvoice id
  failIf (expectedAmount.any fun amount => amount ≠ invoice.amount) .amountMismatch
  failIf (expectedAsset.any fun asset => asset ≠ invoice.asset) .assetMismatch
  pay id payer paymentTx

/-- Cancels a draft or open invoice; only its creator may cancel. -/
def cancel (id : InvoiceId) : InvoiceM Unit := do
  let invoice ← getInvoice id
  requireAuth invoice.creator
  failIf (invoice.status ≠ .open ∧ invoice.status ≠ .draft) .invalidStatus
  let env ← getEnv
  modifyStorage fun storage => storage.setInvoice id (invoice.markCancelled env.timestamp)
  extendTtl none
  publish (.cancelled id invoice.creator)

/-- Expires an open invoice whose due date has passed; anyone may call this. -/
def expire (id : InvoiceId) : InvoiceM Unit := do
  let invoice ← getInvoice id
  failIf (invoice.status ≠ .open) .invalidStatus
  let env ← getEnv
  let due ← okOr invoice.dueDate .invalidStatus
  failIf (env.timestamp ≤ due) .invalidStatus
  writeExpired id invoice

/-! ## Queries -/

/-- All invoice ids created by this account. -/
def listByCreator (storage : Storage) (creator : Address) : List InvoiceId :=
  (storage.creatorIndex creator).getD []

/-- All invoice ids where this address is the recipient. -/
def listByRecipient (storage : Storage) (recipient : Address) : List InvoiceId :=
  (storage.recipientIndex recipient).getD []

/-- All resolved invoices where this account is either the creator or the recipient. -/
def getByAccount (storage : Storage) (account : Address) : List Invoice :=
  let creatorIds := listByCreator storage account
  let recipientIds := listByRecipient storage account
  creatorIds.filterMap storage.invoice ++
    (recipientIds.filter fun id => !creatorIds.contains id).filterMap storage.invoice

/-! ## The contract as a state machine -/

section Machine

variable (sha256 : Bytes → BytesN 32)

/-- The entry point a call goes to. -/
def dispatch : Call → InvoiceM Val
  | .create creator recipient amount asset description dueDate reference => do
    let id ← create sha256 creator recipient amount asset description dueDate reference
    return .bytes id.val
  | .open id => returnVoid (openInvoice id)
  | .pay id payer paymentTx => returnVoid (pay id payer paymentTx)
  | .payVerified id payer paymentTx expectedAmount expectedAsset =>
    returnVoid (payVerified id payer paymentTx expectedAmount expectedAsset)
  | .cancel id => returnVoid (cancel id)
  | .expire id => returnVoid (expire id)

/-- One call to the contract, in the environment the host gives it. -/
def step (input : Env × Call) (storage : Storage) :
    Option ((Val × List InvoiceEffect) × Storage) :=
  (dispatch sha256 input.2).invoke input.1 storage

end Machine

end Ancore.Invoices
