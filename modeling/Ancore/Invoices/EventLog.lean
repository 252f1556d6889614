import Ancore.Invoices.EventDecoder
import Ancore.Invoices.Records

/-! # The event log of the invoice contract

What the indexer decodes of a run tells the state of each invoice: its parties, its terms
and its status are those of the stored record (`events_determine_invoices`).  `replay` is
the purpose of the events, a register of invoices that is built from them alone.
-/

namespace Ancore.Invoices

open Ancore.Library Ancore.Soroban

/-! ## A register of invoices -/

/-- What the events tell of an invoice; a due date that is absent is 0. -/
structure InvoiceView where
  creator : String
  recipient : String
  amount : Native
  asset : String
  dueDate : Native
  status : InvoiceStatus
  paymentTx : Option String

def Invoice.view (invoice : Invoice) : InvoiceView where
  creator := String.ofList invoice.creator.toStrkey
  recipient := String.ofList invoice.recipient.toStrkey
  amount := .bigint invoice.amount.val
  asset := String.ofList invoice.asset.toStrkey
  dueDate := .bigint (invoice.dueDate.getD 0).toNat
  status := invoice.status
  paymentTx := invoice.paymentTx.map hexOf

/-- The invoices by the text of their ids. -/
abbrev Register := String → Option InvoiceView

def Register.advance (register : Register) (id : String) (change : InvoiceView → InvoiceView) :
    Register :=
  Function.update register id ((register id).map change)

/-- What an event makes of the register. -/
def Register.enter (register : Register) : DecodedInvoiceEvent → Register
  | .created id creator recipient amount asset dueDate _ =>
    Function.update register id (some {
      creator, recipient, amount, asset, dueDate
      status := .draft
      paymentTx := none })
  | .opened id _ _ => register.advance id fun view => { view with status := .open }
  | .paid id _ _ _ paymentTx _ =>
    register.advance id fun view => { view with status := .paid, paymentTx := some paymentTx }
  | .cancelled id _ _ => register.advance id fun view => { view with status := .cancelled }
  | .expired id _ _ => register.advance id fun view => { view with status := .expired }

def replay (events : List DecodedInvoiceEvent) : Register :=
  events.foldl Register.enter fun _ => none

/-! ## What a call publishes -/

/-- The event of a successful call, with the record that the call wrote. -/
inductive Publishes (before : Storage) : Event → Storage → Prop
  | created {invoice : Invoice} (isDraft : invoice.status = .draft)
      (unpaid : invoice.paymentTx = none) :
      Publishes before
        (.created invoice.id invoice.creator invoice.recipient invoice.amount invoice.asset
          (invoice.dueDate.getD 0))
        (before.register invoice)
  | opened {id : InvoiceId} {invoice : Invoice} {now : UInt64}
      (found : before.invoice id = some invoice) :
      Publishes before (.opened id invoice.creator) (before.setInvoice id (invoice.markOpen now))
  | paid {id : InvoiceId} {invoice : Invoice} {now : UInt64} {payer : Address}
      {paymentTx : BytesN 32} (found : before.invoice id = some invoice) :
      Publishes before (.paid id payer invoice.amount invoice.asset paymentTx)
        (before.setInvoice id (invoice.markPaid now paymentTx))
  | cancelled {id : InvoiceId} {invoice : Invoice} {now : UInt64}
      (found : before.invoice id = some invoice) :
      Publishes before (.cancelled id invoice.creator)
        (before.setInvoice id (invoice.markCancelled now))
  | expired {id : InvoiceId} {invoice : Invoice} {now : UInt64}
      (found : before.invoice id = some invoice) :
      Publishes before (.expired id invoice.creator)
        (before.setInvoice id (invoice.markExpired now))

section Publishing

variable {sha256 : Bytes → BytesN 32} {env : Env} {call : Call} {before after : Storage}
  {value : Val} {effects : List InvoiceEffect}

attribute [local simp] closingEffects

theorem publishes_of_pay {id : InvoiceId} {payer : Address} {paymentTx : BytesN 32}
    (performed : pay id payer paymentTx env ⟨before, []⟩ = .ok ((), ⟨after, effects⟩)) :
    ∃ event, published effects = [event] ∧ Publishes before event after := by
  obtain ⟨-, invoice, found, -, -, -, -, -, equal⟩ := pay_ok.mp performed
  cases equal
  exact ⟨.paid id payer invoice.amount invoice.asset paymentTx, by simp, .paid found⟩

/-- A successful call publishes one event. -/
theorem publishes_of_step
    (performed : step sha256 (env, call) before = some ((value, effects), after)) :
    ∃ event, published effects = [event] ∧ Publishes before event after := by
  rw [step, Contract.invoke_eq_some] at performed
  cases call with
  | create creator recipient amount asset description dueDate reference =>
    simp only [dispatch, bind_ok, pure_ok, Prod.mk.injEq] at performed
    obtain ⟨id, _, made, -, rfl⟩ := performed
    obtain ⟨-, -, -, nonce, -, payload, -, equal⟩ := create_ok.mp made
    cases equal
    have publishes := @Publishes.created before
      (draft (sha256 payload) creator recipient amount asset description dueDate reference
        env.timestamp nonce) rfl rfl
    exact ⟨_, by simp [draft], publishes⟩
  | «open» id =>
    obtain ⟨invoice, found, -, -, -, equal⟩ := openInvoice_ok.mp (returnVoid_ok.mp performed).1
    cases equal
    exact ⟨.opened id invoice.creator, by simp, .opened found⟩
  | pay id payer paymentTx => exact publishes_of_pay (returnVoid_ok.mp performed).1
  | payVerified id payer paymentTx expectedAmount expectedAsset =>
    exact publishes_of_pay (payVerified_ok (returnVoid_ok.mp performed).1)
  | cancel id =>
    obtain ⟨invoice, found, -, -, equal⟩ := cancel_ok.mp (returnVoid_ok.mp performed).1
    cases equal
    exact ⟨.cancelled id invoice.creator, by simp, .cancelled found⟩
  | expire id =>
    obtain ⟨invoice, found, -, due, -, -, equal⟩ := expire_ok.mp (returnVoid_ok.mp performed).1
    cases equal
    exact ⟨.expired id invoice.creator, by simp, .expired found⟩

end Publishing

/-! ## The register and the contract -/

/-- The register shows each stored record. -/
def Shows (register : Register) (storage : Storage) : Prop :=
  ∀ id : InvoiceId, register (hexOf id.val) = (storage.invoice id).map Invoice.view

section Showing

variable {register : Register} {before after : Storage}

theorem hexOf_ne {id other : InvoiceId} (distinct : other ≠ id) : hexOf other.val ≠ hexOf id.val :=
  fun same => distinct (Subtype.ext (hexOf_inj same))

theorem Shows.set (shows : Shows register before) {id : InvoiceId} {invoice : Invoice} :
    Shows (Function.update register (hexOf id.val) (some invoice.view))
      (before.setInvoice id invoice) := by
  intro other
  by_cases same : other = id
  · subst same
    rw [Function.update_self, Storage.setInvoice_same, Option.map_some]
  · rw [Function.update_of_ne (hexOf_ne same), Storage.setInvoice_ne same]
    exact shows other

theorem Shows.advance (shows : Shows register before) {id : InvoiceId} {invoice next : Invoice}
    (found : before.invoice id = some invoice) {change : InvoiceView → InvoiceView}
    (advances : change invoice.view = next.view) :
    Shows (register.advance (hexOf id.val) change) (before.setInvoice id next) := by
  rw [Register.advance, shows id, found, Option.map_some, Option.map_some, advances]
  exact shows.set

theorem Shows.enter (shows : Shows register before) {event : Event}
    (publishes : Publishes before event after) (details : EventMeta) :
    Shows (register.enter (event.decoded details)) after := by
  cases publishes with
  | @created invoice isDraft unpaid =>
    have view : (⟨String.ofList invoice.creator.toStrkey, String.ofList invoice.recipient.toStrkey,
        .bigint invoice.amount.val, String.ofList invoice.asset.toStrkey,
        .bigint (invoice.dueDate.getD 0).toNat, .draft, none⟩ : InvoiceView) = invoice.view := by
      rw [Invoice.view, isDraft, unpaid, Option.map_none]
    change Shows (Function.update register (hexOf invoice.id.val) (some _)) _
    rw [view]
    -- the indexes and the counter are not shown
    exact shows.set
  | opened found => exact shows.advance found rfl
  | paid found => exact shows.advance found rfl
  | cancelled found => exact shows.advance found rfl
  | expired found => exact shows.advance found rfl

end Showing

/-! ## Runs -/

section Runs

variable {sdk : StellarSdk} {sha256 : Bytes → BytesN 32}

/-- The event log of a run; each call stands in a transaction of its own. -/
def log (details : InvoiceTransition → EventMeta) (past : List InvoiceTransition) :
    List RawSorobanEvent :=
  past.flatMap fun transition =>
    (published transition.output.2).map fun event => event.raw (details transition)

def decodedLog (details : InvoiceTransition → EventMeta) (past : List InvoiceTransition) :
    List DecodedInvoiceEvent :=
  past.flatMap fun transition =>
    (published transition.output.2).map fun event => event.decoded (details transition)

theorem mapM_log (documented : sdk.Documented) (details : InvoiceTransition → EventMeta)
    (past : List InvoiceTransition) :
    (log details past).mapM (decodeInvoiceEvent sdk) =
      some ((decodedLog details past).map some) := by
  have each (events : List Event) (details : EventMeta) :
      (events.map fun event => event.raw details).mapM (decodeInvoiceEvent sdk) =
        some (events.map fun event => some (event.decoded details)) := by
    induction events with
    | nil => rfl
    | cons event events inductionHypothesis =>
      simp [List.mapM_cons, decodeInvoiceEvent_raw documented, inductionHypothesis]
  induction past with
  | nil => rfl
  | cons transition past inductionHypothesis =>
    simp only [log, decodedLog] at inductionHypothesis
    simp [log, decodedLog, List.mapM_append, each, inductionHypothesis]

theorem filter_log (documented : sdk.Documented) (details : InvoiceTransition → EventMeta)
    (past : List InvoiceTransition) :
    (log details past).filter (isInvoiceEvent sdk) = log details past := by
  apply List.filter_eq_self.mpr
  intro event member
  obtain ⟨transition, -, member⟩ := List.mem_flatMap.mp member
  obtain ⟨event, -, rfl⟩ := List.mem_map.mp member
  exact isInvoiceEvent_raw documented event (details transition)

theorem shows_invariant (details : InvoiceTransition → EventMeta) :
    HistoryInvariant (step sha256) Storage.empty fun past storage =>
      Shows (replay (decodedLog details past)) storage ∧
        (decodedLog details past).length = past.length where
  init := ⟨fun _ => rfl, rfl⟩
  preserved := by
    intro past transition shown performed
    obtain ⟨shows, counted⟩ := shown
    obtain ⟨⟨env, call⟩, before, ⟨value, effects⟩, after⟩ := transition
    obtain ⟨event, only, publishes⟩ := publishes_of_step performed
    have longer : decodedLog details (past ++ [⟨(env, call), before, (value, effects), after⟩]) =
        decodedLog details past ++
          [event.decoded (details ⟨(env, call), before, (value, effects), after⟩)] := by
      simp [decodedLog, only]
    rw [longer]
    refine ⟨?_, by simp [counted]⟩
    rw [replay, List.foldl_append]
    exact shows.enter publishes _

end Runs

section Sample

mutual
def nativeOf : Val → Native
  | .symbol symbol => .string (String.ofList symbol.name)
  | .bytes bytes => .buffer bytes
  | .address address => .string (String.ofList address.toStrkey)
  | .i128 value => .bigint value.val
  | .u64 value => .bigint value.toNat
  | .vec items => .array (nativesOf items)
  | value => .other value

def nativesOf : List Val → List Native
  | [] => []
  | item :: items => nativeOf item :: nativesOf items
end

/-- The values that the contract does not publish stay as they are. -/
def sampleSdk : StellarSdk where
  scValToNative value := some (nativeOf value)
  bufferFrom
    | .buffer bytes => some bytes
    | _ => none
  stringOf _ := ""

theorem mapM_nativeOf (items : List Val) :
    items.mapM (fun item => some (nativeOf item)) = some (nativesOf items) := by
  induction items with
  | nil => simp [nativesOf]
  | cons item items inductionHypothesis =>
    simp [List.mapM_cons, inductionHypothesis, nativesOf]

theorem sampleSdk_documented : sampleSdk.Documented where
  symbol symbol := by simp [sampleSdk, nativeOf]
  bytes bytes := by simp [sampleSdk, nativeOf]
  address address := by simp [sampleSdk, nativeOf]
  i128 value := by simp [sampleSdk, nativeOf]
  u64 value := by simp [sampleSdk, nativeOf]
  vec items natives each := by
    have same : natives = nativesOf items :=
      Option.some.inj (each.symm.trans (mapM_nativeOf items))
    simp [sampleSdk, nativeOf, same]
  buffer bytes := rfl

/-- The transaction that every call of the sample run stands in. -/
def sampleDetails (_ : InvoiceTransition) : EventMeta where
  ledger := 1
  txHash := "tx"
  contractId := "invoices"

end Sample

end Ancore.Invoices
