import Ancore.Invoices.Contract

/-! # The invoice contract: the step relation

`Advance env call invoice authorized invoked next` says which calls advance a
stored invoice, under which conditions, and what they make of it.  `Change` is a
whole successful call: it creates a record or advances one.  `RecordChange` is
what such a call looks like from one invoice id.
-/

namespace Ancore.Invoices

open Ancore.Library Ancore.Library.FixedWidth Ancore.Soroban

/-! ## Storage updates -/

section Updates

variable {storage : Storage} {id other : InvoiceId} {invoice : Invoice}

@[simp] theorem Storage.setInvoice_same :
    (storage.setInvoice id invoice).invoice id = some invoice := by
  simp [Storage.setInvoice]

@[simp] theorem Storage.setInvoice_ne (distinct : other ≠ id) :
    (storage.setInvoice id invoice).invoice other = storage.invoice other := by
  simp [Storage.setInvoice, distinct]

end Updates

/-! ## Entry points -/

section EntryPoints

variable {env : Env} {frame : Frame Storage Empty Event} {storage : Storage}
  {done : Unit × Frame Storage Empty Event} {id : InvoiceId} {invoice : Invoice}

/-- The effects every entry point ends with. -/
def closingEffects (env : Env) (dueDate : Option UInt64) (event : Event) : List InvoiceEffect :=
  [.extendInstanceTtl (ttlBump env.timestamp dueDate).1 (ttlBump env.timestamp dueDate).2,
    .event event]

/-- The transfer a payment of the invoice asks its asset for. -/
def transferCall (invoice : Invoice) : Invocation :=
  ⟨invoice.asset, transferSymbol,
    [.address invoice.recipient, .address invoice.creator, .i128 invoice.amount]⟩

/-- A new record. -/
def draft (id : InvoiceId) (creator recipient : Address) (amount : Int128) (asset : Address)
    (description : Option Bytes) (dueDate : Option UInt64) (reference : Option Bytes)
    (now nonce : UInt64) : Invoice where
  id := id
  creator := creator
  recipient := recipient
  amount := amount
  asset := asset
  status := .draft
  description := description
  dueDate := dueDate
  reference := reference
  createdAt := now
  updatedAt := now
  openedAt := none
  paidAt := none
  paymentTx := none
  cancelledAt := none
  expiredAt := none
  nonce := nonce

/-- Store a new record, with its nonce taken and its id entered into the two indexes. -/
def Storage.register (storage : Storage) (invoice : Invoice) : Storage :=
  ((({ storage with counter := some invoice.nonce }.setInvoice invoice.id invoice).pushCreator
    invoice.creator invoice.id).pushRecipient invoice.recipient invoice.id)

attribute [local simp] publish extendInstanceTtl closingEffects

@[simp] theorem extendTtl_ok {dueDate : Option UInt64} :
    extendTtl dueDate env frame = .ok done ↔
      done = ((), { frame with effects := frame.effects ++
        [.extendInstanceTtl (ttlBump env.timestamp dueDate).1
          (ttlBump env.timestamp dueDate).2] }) := by
  simp [extendTtl]

@[simp] theorem getInvoice_ok {result : Invoice × Frame Storage Empty Event} :
    getInvoice id env frame = .ok result ↔
      frame.storage.invoice id = some result.1 ∧ result.2 = frame := by
  simp [getInvoice, and_comm]

theorem create_ok {sha256 : Bytes → BytesN 32} {creator recipient : Address} {amount : Int128}
    {asset : Address} {description reference : Option Bytes} {dueDate : Option UInt64}
    {result : InvoiceId × Frame Storage Empty Event} :
    create sha256 creator recipient amount asset description dueDate reference env frame =
        .ok result ↔
      env.authorized creator = true ∧ 0 < amount ∧ dueBy dueDate env.timestamp = false ∧
        ∃ nonce : UInt64, nonce.toNat = (frame.storage.counter.getD 0).toNat + 1 ∧
          ∃ payload, idPayload creator recipient amount asset nonce env.timestamp = some payload ∧
            result = (sha256 payload,
              ⟨frame.storage.register (draft (sha256 payload) creator recipient amount asset
                description dueDate reference env.timestamp nonce),
              frame.effects ++ .auth creator :: closingEffects env dueDate
                (.created (sha256 payload) creator recipient amount asset (dueDate.getD 0))⟩) := by
  simp [create, checkedAdd_uint64_eq_some, Int128.le_def, Int128.lt_def, Storage.register, draft]

theorem openInvoice_ok :
    openInvoice id env frame = .ok done ↔
      ∃ invoice, frame.storage.invoice id = some invoice ∧ env.authorized invoice.creator = true ∧
        invoice.status = .draft ∧ dueBy invoice.dueDate env.timestamp = false ∧
        done = ((), ⟨frame.storage.setInvoice id (invoice.markOpen env.timestamp),
          frame.effects ++ .auth invoice.creator :: closingEffects env invoice.dueDate
            (.opened id invoice.creator)⟩) := by
  simp [openInvoice]

theorem writeExpired_ok :
    writeExpired id invoice env frame = .ok done ↔
      done = ((), ⟨frame.storage.setInvoice id (invoice.markExpired env.timestamp),
        frame.effects ++ closingEffects env none (.expired id invoice.creator)⟩) := by
  simp [writeExpired]

theorem expire_ok :
    expire id env frame = .ok done ↔
      ∃ invoice, frame.storage.invoice id = some invoice ∧ invoice.status = .open ∧
        ∃ due, invoice.dueDate = some due ∧ due < env.timestamp ∧
          done = ((), ⟨frame.storage.setInvoice id (invoice.markExpired env.timestamp),
            frame.effects ++ closingEffects env none (.expired id invoice.creator)⟩) := by
  simp [expire, writeExpired_ok]

theorem cancel_ok :
    cancel id env frame = .ok done ↔
      ∃ invoice, frame.storage.invoice id = some invoice ∧ env.authorized invoice.creator = true ∧
        (invoice.status = .open ∨ invoice.status = .draft) ∧
        done = ((), ⟨frame.storage.setInvoice id (invoice.markCancelled env.timestamp),
          frame.effects ++ .auth invoice.creator :: closingEffects env none
            (.cancelled id invoice.creator)⟩) := by
  simp [cancel, or_iff_not_imp_left]

@[simp] theorem expectVoid_ok {answer : Val} :
    expectVoid answer env frame = .ok done ↔ answer = .void ∧ done = ((), frame) := by
  cases answer <;> simp [expectVoid]

@[simp] theorem tokenTransfer_ok {asset payer payee : Address} {amount : Int128} :
    tokenTransfer asset payer payee amount env frame = .ok done ↔
      asset ≠ env.currentContract ∧
      env.callee (invocations frame.effects)
        ⟨asset, transferSymbol, [.address payer, .address payee, .i128 amount]⟩ = some .void ∧
      done = ((), { frame with effects := frame.effects ++
        [.call ⟨asset, transferSymbol, [.address payer, .address payee, .i128 amount]⟩] }) := by
  simp [tokenTransfer, and_assoc]

theorem pay_ok {payer : Address} {paymentTx : BytesN 32} :
    pay id payer paymentTx env ⟨storage, []⟩ = .ok done ↔
      env.authorized payer = true ∧
      ∃ invoice, storage.invoice id = some invoice ∧ payer = invoice.recipient ∧
        invoice.status = .open ∧ overdue invoice.dueDate env.timestamp = false ∧
        invoice.asset ≠ env.currentContract ∧
        env.callee [] (transferCall invoice) = some .void ∧
        done = ((), ⟨storage.setInvoice id (invoice.markPaid env.timestamp paymentTx),
          .auth payer :: .call (transferCall invoice) :: closingEffects env none
            (.paid id payer invoice.amount invoice.asset paymentTx)⟩) := by
  constructor
  · intro performed
    simp only [pay, bind_ok, requireAuth_ok, getInvoice_ok, failIf_ok, getEnv_ok, Prod.mk.injEq,
      decide_eq_false_iff_not, not_not, true_and] at performed
    obtain ⟨_, _, ⟨authorized, rfl⟩, invoice, _, ⟨found, rfl⟩, _, _, ⟨rfl, rfl⟩, _, _,
      ⟨_, rfl⟩, _, _, ⟨isOpen, rfl⟩, env, _, ⟨rfl, rfl⟩, performed⟩ := performed
    cases late : overdue invoice.dueDate env.timestamp with
    -- The expiry branch writes the record and then fails.
    | true => simp [late] at performed
    | false =>
      simp [late] at performed
      obtain ⟨⟨foreign, answered⟩, rfl⟩ := performed
      exact ⟨authorized, invoice, found, rfl, isOpen, late, foreign, answered, rfl⟩
  · rintro ⟨authorized, invoice, found, rfl, isOpen, inTime, foreign, answered, rfl⟩
    rw [transferCall] at answered
    simp [pay, transferCall, authorized, found, isOpen, inTime, foreign, answered]

theorem payVerified_ok {payer : Address} {paymentTx : BytesN 32} {expectedAmount : Option Int128}
    {expectedAsset : Option Address}
    (performed : payVerified id payer paymentTx expectedAmount expectedAsset env ⟨storage, []⟩ =
      .ok done) : pay id payer paymentTx env ⟨storage, []⟩ = .ok done := by
  simp only [payVerified, bind_ok, getInvoice_ok, failIf_ok, Prod.mk.injEq, true_and] at performed
  obtain ⟨_, _, ⟨_, rfl⟩, _, _, ⟨_, rfl⟩, _, _, ⟨_, rfl⟩, performed⟩ := performed
  exact performed

end EntryPoints

/-! ## The step relation -/

/-- The invoice a call advances. -/
def Call.target : Call → Option InvoiceId
  | .create .. => none
  | .open id => some id
  | .pay id _ _ => some id
  | .payVerified id _ _ _ _ => some id
  | .cancel id => some id
  | .expire id => some id

def Call.isPayment : Call → Bool
  | .pay .. => true
  | .payVerified .. => true
  | _ => false

/-- The call advances the invoice: under what conditions, with whose authorization, with which
calls to other contracts and to what. -/
inductive Advance (env : Env) (invoice : Invoice) :
    Call → List Address → List Invocation → Invoice → Prop
  | opened {id : InvoiceId} (signed : env.authorized invoice.creator = true)
      (isDraft : invoice.status = .draft) (notDue : dueBy invoice.dueDate env.timestamp = false) :
      Advance env invoice (.open id) [invoice.creator] [] (invoice.markOpen env.timestamp)
  | paid {call : Call} {paymentTx : BytesN 32} (pays : call.isPayment = true)
      (signed : env.authorized invoice.recipient = true) (isOpen : invoice.status = .open)
      (inTime : overdue invoice.dueDate env.timestamp = false) :
      Advance env invoice call [invoice.recipient] [transferCall invoice]
        (invoice.markPaid env.timestamp paymentTx)
  | cancelled {id : InvoiceId} (signed : env.authorized invoice.creator = true)
      (live : invoice.status = .open ∨ invoice.status = .draft) :
      Advance env invoice (.cancel id) [invoice.creator] [] (invoice.markCancelled env.timestamp)
  | expired {id : InvoiceId} {due : UInt64} (isOpen : invoice.status = .open)
      (dated : invoice.dueDate = some due) (late : due < env.timestamp) :
      Advance env invoice (.expire id) [] [] (invoice.markExpired env.timestamp)

/-- What a successful call has checked, what it returned, who authorized it, whom it invoked and
what it leaves. -/
inductive Change (sha256 : Bytes → BytesN 32) (env : Env) (before : Storage) :
    Call → Val → List Address → List Invocation → Storage → Prop
  | create {creator recipient asset : Address} {amount : Int128}
      {description reference : Option Bytes} {dueDate : Option UInt64} {nonce : UInt64}
      {payload : Bytes} (signed : env.authorized creator = true) (positive : 0 < amount)
      (notDue : dueBy dueDate env.timestamp = false)
      (next : nonce.toNat = (before.counter.getD 0).toNat + 1)
      (encoded : idPayload creator recipient amount asset nonce env.timestamp = some payload) :
      Change sha256 env before
        (.create creator recipient amount asset description dueDate reference)
        (.bytes (sha256 payload).val) [creator] []
        (before.register (draft (sha256 payload) creator recipient amount asset description
          dueDate reference env.timestamp nonce))
  | advance {call : Call} {id : InvoiceId} {invoice next : Invoice} {authorized : List Address}
      {invoked : List Invocation} (addressed : call.target = some id)
      (found : before.invoice id = some invoice)
      (advances : Advance env invoice call authorized invoked next) :
      Change sha256 env before call .void authorized invoked (before.setInvoice id next)

attribute [local simp] closingEffects

/-- What any successful call does. -/
theorem step_change {sha256 : Bytes → BytesN 32} {env : Env} {call : Call}
    {before after : Storage} {value : Val} {effects : List InvoiceEffect}
    (performed : step sha256 (env, call) before = some ((value, effects), after)) :
    Change sha256 env before call value (authorizations effects) (invocations effects) after := by
  rw [step, Contract.invoke_eq_some] at performed
  -- Both payment calls end in `pay`.
  have paid {call : Call} {id : InvoiceId} {payer : Address} {paymentTx : BytesN 32}
      (addressed : call.target = some id) (pays : call.isPayment = true)
      (performed : pay id payer paymentTx env ⟨before, []⟩ = .ok ((), ⟨after, effects⟩)) :
      Change sha256 env before call .void (authorizations effects) (invocations effects) after := by
    obtain ⟨signed, invoice, found, rfl, isOpen, inTime, _, _, equal⟩ := pay_ok.mp performed
    cases equal
    simpa using Change.advance addressed found (.paid pays signed isOpen inTime)
  cases call with
  | create creator recipient amount asset description dueDate reference =>
    simp only [dispatch, bind_ok, pure_ok, Prod.mk.injEq] at performed
    obtain ⟨id, _, created, rfl, rfl⟩ := performed
    obtain ⟨signed, positive, notDue, nonce, next, payload, encoded, equal⟩ := create_ok.mp created
    cases equal
    simpa using Change.create signed positive notDue next encoded
  | «open» id =>
    obtain ⟨finished, isVoid⟩ := returnVoid_ok.mp performed
    obtain ⟨invoice, found, signed, isDraft, notDue, equal⟩ := openInvoice_ok.mp finished
    cases equal
    cases isVoid
    simpa using Change.advance rfl found (.opened signed isDraft notDue)
  | pay id payer paymentTx =>
    obtain ⟨finished, isVoid⟩ := returnVoid_ok.mp performed
    cases isVoid
    exact paid rfl rfl finished
  | payVerified id payer paymentTx expectedAmount expectedAsset =>
    obtain ⟨finished, isVoid⟩ := returnVoid_ok.mp performed
    cases isVoid
    exact paid rfl rfl (payVerified_ok finished)
  | cancel id =>
    obtain ⟨finished, isVoid⟩ := returnVoid_ok.mp performed
    obtain ⟨invoice, found, signed, live, equal⟩ := cancel_ok.mp finished
    cases equal
    cases isVoid
    simpa using Change.advance rfl found (.cancelled signed live)
  | expire id =>
    obtain ⟨finished, isVoid⟩ := returnVoid_ok.mp performed
    obtain ⟨invoice, found, isOpen, due, dated, late, equal⟩ := expire_ok.mp finished
    cases equal
    cases isVoid
    simpa using Change.advance rfl found (.expired isOpen dated late)

/-! ## Transitions of the contract -/

/-- A successful call to the contract. -/
abbrev InvoiceTransition := Transition Storage (Env × Call) (Val × List InvoiceEffect)

namespace InvoiceTransition

abbrev env (transition : InvoiceTransition) : Env := transition.input.1

abbrev call (transition : InvoiceTransition) : Call := transition.input.2

/-- What the call returned. -/
abbrev answer (transition : InvoiceTransition) : Val := transition.output.1

/-- The addresses that authorized the call, oldest first. -/
def authorized (transition : InvoiceTransition) : List Address :=
  authorizations transition.output.2

/-- The contracts the call invoked, oldest first. -/
def invoked (transition : InvoiceTransition) : List Invocation :=
  invocations transition.output.2

theorem change {sha256 : Bytes → BytesN 32} {transition : InvoiceTransition}
    (performed : transition.Performed (step sha256)) :
    Change sha256 transition.env transition.before transition.call transition.answer
      transition.authorized transition.invoked transition.after :=
  step_change performed

end InvoiceTransition

end Ancore.Invoices
