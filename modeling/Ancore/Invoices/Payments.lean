import Ancore.Invoices.Records

/-! # Payment of invoices over a run

The transfers a run makes for an invoice are determined by the invoice's status:
none unless it is paid, and then the one transfer of its terms.
-/

namespace Ancore.Invoices

open Ancore.Library Ancore.Soroban

/-! ## Transfers of a run -/

/-- The calls to other contracts made for an invoice, each with the transition that made it. -/
def transfersFor (id : InvoiceId) (past : List InvoiceTransition) :
    List (InvoiceTransition × Invocation) :=
  (past.filter fun transition => transition.subject = some id).flatMap fun transition =>
    transition.invoked.map fun invocation => (transition, invocation)

/-- The transfer the terms of an invoice ask for. -/
def Terms.transfer (terms : Terms) : Invocation :=
  ⟨terms.asset, transferSymbol,
    [.address terms.recipient, .address terms.creator, .i128 terms.amount]⟩

/-- The call paid the invoice: it found it open, was in time and had the recipient's
authorization. -/
structure PaidBy (terms : Terms) (payment : InvoiceTransition) : Prop where
  pays : payment.call.isPayment = true
  wasOpen : ∃ invoice, payment.before.invoice terms.id = some invoice ∧
    invoice.status = .open ∧ invoice.terms = terms
  inTime : ∀ due, terms.dueDate = some due → payment.env.timestamp ≤ due
  authorized : terms.recipient ∈ payment.authorized
  signed : payment.env.authorized terms.recipient = true

/-! ## What one call does -/

section Step

variable {env : Env} {invoice next : Invoice} {call : Call} {authorized : List Address}
  {invoked : List Invocation}

theorem overdue_eq_false {dueDate : Option UInt64} {now : UInt64} :
    overdue dueDate now = false ↔ ∀ due, dueDate = some due → now ≤ due := by
  cases dueDate <;> simp [overdue]

/-- What an advance means for the payment of the invoice. -/
inductive Advance.Payment (env : Env) (invoice : Invoice) (call : Call)
    (authorized : List Address) : List Invocation → Invoice → Prop
  | paid {next : Invoice} (pays : call.isPayment = true) (isOpen : invoice.status = .open)
      (inTime : ∀ due, invoice.dueDate = some due → env.timestamp ≤ due)
      (authorizes : invoice.recipient ∈ authorized)
      (signed : env.authorized invoice.recipient = true) (isPaid : next.status = .paid) :
      Advance.Payment env invoice call authorized [invoice.terms.transfer] next
  | unpaid {next : Invoice} (notYet : invoice.status ≠ .paid) (still : next.status ≠ .paid) :
      Advance.Payment env invoice call authorized [] next

theorem Advance.payment (advances : Advance env invoice call authorized invoked next) :
    Advance.Payment env invoice call authorized invoked next := by
  cases advances with
  | opened _ isDraft =>
    exact .unpaid (by simp [isDraft]) (by simp [Invoice.markOpen])
  | paid pays signed isOpen inTime =>
    exact .paid pays isOpen (overdue_eq_false.mp inTime) (by simp) signed rfl
  | cancelled _ live =>
    exact .unpaid (by rcases live with live | live <;> simp [live])
      (by simp [Invoice.markCancelled])
  | expired isOpen =>
    exact .unpaid (by simp [isOpen]) (by simp [Invoice.markExpired])

end Step

/-! ## Settlement -/

/-- The transfers made so far for an invoice agree with its record. -/
structure Settlement (id : InvoiceId) (past : List InvoiceTransition) (state : Storage) :
    Prop where
  unpaid : (∀ invoice, state.invoice id = some invoice → invoice.status ≠ .paid) →
    transfersFor id past = []
  paid : ∀ invoice, state.invoice id = some invoice → invoice.status = .paid →
    ∃ payment ∈ past, PaidBy invoice.terms payment ∧
      transfersFor id past = [(payment, invoice.terms.transfer)]

section Settlement

variable {past : List InvoiceTransition} {transition : InvoiceTransition} {id : InvoiceId}

theorem transfersFor_other (other : transition.subject ≠ some id) :
    transfersFor id (past ++ [transition]) = transfersFor id past := by
  simp [transfersFor, other]

variable (past) in
theorem transfersFor_subject (subject : transition.subject = some id) :
    transfersFor id (past ++ [transition]) =
      transfersFor id past ++
        transition.invoked.map fun invocation => (transition, invocation) := by
  simp [transfersFor, subject]

theorem settlement_invariant (sha256 : Bytes → BytesN 32) (id : InvoiceId) :
    HistoryInvariant (step sha256) Storage.empty fun past state =>
      CollisionFree sha256 past → Ledger sha256 past state ∧ Settlement id past state where
  init := fun collisionFree =>
    ⟨(ledger_invariant sha256).init collisionFree, fun _ => rfl, fun _ stored => by cases stored⟩
  preserved := by
    intro past (transition : InvoiceTransition) before performed collisionFree
    obtain ⟨ledger, unpaid, paid⟩ := before collisionFree.of_append
    refine ⟨(ledger_invariant sha256).preserved past transition (fun _ => ledger) performed
      collisionFree, ?_⟩
    have change := InvoiceTransition.record performed id
    generalize isRecord : transition.after.invoice id = record at change
    cases change with
    | kept other =>
      refine ⟨?_, ?_⟩
      · rw [isRecord, transfersFor_other other]
        exact unpaid
      · rw [isRecord, transfersFor_other other]
        intro invoice stored isPaid
        obtain ⟨payment, member, paidBy, alone⟩ := paid invoice stored isPaid
        exact ⟨payment, List.mem_append_left _ member, paidBy, alone⟩
    | @created invoice created sameId _ isDraft _ silent =>
      -- Nothing was stored under the id, so nothing was transferred for it either.
      have unused := ledger.issued.unused collisionFree created
      rw [show invoice.terms.id = id from sameId] at unused
      have none : transfersFor id past = [] := unpaid fun stale stored => by
        rw [unused] at stored
        cases stored
      have subject : transition.subject = some id := sameId ▸ created.subject
      refine ⟨fun _ => by simp [transfersFor_subject past subject, none, silent], ?_⟩
      intro stored lookup isPaid
      rw [isRecord] at lookup
      cases lookup
      rw [isDraft] at isPaid
      cases isPaid
    | @advanced invoice next subject found advances =>
      have payment := advances.payment
      have terms := advances.terms
      have transfers := transfersFor_subject past subject
      generalize transition.invoked = invoked at payment transfers
      cases payment with
      | paid pays isOpen inTime authorizes signed isPaid =>
        have none : transfersFor id past = [] := unpaid fun stored lookup => by
          rw [found] at lookup
          cases lookup
          simp [isOpen]
        have sameId : invoice.terms.id = id := (ledger.issued id invoice found).1
        refine ⟨fun notPaid => absurd isPaid (notPaid next isRecord), ?_⟩
        intro stored lookup _
        rw [isRecord] at lookup
        cases lookup
        rw [terms]
        exact ⟨transition, by simp,
          ⟨pays, ⟨invoice, sameId ▸ found, isOpen, rfl⟩, inTime, authorizes, signed⟩,
          by simp [transfers, none]⟩
      | unpaid notYet still =>
        have none : transfersFor id past = [] := unpaid fun stored lookup => by
          rw [found] at lookup
          cases lookup
          exact notYet
        refine ⟨fun _ => by simp [transfers, none], ?_⟩
        intro stored lookup isPaid
        rw [isRecord] at lookup
        cases lookup
        exact absurd isPaid still

end Settlement

/-- Without hash collisions, the transfers made for an invoice are none unless its status is paid,
and then exactly one: of the amount and asset of its creation, from recipient to creator, made
while it was open, in time and with the recipient's authorization.  Terms are never changed, and
no call changes an invoice it is not about. -/
theorem paid_exactly_once (sha256 : Bytes → BytesN 32) (calls : List (Env × Call))
    (collisionFree : CollisionFree sha256 (history (step sha256) Storage.empty calls)) :
    (∀ id, (∀ invoice, (final (step sha256) Storage.empty calls).invoice id = some invoice →
        invoice.status ≠ .paid) →
      transfersFor id (history (step sha256) Storage.empty calls) = []) ∧
    (∀ id invoice, (final (step sha256) Storage.empty calls).invoice id = some invoice →
      invoice.id = id ∧
      (∃ creation ∈ history (step sha256) Storage.empty calls,
        CreatedBy sha256 invoice.terms creation) ∧
      (invoice.status = .paid →
        ∃ payment ∈ history (step sha256) Storage.empty calls, PaidBy invoice.terms payment ∧
          transfersFor id (history (step sha256) Storage.empty calls) =
            [(payment, invoice.terms.transfer)])) ∧
    (∀ first second id invoice, calls = first ++ second →
      (final (step sha256) Storage.empty first).invoice id = some invoice →
      ∃ later, (final (step sha256) Storage.empty calls).invoice id = some later ∧
        later.terms = invoice.terms) ∧
    (∀ transition : InvoiceTransition, transition ∈ history (step sha256) Storage.empty calls →
      ∃ id, transition.subject = some id ∧
        ∀ other ≠ id, transition.after.invoice other = transition.before.invoice other) := by
  have settled id := (settlement_invariant sha256 id).holds_final calls collisionFree
  refine ⟨fun id => (settled id).2.unpaid, ?_, ?_, ?_⟩
  · intro id invoice stored
    obtain ⟨ledger, settlement⟩ := settled id
    obtain ⟨sameId, issued⟩ := ledger.issued id invoice stored
    exact ⟨sameId, issued.created, settlement.paid invoice stored⟩
  · rintro first second id invoice rfl stored
    rw [history_append] at collisionFree
    have earlier := (ledger_invariant sha256).holds_final first collisionFree.of_append
    obtain ⟨creation, member, created⟩ := (earlier.issued id invoice stored).2.created
    -- The creation found in the first part is still a creation of the whole run.
    have kept := ((settled id).1.kept invoice.terms creation (by
      rw [history_append]
      exact List.mem_append_left _ member) created)
    rwa [show invoice.terms.id = id from (earlier.issued id invoice stored).1] at kept
  · intro transition member
    have performed := performed_of_mem_history (step sha256) member
    obtain ⟨id, subject⟩ := InvoiceTransition.exists_subject performed
    exact ⟨id, subject, fun other distinct =>
      InvoiceTransition.frame performed subject distinct⟩

theorem paid_exactly_once_of_sample :
    (transfersFor firstId (history (step sampleSha256) Storage.empty sampleCalls)).map Prod.snd =
      [⟨sampleAsset, transferSymbol,
        [.address sampleRecipient, .address sampleCreator, .i128 sampleAmount]⟩] ∧
    transfersFor secondId (history (step sampleSha256) Storage.empty sampleCalls) = [] := by
  obtain ⟨unpaid, paid, _⟩ :=
    paid_exactly_once sampleSha256 sampleCalls sampleCalls_collisionFree
  obtain ⟨_, _, settled⟩ := paid firstId _ sampleCalls_first
  obtain ⟨payment, _, _, alone⟩ := settled rfl
  refine ⟨by rw [alone]; rfl, unpaid secondId fun invoice stored => ?_⟩
  rw [sampleCalls_second, Option.some.injEq] at stored
  subst stored
  decide

end Ancore.Invoices
