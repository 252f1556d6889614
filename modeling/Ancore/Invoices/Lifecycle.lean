import Ancore.Invoices.Records

/-! # The lifecycle of an invoice

A record's status moves along the edges of `InvoiceStatus.Next` only, and its
optional fields tell the status and when it was reached (`Invoice.Stamped`).
-/

namespace Ancore.Invoices

open Ancore.Library Ancore.Soroban

/-! ## Statuses and stamps -/

/-- The edges of the lifecycle. -/
inductive InvoiceStatus.Next : InvoiceStatus → InvoiceStatus → Prop
  | opened : Next .draft .open
  | withdrawn : Next .draft .cancelled
  | paid : Next .open .paid
  | expired : Next .open .expired
  | cancelled : Next .open .cancelled

/-- The statuses no edge leaves. -/
def InvoiceStatus.terminal : InvoiceStatus → Bool
  | .paid | .expired | .cancelled => true
  | _ => false

theorem InvoiceStatus.Next.not_terminal {status later : InvoiceStatus}
    (next : status.Next later) : status.terminal = false := by
  cases next <;> rfl

/-- When a record reached its terminal status. -/
def Invoice.terminalAt (invoice : Invoice) : Option UInt64 :=
  match invoice.status with
  | .paid => invoice.paidAt
  | .expired => invoice.expiredAt
  | .cancelled => invoice.cancelledAt
  | _ => none

/-- The optional fields of a record are set as the status says, at times that fit together. -/
inductive Invoice.StampedAs (invoice : Invoice) : InvoiceStatus → Prop
  | draft (opened : invoice.openedAt = none) (paid : invoice.paidAt = none)
      (tx : invoice.paymentTx = none) (cancelled : invoice.cancelledAt = none)
      (expired : invoice.expiredAt = none) (created : invoice.createdAt ≤ invoice.updatedAt) :
      invoice.StampedAs .draft
  | open (opened : invoice.openedAt = some invoice.updatedAt) (paid : invoice.paidAt = none)
      (tx : invoice.paymentTx = none) (cancelled : invoice.cancelledAt = none)
      (expired : invoice.expiredAt = none) (created : invoice.createdAt ≤ invoice.updatedAt) :
      invoice.StampedAs .open
  | paid {openedAt : UInt64} (opened : invoice.openedAt = some openedAt)
      (paid : invoice.paidAt = some invoice.updatedAt) (tx : invoice.paymentTx.isSome)
      (cancelled : invoice.cancelledAt = none) (expired : invoice.expiredAt = none)
      (created : invoice.createdAt ≤ openedAt) (closed : openedAt ≤ invoice.updatedAt) :
      invoice.StampedAs .paid
  | expired {openedAt due : UInt64} (opened : invoice.openedAt = some openedAt)
      (paid : invoice.paidAt = none) (tx : invoice.paymentTx = none)
      (cancelled : invoice.cancelledAt = none)
      (expired : invoice.expiredAt = some invoice.updatedAt)
      (dated : invoice.dueDate = some due) (late : due < invoice.updatedAt)
      (created : invoice.createdAt ≤ openedAt) (closed : openedAt ≤ invoice.updatedAt) :
      invoice.StampedAs .expired
  | cancelled (paid : invoice.paidAt = none) (tx : invoice.paymentTx = none)
      (cancelled : invoice.cancelledAt = some invoice.updatedAt)
      (expired : invoice.expiredAt = none) (created : invoice.createdAt ≤ invoice.updatedAt)
      (opened : ∀ openedAt, invoice.openedAt = some openedAt →
        invoice.createdAt ≤ openedAt ∧ openedAt ≤ invoice.updatedAt) :
      invoice.StampedAs .cancelled

/-- A record is stamped as its own status says. -/
def Invoice.Stamped (invoice : Invoice) : Prop := invoice.StampedAs invoice.status

section Stamped

variable {invoice : Invoice}

/-- Each optional field is set in the statuses it belongs to. -/
theorem Invoice.Stamped.fields (stamped : invoice.Stamped) :
    (invoice.paidAt.isSome ↔ invoice.status = .paid) ∧
    (invoice.paymentTx.isSome ↔ invoice.status = .paid) ∧
    (invoice.expiredAt.isSome ↔ invoice.status = .expired) ∧
    (invoice.cancelledAt.isSome ↔ invoice.status = .cancelled) ∧
    (invoice.status ∈ [.open, .paid, .expired] → invoice.openedAt.isSome) := by
  rw [Invoice.Stamped] at stamped
  generalize invoice.status = status at stamped ⊢
  cases stamped <;> simp [*]

theorem Invoice.Stamped.overdue (stamped : invoice.Stamped)
    (isExpired : invoice.status = .expired) :
    ∃ due expiredAt, invoice.dueDate = some due ∧ invoice.expiredAt = some expiredAt ∧
      due < expiredAt := by
  rw [Invoice.Stamped, isExpired] at stamped
  cases stamped with
  | expired _ _ _ _ expired dated late => exact ⟨_, _, dated, expired, late⟩

theorem Invoice.Stamped.terminalAt_eq (stamped : invoice.Stamped) {closedAt : UInt64}
    (closed : invoice.terminalAt = some closedAt) :
    invoice.createdAt ≤ closedAt ∧ closedAt = invoice.updatedAt := by
  rw [Invoice.Stamped] at stamped
  rw [Invoice.terminalAt] at closed
  generalize invoice.status = status at stamped closed
  cases stamped with
  | draft => cases closed
  | «open» => cases closed
  | paid _ paid _ _ _ created later =>
    cases paid.symm.trans closed
    exact ⟨UInt64.le_trans created later, rfl⟩
  | expired _ _ _ _ expired _ _ created later =>
    cases expired.symm.trans closed
    exact ⟨UInt64.le_trans created later, rfl⟩
  | cancelled _ _ cancelled _ created =>
    cases cancelled.symm.trans closed
    exact ⟨created, rfl⟩

theorem Invoice.Stamped.openedAt_le (stamped : invoice.Stamped) {openedAt : UInt64}
    (opened : invoice.openedAt = some openedAt) :
    invoice.createdAt ≤ openedAt ∧ openedAt ≤ invoice.updatedAt := by
  rw [Invoice.Stamped] at stamped
  generalize invoice.status = status at stamped
  cases stamped with
  | draft unopened => cases unopened.symm.trans opened
  | «open» isOpened _ _ _ _ created =>
    cases isOpened.symm.trans opened
    exact ⟨created, UInt64.le_refl _⟩
  | paid isOpened _ _ _ _ created later =>
    cases isOpened.symm.trans opened
    exact ⟨created, later⟩
  | expired isOpened _ _ _ _ _ _ created later =>
    cases isOpened.symm.trans opened
    exact ⟨created, later⟩
  | cancelled _ _ _ _ _ times => exact times openedAt opened

end Stamped

/-! ## What one call does -/

section Step

variable {env : Env} {invoice advanced : Invoice} {call : Call} {authorized : List Address}
  {invoked : List Invocation}

theorem Advance.next (advances : Advance env invoice call authorized invoked advanced) :
    invoice.status.Next advanced.status := by
  cases advances with
  | opened _ isDraft => rw [isDraft]; exact .opened
  | paid _ _ isOpen => rw [isOpen]; exact .paid
  | cancelled _ live =>
    rcases live with isOpen | isDraft
    · rw [isOpen]; exact .cancelled
    · rw [isDraft]; exact .withdrawn
  | expired isOpen => rw [isOpen]; exact .expired

theorem Advance.updatedAt (advances : Advance env invoice call authorized invoked advanced) :
    advanced.updatedAt = env.timestamp := by
  cases advances <;> rfl

theorem Advance.openedAt_iff (advances : Advance env invoice call authorized invoked advanced) :
    advanced.openedAt.isSome ↔ invoice.openedAt.isSome ∨ ∃ id, call = .open id := by
  cases advances with
  | opened => simp [Invoice.markOpen]
  | paid pays =>
    have : ∀ id, call ≠ .open id := by
      rintro id rfl
      cases pays
    simp [Invoice.markPaid, this]
  | cancelled => simp [Invoice.markCancelled]
  | expired => simp [Invoice.markExpired]

/-- An advance at a later time stamps a stamped record. -/
theorem Advance.stamped (advances : Advance env invoice call authorized invoked advanced)
    (stamped : invoice.Stamped) (later : invoice.updatedAt ≤ env.timestamp) :
    advanced.Stamped := by
  rw [Invoice.Stamped] at stamped
  cases advances with
  | opened _ isDraft =>
    rw [isDraft] at stamped
    cases stamped with
    | draft _ paid tx cancelled expired created =>
      exact .open rfl paid tx cancelled expired (UInt64.le_trans created later)
  | paid _ _ isOpen =>
    rw [isOpen] at stamped
    cases stamped with
    | «open» opened _ _ cancelled expired created =>
      exact .paid opened rfl rfl cancelled expired created later
  | cancelled _ live =>
    rcases live with isOpen | isDraft
    · rw [isOpen] at stamped
      cases stamped with
      | «open» opened paid tx _ expired created =>
        refine .cancelled paid tx rfl expired (UInt64.le_trans created later) ?_
        intro openedAt isOpened
        cases opened.symm.trans isOpened
        exact ⟨created, later⟩
    · rw [isDraft] at stamped
      cases stamped with
      | draft opened paid tx _ expired created =>
        refine .cancelled paid tx rfl expired (UInt64.le_trans created later) ?_
        intro openedAt isOpened
        cases opened.symm.trans isOpened
  | expired isOpen dated late =>
    rw [isOpen] at stamped
    cases stamped with
    | «open» opened paid tx cancelled _ created =>
      exact .expired opened paid tx cancelled rfl dated late created later

theorem draft_stamped {id : InvoiceId} {creator recipient asset : Address} {amount : Int128}
    {description reference : Option Bytes} {dueDate : Option UInt64} {now nonce : UInt64} :
    (draft id creator recipient amount asset description dueDate reference now nonce).Stamped :=
  .draft rfl rfl rfl rfl rfl (UInt64.le_refl now)

end Step

/-! ## Records over a run -/

/-- Ledger time does not go back. -/
def Ordered (past : List InvoiceTransition) : Prop :=
  (past.map fun transition => transition.env.timestamp).Pairwise (· ≤ ·)

/-- A stored record is sound: its amount is positive and it was last stamped during the run. -/
structure Sound (past : List InvoiceTransition) (invoice : Invoice) : Prop where
  positive : 0 < invoice.amount
  stamped : invoice.Stamped
  updated : ∃ transition ∈ past, invoice.updatedAt = transition.env.timestamp

section Run

variable {sha256 : Bytes → BytesN 32} {past : List InvoiceTransition}
  {transition : InvoiceTransition} {invoice : Invoice}

theorem Ordered.of_append {later : List InvoiceTransition} (ordered : Ordered (past ++ later)) :
    Ordered past := by
  rw [Ordered, List.map_append, List.pairwise_append] at ordered
  exact ordered.1

/-- A record stamped in the past was stamped no later than the present. -/
theorem Sound.updatedAt_le (sound : Sound past invoice) (ordered : Ordered (past ++ [transition])) :
    invoice.updatedAt ≤ transition.env.timestamp := by
  obtain ⟨earlier, member, stamp⟩ := sound.updated
  rw [Ordered, List.map_append, List.pairwise_append] at ordered
  rw [stamp]
  exact ordered.2.2 _ (List.mem_map_of_mem member) _ (by simp)

theorem sound_invariant (sha256 : Bytes → BytesN 32) :
    HistoryInvariant (step sha256) Storage.empty fun past state =>
      Ordered past → ∀ id invoice, state.invoice id = some invoice → Sound past invoice where
  init := by
    intro _ id invoice stored
    cases stored
  preserved := by
    intro past (transition : InvoiceTransition) before performed ordered id invoice stored
    have sound := before ordered.of_append
    have change := InvoiceTransition.record performed id
    generalize transition.after.invoice id = record at change stored
    cases change with
    | kept =>
      obtain ⟨positive, stamped, earlier, member, stamp⟩ := sound id invoice stored
      exact ⟨positive, stamped, earlier, List.mem_append_left _ member, stamp⟩
    | created _ _ positive isDraft =>
      cases stored
      refine ⟨positive, isDraft ▸ draft_stamped, transition, by simp, ?_⟩
      rw [isDraft]
      rfl
    | advanced _ found advances =>
      cases stored
      have current := sound id _ found
      refine ⟨?_, advances.stamped current.stamped (current.updatedAt_le ordered), transition,
        by simp, advances.updatedAt⟩
      rw [show invoice.amount = _ from congrArg Terms.amount advances.terms]
      exact current.positive

theorem subject_of_open {id : InvoiceId} (opens : transition.call = .open id) :
    transition.subject = some id := by
  simp [InvoiceTransition.subject, opens, Call.target]

/-- `openedAt` tells whether the past contains an opening of the invoice. -/
structure OpeningsRecorded (id : InvoiceId) (past : List InvoiceTransition) (state : Storage) :
    Prop where
  stored : ∀ invoice, state.invoice id = some invoice →
    (invoice.openedAt.isSome ↔ ∃ transition ∈ past, transition.call = .open id)
  unused : state.invoice id = none → ¬ ∃ transition ∈ past, transition.call = .open id

theorem openings_invariant (sha256 : Bytes → BytesN 32) (id : InvoiceId) :
    HistoryInvariant (step sha256) Storage.empty fun past state =>
      CollisionFree sha256 past → Ledger sha256 past state ∧ OpeningsRecorded id past state where
  init := by
    intro collisionFree
    refine ⟨(ledger_invariant sha256).init collisionFree, ?_, by simp⟩
    intro invoice stored
    cases stored
  preserved := by
    intro past (transition : InvoiceTransition) before performed collisionFree
    obtain ⟨ledger, openings⟩ := before collisionFree.of_append
    refine ⟨(ledger_invariant sha256).preserved past transition (fun _ => ledger) performed
      collisionFree, ?_⟩
    have change := InvoiceTransition.record performed id
    generalize isRecord : transition.after.invoice id = record at change
    cases change with
    | kept other =>
      have silent : transition.call ≠ .open id := fun opens => other (subject_of_open opens)
      refine ⟨?_, ?_⟩
      · rw [isRecord]
        simpa [silent] using openings.stored
      · rw [isRecord]
        simpa [silent] using openings.unused
    | @created fresh created sameId _ isDraft =>
      have unused := ledger.issued.unused collisionFree created
      rw [show fresh.terms.id = id from sameId] at unused
      have silent : transition.call ≠ .open id := by simp [created.call]
      refine ⟨?_, fun absent => by rw [isRecord] at absent; cases absent⟩
      intro invoice stored
      rw [isRecord] at stored
      cases stored
      have unopened : fresh.openedAt = none := by
        rw [isDraft]
        rfl
      simpa [unopened, silent] using openings.unused unused
    | @advanced current next subject found advances =>
      have opens : (∃ other, transition.call = .open other) ↔ transition.call = .open id := by
        constructor
        · rintro ⟨other, opens⟩
          cases subject.symm.trans (subject_of_open opens)
          exact opens
        · exact fun opens => ⟨id, opens⟩
      refine ⟨?_, fun absent => by rw [isRecord] at absent; cases absent⟩
      intro invoice stored
      rw [isRecord] at stored
      cases stored
      rw [advances.openedAt_iff, openings.stored current found, opens]
      simp [or_and_right, exists_or]

/-- A record that exists is left alone or moved along an edge; a new one is a draft. -/
theorem Ledger.status_moves {id : InvoiceId} (ledger : Ledger sha256 past transition.before)
    (collisionFree : CollisionFree sha256 (past ++ [transition]))
    (performed : transition.Performed (step sha256)) :
    (∀ invoice, transition.before.invoice id = some invoice →
      ∃ later, transition.after.invoice id = some later ∧
        (later = invoice ∨ invoice.status.Next later.status)) ∧
    (∀ later, transition.before.invoice id = none → transition.after.invoice id = some later →
      later.status = .draft) := by
  have change := InvoiceTransition.record performed id
  generalize transition.after.invoice id = record at change
  cases change with
  | kept =>
    refine ⟨fun invoice stored => ⟨invoice, stored, .inl rfl⟩, ?_⟩
    intro later unused stored
    cases unused.symm.trans stored
  | @created fresh created sameId _ isDraft =>
    have unused := ledger.issued.unused collisionFree created
    rw [show fresh.terms.id = id from sameId] at unused
    refine ⟨fun invoice stored => ?_, fun later _ stored => ?_⟩
    · cases unused.symm.trans stored
    · cases stored
      rw [isDraft]
      rfl
  | @advanced current next _ found advances =>
    refine ⟨fun invoice stored => ?_, fun later unused _ => ?_⟩
    · cases found.symm.trans stored
      exact ⟨next, rfl, .inr advances.next⟩
    · cases found.symm.trans unused

end Run

/-- Without hash collisions and at nondecreasing times, every stored invoice has a positive amount
and optional fields that its status explains, at times in order; statuses move along the edges of
the lifecycle only, and the terminal ones keep the record as it is. -/
theorem lifecycle_sound (sha256 : Bytes → BytesN 32) (calls : List (Env × Call))
    (collisionFree : CollisionFree sha256 (history (step sha256) Storage.empty calls))
    (ordered : (calls.map fun input => input.1.timestamp).Pairwise (· ≤ ·)) :
    (∀ id invoice, (final (step sha256) Storage.empty calls).invoice id = some invoice →
      0 < invoice.amount ∧
      (invoice.paidAt.isSome ↔ invoice.status = .paid) ∧
      (invoice.paymentTx.isSome ↔ invoice.status = .paid) ∧
      (invoice.expiredAt.isSome ↔ invoice.status = .expired) ∧
      (invoice.cancelledAt.isSome ↔ invoice.status = .cancelled) ∧
      (invoice.status ∈ [.open, .paid, .expired] → invoice.openedAt.isSome) ∧
      (invoice.openedAt.isSome ↔ ∃ transition : InvoiceTransition,
        transition ∈ history (step sha256) Storage.empty calls ∧ transition.call = .open id) ∧
      (invoice.status = .expired → ∃ due expiredAt, invoice.dueDate = some due ∧
        invoice.expiredAt = some expiredAt ∧ due < expiredAt) ∧
      (∀ openedAt, invoice.openedAt = some openedAt → invoice.createdAt ≤ openedAt ∧
        ∀ terminalAt, invoice.terminalAt = some terminalAt → openedAt ≤ terminalAt) ∧
      (∀ terminalAt, invoice.terminalAt = some terminalAt →
        invoice.createdAt ≤ terminalAt ∧ terminalAt = invoice.updatedAt)) ∧
    (∀ transition ∈ history (step sha256) Storage.empty calls, ∀ id,
      (∀ invoice, transition.before.invoice id = some invoice →
        ∃ later, transition.after.invoice id = some later ∧
          (later = invoice ∨ invoice.status.Next later.status)) ∧
      (∀ later, transition.before.invoice id = none → transition.after.invoice id = some later →
        later.status = .draft)) ∧
    (∀ first second id invoice, calls = first ++ second →
      (final (step sha256) Storage.empty first).invoice id = some invoice →
      invoice.status.terminal = true →
      (final (step sha256) Storage.empty calls).invoice id = some invoice) := by
  have moves : ∀ transition ∈ history (step sha256) Storage.empty calls, ∀ id,
      (∀ invoice, transition.before.invoice id = some invoice →
        ∃ later, transition.after.invoice id = some later ∧
          (later = invoice ∨ invoice.status.Next later.status)) ∧
      (∀ later, transition.before.invoice id = none → transition.after.invoice id = some later →
        later.status = .draft) := by
    intro transition member id
    obtain ⟨earlier, later, located⟩ := List.append_of_mem member
    obtain ⟨ledger, performed⟩ := (ledger_invariant sha256).holds_before located
    rw [located, List.append_cons] at collisionFree
    exact (ledger collisionFree.of_append.of_append).status_moves collisionFree.of_append performed
  refine ⟨?_, moves, ?_⟩
  · intro id invoice stored
    have times : Ordered (history (step sha256) Storage.empty calls) := by
      have inputs := (history_inputs_sublist (step sha256) Storage.empty calls).map
        fun input : Env × Call => input.1.timestamp
      rw [List.map_map] at inputs
      exact ordered.sublist inputs
    obtain ⟨positive, stamped, _⟩ :=
      (sound_invariant sha256).holds_final calls times id invoice stored
    obtain ⟨paid, tx, expired, cancelled, opened⟩ := stamped.fields
    have openings := ((openings_invariant sha256 id).holds_final calls collisionFree).2
    refine ⟨positive, paid, tx, expired, cancelled, opened, openings.stored invoice stored,
      stamped.overdue, ?_, fun terminalAt => stamped.terminalAt_eq⟩
    intro openedAt isOpened
    obtain ⟨created, updated⟩ := stamped.openedAt_le isOpened
    refine ⟨created, fun terminalAt closed => ?_⟩
    rw [(stamped.terminalAt_eq closed).2]
    exact updated
  · rintro first second id invoice rfl stored terminal
    rw [final_append]
    rw [history_append] at moves
    refine @final_of_history _ _ _ (step sha256) (fun state => state.invoice id = some invoice) _ _
      stored fun transition member found => ?_
    obtain ⟨later, kept, same | next⟩ :=
      (moves transition (List.mem_append_right _ member) id).1 invoice found
    · rw [kept, same]
    · rw [next.not_terminal] at terminal
      cases terminal

theorem lifecycle_sound_of_sample :
    0 < samplePaid.amount ∧ (samplePaid.paidAt.isSome ↔ samplePaid.status = .paid) ∧
      (samplePaid.openedAt.isSome ↔ ∃ transition : InvoiceTransition,
        transition ∈ history (step sampleSha256) Storage.empty sampleCalls ∧
          transition.call = .open firstId) ∧
      samplePaid.terminalAt = some samplePaid.updatedAt := by
  obtain ⟨sound, _⟩ := lifecycle_sound sampleSha256 sampleCalls sampleCalls_collisionFree
    (by decide)
  obtain ⟨positive, paid, _, _, _, _, opened, _⟩ := sound firstId samplePaid sampleCalls_first
  exact ⟨positive, paid, opened, rfl⟩

/-! ## Overdue invoices -/

section Overdue

variable {sha256 : Bytes → BytesN 32} {env : Env} {state : Storage} {id : InvoiceId}
  {invoice : Invoice} {paymentTx : BytesN 32}

/-- A payment of the invoice is refused as expired, and leaves it as `expire` does. -/
structure ExpiresOnBothPaths (sha256 : Bytes → BytesN 32) (env : Env) (state : Storage)
    (id : InvoiceId) (invoice : Invoice) (paymentTx : BytesN 32) : Prop where
  refused : pay id invoice.recipient paymentTx env ⟨state, []⟩ = .error (.error .expired)
  expired : (final (step sha256) state [(env, .expire id)]).invoice id =
    some (invoice.markExpired env.timestamp)
  same : (final (step sha256) state [(env, .pay id invoice.recipient paymentTx)]).invoice id =
    (final (step sha256) state [(env, .expire id)]).invoice id

theorem pay_overdue (stored : state.invoice id = some invoice) (isOpen : invoice.status = .open)
    (late : overdue invoice.dueDate env.timestamp = true)
    (authorized : env.authorized invoice.recipient = true) :
    pay id invoice.recipient paymentTx env ⟨state, []⟩ = .error (.error .expired) := by
  simp [pay, requireAuth, getInvoice, getEnv, getStorage, okOr, failIf, failWith, emit, bind,
    Contract.bind, pure, Contract.pure, writeExpired, modifyStorage, extendTtl, extendInstanceTtl,
    publish, stored, isOpen, late, authorized]

theorem final_expire (stored : state.invoice id = some invoice) (isOpen : invoice.status = .open)
    (late : overdue invoice.dueDate env.timestamp = true) :
    (final (step sha256) state [(env, .expire id)]).invoice id =
      some (invoice.markExpired env.timestamp) := by
  obtain ⟨due, dated, passed⟩ := (Option.any_eq_true _ _).mp late
  have performed : expire id env ⟨state, []⟩ = .ok ((), _) :=
    expire_ok.mpr ⟨invoice, stored, isOpen, due, dated, of_decide_eq_true passed, rfl⟩
  have stepped : step sha256 (env, .expire id) state = some _ :=
    Contract.invoke_eq_some.mpr (returnVoid_ok.mpr ⟨performed, rfl⟩)
  rw [final, stepped]
  exact Storage.setInvoice_same

/-- The error takes back what the payment wrote. -/
theorem final_pay_overdue (stored : state.invoice id = some invoice)
    (isOpen : invoice.status = .open) (late : overdue invoice.dueDate env.timestamp = true)
    (authorized : env.authorized invoice.recipient = true) :
    final (step sha256) state [(env, .pay id invoice.recipient paymentTx)] = state := by
  have failed : step sha256 (env, .pay id invoice.recipient paymentTx) state = none := by
    simp only [step, dispatch, returnVoid, Contract.invoke, bind, Contract.bind,
      pay_overdue stored isOpen late authorized]
  rw [final, failed, final_nil]

theorem not_expiresOnBothPaths (stored : state.invoice id = some invoice)
    (isOpen : invoice.status = .open) (late : overdue invoice.dueDate env.timestamp = true)
    (authorized : env.authorized invoice.recipient = true) :
    ¬ ExpiresOnBothPaths sha256 env state id invoice paymentTx := by
  intro both
  have same := both.same
  rw [both.expired, final_pay_overdue stored isOpen late authorized, stored] at same
  have status := congrArg Invoice.status (Option.some.inj same)
  rw [isOpen] at status
  cases status

end Overdue

/-- Whenever an open invoice is overdue, its recipient's payment is refused as expired and leaves it
open, where `expire` expires it. -/
theorem overdue_payment_leaves_open (sha256 : Bytes → BytesN 32) (calls : List (Env × Call))
    (env : Env) (id : InvoiceId) (invoice : Invoice) (paymentTx : BytesN 32)
    (stored : (final (step sha256) Storage.empty calls).invoice id = some invoice)
    (isOpen : invoice.status = .open) (late : overdue invoice.dueDate env.timestamp = true)
    (authorized : env.authorized invoice.recipient = true) :
    ¬ ExpiresOnBothPaths sha256 env (final (step sha256) Storage.empty calls) id invoice paymentTx ∧
      pay id invoice.recipient paymentTx env ⟨final (step sha256) Storage.empty calls, []⟩ =
        .error (.error .expired) ∧
      (final (step sha256) Storage.empty
        (calls ++ [(env, .pay id invoice.recipient paymentTx)])).invoice id = some invoice ∧
      (final (step sha256) Storage.empty (calls ++ [(env, .expire id)])).invoice id =
        some (invoice.markExpired env.timestamp) := by
  refine ⟨not_expiresOnBothPaths stored isOpen late authorized,
    pay_overdue stored isOpen late authorized, ?_, ?_⟩
  · rw [final_append, final_pay_overdue stored isOpen late authorized]
    exact stored
  · rw [final_append]
    exact final_expire stored isOpen late

/-- The first invoice of the sample run, opened and not paid. -/
def sampleOpen : Invoice :=
  (draft firstId sampleCreator sampleRecipient sampleAmount sampleAsset none (some 50) none 10
    1).markOpen 30

theorem overdue_payment_leaves_open_of_sample :
    (final (step sampleSha256) Storage.empty (sampleCalls.take 3 ++
      [(sampleEnv 60 sampleRecipient, .pay firstId sampleOpen.recipient (repeatedByte 7))])).invoice
        firstId = some sampleOpen :=
  (overdue_payment_leaves_open sampleSha256 (sampleCalls.take 3) (sampleEnv 60 sampleRecipient)
    firstId sampleOpen (repeatedByte 7) (by decide +kernel) (by decide +kernel)
    (by decide +kernel) (by decide +kernel)).2.2.1

theorem sampleOpen_not_expired :
    ¬ ExpiresOnBothPaths sampleSha256 (sampleEnv 60 sampleRecipient)
      (final (step sampleSha256) Storage.empty (sampleCalls.take 3)) firstId sampleOpen
      (repeatedByte 7) := by
  intro both
  have kept : (final (step sampleSha256) (final (step sampleSha256) Storage.empty
      (sampleCalls.take 3)) [(sampleEnv 60 sampleRecipient,
        .pay firstId sampleOpen.recipient (repeatedByte 7))]).invoice firstId =
      some sampleOpen := by
    decide +kernel
  have renewed : some sampleOpen =
      some (sampleOpen.markExpired (sampleEnv 60 sampleRecipient).timestamp) :=
    kept.symm.trans (both.same.trans both.expired)
  exact absurd renewed (by decide +kernel)

end Ancore.Invoices
