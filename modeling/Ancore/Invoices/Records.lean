import Ancore.Invoices.Change

/-! # Invoice records over a run

What one invoice id sees of a run.  Every stored record was issued by a creation,
whose parameters are its terms for good (`issued_invariant`).  When the hash
function does not collide on the payloads of the run, a creation always finds its
id unused (`Issued.unused`), so a record is never overwritten.
-/

namespace Ancore.Invoices

open Ancore.Library Ancore.Library.FixedWidth Ancore.Soroban

/-! ## The invoice a call is about -/

namespace InvoiceTransition

/-- The id a creation returned. -/
def createdId (transition : InvoiceTransition) : Option InvoiceId :=
  match transition.call, transition.answer with
  | .create .., .bytes bytes =>
    if sized : bytes.length = 32 then some ⟨bytes, sized⟩ else none
  | _, _ => none

/-- The invoice a successful call creates or advances. -/
def subject (transition : InvoiceTransition) : Option InvoiceId :=
  match transition.call.target with
  | some id => some id
  | none => transition.createdId

/-- The bytes a creation hashes. -/
def payload (transition : InvoiceTransition) : Option Bytes :=
  match transition.call with
  | .create creator recipient amount asset _ _ _ => do
    let nonce ← checkedAdd (transition.before.counter.getD 0) 1
    idPayload creator recipient amount asset nonce transition.env.timestamp
  | _ => none

end InvoiceTransition

/-- The payloads hashed in a run. -/
def payloads (past : List InvoiceTransition) : List Bytes :=
  past.filterMap InvoiceTransition.payload

/-- The hash function is injective on the payloads of the run. -/
def CollisionFree (sha256 : Bytes → BytesN 32) (past : List InvoiceTransition) : Prop :=
  ∀ first ∈ payloads past, ∀ second ∈ payloads past, sha256 first = sha256 second → first = second

instance (sha256 : Bytes → BytesN 32) (past : List InvoiceTransition) :
    Decidable (CollisionFree sha256 past) :=
  inferInstanceAs (Decidable (∀ first ∈ payloads past, ∀ second ∈ payloads past,
    sha256 first = sha256 second → first = second))

theorem CollisionFree.of_append {sha256 : Bytes → BytesN 32} {past later : List InvoiceTransition}
    (collisionFree : CollisionFree sha256 (past ++ later)) : CollisionFree sha256 past := by
  intro first firstHashed second secondHashed
  rw [CollisionFree, payloads, List.filterMap_append] at collisionFree
  exact collisionFree first (List.mem_append_left _ firstHashed) second
    (List.mem_append_left _ secondHashed)

theorem mem_payloads {past : List InvoiceTransition} {transition : InvoiceTransition}
    {payload : Bytes} (member : transition ∈ past) (encodes : transition.payload = some payload) :
    payload ∈ payloads past :=
  List.mem_filterMap.mpr ⟨transition, member, encodes⟩

/-! ## The terms of an invoice -/

/-- The fields of a record that its creation fixes. -/
structure Terms where
  id : InvoiceId
  creator : Address
  recipient : Address
  amount : Int128
  asset : Address
  description : Option Bytes
  dueDate : Option UInt64
  reference : Option Bytes
  createdAt : UInt64
  nonce : UInt64
deriving DecidableEq

def Invoice.terms (invoice : Invoice) : Terms where
  id := invoice.id
  creator := invoice.creator
  recipient := invoice.recipient
  amount := invoice.amount
  asset := invoice.asset
  description := invoice.description
  dueDate := invoice.dueDate
  reference := invoice.reference
  createdAt := invoice.createdAt
  nonce := invoice.nonce

theorem Advance.terms {env : Env} {invoice next : Invoice} {call : Call}
    {authorized : List Address} {invoked : List Invocation}
    (advances : Advance env invoice call authorized invoked next) :
    next.terms = invoice.terms := by
  cases advances <;> rfl

/-- The call created the invoice on these terms. -/
structure CreatedBy (sha256 : Bytes → BytesN 32) (terms : Terms) (creation : InvoiceTransition) :
    Prop where
  call : creation.call = .create terms.creator terms.recipient terms.amount terms.asset
    terms.description terms.dueDate terms.reference
  answer : creation.answer = .bytes terms.id.val
  createdAt : terms.createdAt = creation.env.timestamp
  nonce : terms.nonce.toNat = (creation.before.counter.getD 0).toNat + 1
  hashed : ∃ payload, idPayload terms.creator terms.recipient terms.amount terms.asset terms.nonce
    terms.createdAt = some payload ∧ sha256 payload = terms.id

section CreatedBy

variable {sha256 : Bytes → BytesN 32} {terms : Terms} {creation : InvoiceTransition}

theorem CreatedBy.createdId (created : CreatedBy sha256 terms creation) :
    creation.createdId = some terms.id := by
  simp [InvoiceTransition.createdId, created.call, created.answer, terms.id.property]

theorem CreatedBy.subject (created : CreatedBy sha256 terms creation) :
    creation.subject = some terms.id := by
  simp [InvoiceTransition.subject, created.call, Call.target, created.createdId]

theorem CreatedBy.payload (created : CreatedBy sha256 terms creation) :
    ∃ payload, creation.payload = some payload ∧ sha256 payload = terms.id ∧
      idPayload terms.creator terms.recipient terms.amount terms.asset terms.nonce
        terms.createdAt = some payload := by
  obtain ⟨payload, encoded, hashed⟩ := created.hashed
  refine ⟨payload, ?_, hashed, encoded⟩
  have next : checkedAdd (creation.before.counter.getD 0) 1 = some terms.nonce :=
    checkedAdd_uint64_eq_some.mpr created.nonce
  simp only [InvoiceTransition.payload, created.call, next, Option.bind_eq_bind,
    Option.bind_some, ← created.createdAt, encoded]

theorem CreatedBy.unique {other : Terms} (created : CreatedBy sha256 terms creation)
    (again : CreatedBy sha256 other creation) : terms = other := by
  have calls := created.call.symm.trans again.call
  have answers := created.answer.symm.trans again.answer
  have times := created.createdAt.trans again.createdAt.symm
  have nonces := UInt64.toNat_inj.mp (created.nonce.trans again.nonce.symm)
  simp only [Call.create.injEq] at calls
  simp only [Val.bytes.injEq] at answers
  cases terms
  cases other
  simp_all [Subtype.ext_iff]

end CreatedBy

/-- The payload determines the nonce. -/
theorem idPayload_nonce_inj {creator creator' recipient recipient' asset asset' : Address}
    {amount amount' : Int128} {nonce nonce' timestamp timestamp' : UInt64} {payload : Bytes}
    (encoded : idPayload creator recipient amount asset nonce timestamp = some payload)
    (encoded' : idPayload creator' recipient' amount' asset' nonce' timestamp' = some payload) :
    nonce = nonce' := by
  rw [idPayload] at encoded encoded'
  obtain ⟨items, _⟩ := encodeAll_inj (fun item _ => item.delimits) (by rfl) encoded encoded'
    (rfl : payload ++ [] = payload ++ [])
  simp only [List.cons.injEq, Val.u64.injEq] at items
  exact items.2.2.2.2.1

/-! ## What one step does to one record -/

/-- What a successful call does to the record of one id. -/
inductive RecordChange (sha256 : Bytes → BytesN 32) (transition : InvoiceTransition)
    (id : InvoiceId) : Option Invoice → Prop
  | kept (other : transition.subject ≠ some id) :
      RecordChange sha256 transition id (transition.before.invoice id)
  | created {invoice : Invoice} (created : CreatedBy sha256 invoice.terms transition)
      (sameId : invoice.id = id) (positive : 0 < invoice.amount)
      (isDraft : invoice = draft id invoice.creator invoice.recipient invoice.amount invoice.asset
        invoice.description invoice.dueDate invoice.reference transition.env.timestamp
        invoice.nonce)
      (counted : transition.after.counter = some invoice.nonce)
      (silent : transition.invoked = []) :
      RecordChange sha256 transition id (some invoice)
  | advanced {invoice next : Invoice} (subject : transition.subject = some id)
      (found : transition.before.invoice id = some invoice)
      (advances : Advance transition.env invoice transition.call transition.authorized
        transition.invoked next) :
      RecordChange sha256 transition id (some next)

section Step

variable {sha256 : Bytes → BytesN 32} {env : Env} {before after : Storage} {call : Call}
  {answer : Val} {effects : List InvoiceEffect} {transition : InvoiceTransition}

@[simp] theorem Storage.register_invoice_same (invoice : Invoice) :
    (before.register invoice).invoice invoice.id = some invoice := by
  simp [Storage.register, Storage.pushRecipient, Storage.pushCreator, Storage.setInvoice]

@[simp] theorem Storage.register_invoice_ne {invoice : Invoice} {other : InvoiceId}
    (distinct : other ≠ invoice.id) :
    (before.register invoice).invoice other = before.invoice other := by
  simp [Storage.register, Storage.pushRecipient, Storage.pushCreator, Storage.setInvoice, distinct]

theorem Change.record
    (change : Change sha256 env before call answer (authorizations effects) (invocations effects)
      after) (id : InvoiceId) :
    RecordChange sha256 ⟨(env, call), before, (answer, effects), after⟩ id (after.invoice id) := by
  generalize isAuthorized : authorizations effects = authorized at change
  generalize isInvoked : invocations effects = invoked at change
  cases change with
  | @create creator recipient asset amount description reference dueDate nonce payload
      signed positive notDue next encoded =>
    by_cases same : id = sha256 payload
    · subst same
      rw [show Storage.invoice _ (sha256 payload) = some _ from Storage.register_invoice_same _]
      exact .created ⟨rfl, rfl, rfl, next, payload, encoded, rfl⟩ rfl positive rfl rfl isInvoked
    · rw [Storage.register_invoice_ne same]
      refine .kept fun subject => same ?_
      have created : some (sha256 payload) = some id := by
        simpa [InvoiceTransition.subject, Call.target, InvoiceTransition.createdId,
          (sha256 payload).property] using subject
      exact (Option.some.inj created).symm
  | @advance _ written invoice next _ _ addressed found advances =>
    subst isAuthorized
    subst isInvoked
    by_cases same : id = written
    · subst same
      rw [Storage.setInvoice_same]
      exact .advanced (by simp [InvoiceTransition.subject, addressed]) found advances
    · rw [Storage.setInvoice_ne same]
      refine .kept fun subject => same ?_
      have target : some written = some id := by
        simpa [InvoiceTransition.subject, addressed] using subject
      exact (Option.some.inj target).symm

theorem InvoiceTransition.record (performed : transition.Performed (step sha256))
    (id : InvoiceId) : RecordChange sha256 transition id (transition.after.invoice id) :=
  (InvoiceTransition.change performed).record id

theorem Change.subject {authorized : List Address} {invoked : List Invocation}
    (change : Change sha256 env before call answer authorized invoked after) :
    ∃ id, InvoiceTransition.subject ⟨(env, call), before, (answer, effects), after⟩ = some id := by
  cases change with
  | @create _ _ _ _ _ _ _ _ payload =>
    exact ⟨sha256 payload, by
      simp [InvoiceTransition.subject, Call.target, InvoiceTransition.createdId,
        (sha256 payload).property]⟩
  | @advance _ id _ _ _ _ addressed =>
    exact ⟨id, by simp [InvoiceTransition.subject, addressed]⟩

/-- Every successful call is about one invoice. -/
theorem InvoiceTransition.exists_subject (performed : transition.Performed (step sha256)) :
    ∃ id, transition.subject = some id :=
  (InvoiceTransition.change performed).subject

/-- The nonce counter never goes back. -/
theorem Change.counter_le {authorized : List Address} {invoked : List Invocation}
    (change : Change sha256 env before call answer authorized invoked after) :
    (before.counter.getD 0).toNat ≤ (after.counter.getD 0).toNat := by
  cases change with
  | @create _ _ _ _ _ _ _ nonce _ _ _ _ next =>
    change _ ≤ nonce.toNat
    omega
  | advance => exact le_rfl

/-- A call on one invoice leaves the records of the others. -/
theorem InvoiceTransition.frame (performed : transition.Performed (step sha256))
    {id other : InvoiceId} (subject : transition.subject = some id) (distinct : other ≠ id) :
    transition.after.invoice other = transition.before.invoice other := by
  have change := InvoiceTransition.record performed other
  have differs : transition.subject ≠ some other := by
    rw [subject]
    exact fun same => distinct (Option.some.inj same).symm
  generalize transition.after.invoice other = record at change
  cases change with
  | kept => rfl
  | created created sameId => exact absurd (sameId ▸ created.subject) differs
  | advanced same => exact absurd same differs

end Step

/-! ## Every record was issued -/

/-- A creation of the past made the invoice on these terms, with a nonce the counter has passed. -/
structure Issued (sha256 : Bytes → BytesN 32) (past : List InvoiceTransition) (state : Storage)
    (terms : Terms) : Prop where
  created : ∃ creation ∈ past, CreatedBy sha256 terms creation
  passed : terms.nonce.toNat ≤ (state.counter.getD 0).toNat

/-- Every stored record is on the terms it was issued on, under its own id. -/
def AllIssued (sha256 : Bytes → BytesN 32) (past : List InvoiceTransition) (state : Storage) :
    Prop :=
  ∀ id invoice, state.invoice id = some invoice →
    invoice.id = id ∧ Issued sha256 past state invoice.terms

section Issued

variable {sha256 : Bytes → BytesN 32} {past : List InvoiceTransition} {state : Storage}
  {terms : Terms} {transition : InvoiceTransition} {id : InvoiceId} {invoice : Invoice}

theorem Issued.snoc (issued : Issued sha256 past transition.before terms)
    (performed : transition.Performed (step sha256)) :
    Issued sha256 (past ++ [transition]) transition.after terms where
  created := by
    obtain ⟨creation, member, created⟩ := issued.created
    exact ⟨creation, List.mem_append_left _ member, created⟩
  passed := issued.passed.trans (InvoiceTransition.change performed).counter_le

/-- Without collisions a creation finds no record under its id. -/
theorem AllIssued.unused (all : AllIssued sha256 past transition.before)
    (collisionFree : CollisionFree sha256 (past ++ [transition]))
    (created : CreatedBy sha256 terms transition) :
    transition.before.invoice terms.id = none := by
  cases stored : transition.before.invoice terms.id with
  | none => rfl
  | some invoice =>
    obtain ⟨sameId, issued⟩ := all _ _ stored
    obtain ⟨creation, member, earlier⟩ := issued.created
    obtain ⟨payload, encodes, hashed, encoded⟩ := created.payload
    obtain ⟨payload', encodes', hashed', encoded'⟩ := earlier.payload
    -- The two creations hash to one id, so they share a payload and hence a nonce.
    have equal : payload = payload' :=
      collisionFree payload (mem_payloads (by simp) encodes) payload'
        (mem_payloads (List.mem_append_left _ member) encodes')
        ((hashed.trans sameId.symm).trans hashed'.symm)
    subst equal
    have nonces := idPayload_nonce_inj encoded encoded'
    have next := created.nonce
    have passed := issued.passed
    rw [← nonces] at passed
    omega

theorem allIssued_invariant : HistoryInvariant (step sha256) Storage.empty (AllIssued sha256) where
  init := by
    intro id invoice stored
    cases stored
  preserved := by
    intro past transition all performed id invoice stored
    have change := InvoiceTransition.record performed id
    generalize transition.after.invoice id = record at change stored
    cases change with
    | kept =>
      obtain ⟨sameId, issued⟩ := all id invoice stored
      exact ⟨sameId, issued.snoc performed⟩
    | created created sameId _ _ counted =>
      cases stored
      exact ⟨sameId, ⟨transition, by simp, created⟩, by simp [Invoice.terms, counted]⟩
    | advanced subject found advances =>
      cases stored
      obtain ⟨sameId, issued⟩ := all _ _ found
      have terms := advances.terms
      exact ⟨(congrArg Terms.id terms).trans sameId, terms ▸ issued.snoc performed⟩

end Issued

/-! ## Runs without collisions -/

/-- What a run without collisions leaves in storage: every record was issued, and every creation
has its record. -/
structure Ledger (sha256 : Bytes → BytesN 32) (past : List InvoiceTransition) (state : Storage) :
    Prop where
  issued : AllIssued sha256 past state
  kept : ∀ terms, ∀ creation ∈ past, CreatedBy sha256 terms creation →
    ∃ invoice, state.invoice terms.id = some invoice ∧ invoice.terms = terms

/-- A record that exists stays, on its terms. -/
theorem Ledger.terms_kept {sha256 : Bytes → BytesN 32} {past : List InvoiceTransition}
    {transition : InvoiceTransition} {id : InvoiceId} {invoice : Invoice}
    (ledger : Ledger sha256 past transition.before)
    (collisionFree : CollisionFree sha256 (past ++ [transition]))
    (performed : transition.Performed (step sha256))
    (stored : transition.before.invoice id = some invoice) :
    ∃ later, transition.after.invoice id = some later ∧ later.terms = invoice.terms := by
  have change := InvoiceTransition.record performed id
  generalize transition.after.invoice id = record at change
  cases change with
  | kept => exact ⟨invoice, stored, rfl⟩
  | @created fresh created sameId =>
    have unused := ledger.issued.unused collisionFree created
    rw [show fresh.terms.id = id from sameId, stored] at unused
    cases unused
  | @advanced before next _ found advances =>
    rw [found] at stored
    cases stored
    exact ⟨next, rfl, advances.terms⟩

theorem ledger_invariant (sha256 : Bytes → BytesN 32) :
    HistoryInvariant (step sha256) Storage.empty fun past state =>
      CollisionFree sha256 past → Ledger sha256 past state where
  init := fun _ => ⟨allIssued_invariant.init, fun _ _ member => by cases member⟩
  preserved := by
    intro past transition before performed collisionFree
    have ledger := before collisionFree.of_append
    refine ⟨allIssued_invariant.preserved past transition ledger.issued performed, ?_⟩
    intro terms creation member created
    rcases List.mem_append.mp member with earlier | last
    · obtain ⟨invoice, stored, sameTerms⟩ := ledger.kept terms creation earlier created
      obtain ⟨later, kept, keptTerms⟩ := ledger.terms_kept collisionFree performed stored
      exact ⟨later, kept, keptTerms.trans sameTerms⟩
    · cases List.mem_singleton.mp last
      have change := InvoiceTransition.record performed terms.id
      generalize transition.after.invoice terms.id = record at change
      cases change with
      | kept other => exact absurd created.subject other
      | created issued => exact ⟨_, rfl, issued.unique created⟩
      | advanced subject found =>
        have unused := ledger.issued.unused collisionFree created
        rw [found] at unused
        cases unused

/-! ## A sample run -/

def sampleCreator : Address := .account (repeatedByte 1)
def sampleRecipient : Address := .account (repeatedByte 2)
def sampleAsset : Address := .contract (repeatedByte 3)
def sampleAmount : Int128 := ⟨100, by decide, by decide⟩

/-- The payload of the n-th creation of the sample run. -/
def samplePayload (nonce timestamp : UInt64) : Bytes :=
  (idPayload sampleCreator sampleRecipient sampleAmount sampleAsset nonce timestamp).getD []

def firstId : InvoiceId :=
  ⟨[232, 32, 205, 159, 149, 203, 245, 44, 141, 248, 226, 236, 193, 85, 140, 159, 90, 60, 190, 171,
    144, 141, 46, 117, 0, 107, 110, 208, 109, 31, 169, 110], rfl⟩

def secondId : InvoiceId :=
  ⟨[130, 218, 97, 23, 2, 245, 56, 66, 92, 230, 97, 130, 99, 79, 235, 151, 60, 74, 21, 56, 176, 166,
    108, 254, 238, 57, 55, 129, 136, 56, 180, 171], rfl⟩

/-- SHA-256 on the two payloads of the sample run. -/
def sampleSha256 (payload : Bytes) : BytesN 32 :=
  if payload = samplePayload 1 10 then firstId
  else if payload = samplePayload 2 20 then secondId
  else zeroBytes

def sampleEnv (timestamp : UInt64) (signer : Address) : Env :=
  .sample (.contract (repeatedByte 9)) timestamp [signer] []

def sampleCreate : Call :=
  .create sampleCreator sampleRecipient sampleAmount sampleAsset none (some 50) none

/-- Two invoices are created; the first is opened and paid. -/
def sampleCalls : List (Env × Call) :=
  [(sampleEnv 10 sampleCreator, sampleCreate), (sampleEnv 20 sampleCreator, sampleCreate),
    (sampleEnv 30 sampleCreator, .open firstId),
    (sampleEnv 40 sampleRecipient, .pay firstId sampleRecipient (repeatedByte 7))]

theorem sampleCalls_collisionFree :
    CollisionFree sampleSha256 (history (step sampleSha256) Storage.empty sampleCalls) := by
  decide +kernel

/-- The first invoice after the sample run. -/
def samplePaid : Invoice :=
  ((draft firstId sampleCreator sampleRecipient sampleAmount sampleAsset none (some 50) none 10
    1).markOpen 30).markPaid 40 (repeatedByte 7)

/-- The second invoice after the sample run. -/
def sampleDraft : Invoice :=
  draft secondId sampleCreator sampleRecipient sampleAmount sampleAsset none (some 50) none 20 2

theorem sampleCalls_first :
    (final (step sampleSha256) Storage.empty sampleCalls).invoice firstId = some samplePaid := by
  decide +kernel

theorem sampleCalls_second :
    (final (step sampleSha256) Storage.empty sampleCalls).invoice secondId = some sampleDraft := by
  decide +kernel

end Ancore.Invoices
