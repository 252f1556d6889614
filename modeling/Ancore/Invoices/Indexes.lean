import Ancore.Library.KeyedLog
import Ancore.Invoices.Records

/-! # The invoice indexes over a run

The two indexes list the ids of the creations of a run in their order
(`index_invariant`), and every creation has its record, so the join of
`getByAccount` finds each invoice of an account once.
-/

namespace Ancore.Invoices

open Ancore.Library Ancore.Soroban

/-! ## Creations by party -/

/-- The creator of a creation, with the id it returned. -/
def byCreator (transition : InvoiceTransition) : Option (Address × InvoiceId) :=
  match transition.call with
  | .create creator _ _ _ _ _ _ => transition.createdId.map fun id => (creator, id)
  | _ => none

/-- The recipient of a creation, with the id it returned. -/
def byRecipient (transition : InvoiceTransition) : Option (Address × InvoiceId) :=
  match transition.call with
  | .create _ recipient _ _ _ _ _ => transition.createdId.map fun id => (recipient, id)
  | _ => none

/-- The ids of all creations, oldest first. -/
def createdIds (past : List InvoiceTransition) : List InvoiceId :=
  past.filterMap InvoiceTransition.createdId

section Labels

variable {sha256 : Bytes → BytesN 32} {terms : Terms} {creation : InvoiceTransition}

theorem CreatedBy.byCreator (created : CreatedBy sha256 terms creation) :
    byCreator creation = some (terms.creator, terms.id) := by
  simp [Invoices.byCreator, created.call, created.createdId]

theorem CreatedBy.byRecipient (created : CreatedBy sha256 terms creation) :
    byRecipient creation = some (terms.recipient, terms.id) := by
  simp [Invoices.byRecipient, created.call, created.createdId]

theorem target_of_createdId {id : InvoiceId} (returned : creation.createdId = some id) :
    creation.call.target = none := by
  simp only [InvoiceTransition.createdId] at returned
  split at returned
  · rename_i isCreate _
    simp [isCreate, Call.target]
  · cases returned

theorem Advance.target_ne_none {env : Env} {invoice next : Invoice} {call : Call}
    {authorized : List Address} {invoked : List Invocation}
    (advances : Advance env invoice call authorized invoked next) : call.target ≠ none := by
  cases advances with
  | paid pays => cases call <;> simp [Call.target, Call.isPayment] at pays ⊢
  | _ => simp [Call.target]

/-- A call that returned a new id created an invoice under it. -/
theorem exists_createdBy {id : InvoiceId} (performed : creation.Performed (step sha256))
    (returned : creation.createdId = some id) :
    ∃ terms, CreatedBy sha256 terms creation ∧ terms.id = id := by
  have creates := target_of_createdId returned
  have change := InvoiceTransition.record performed id
  generalize creation.after.invoice id = record at change
  cases change with
  | kept other => exact absurd (by simp [InvoiceTransition.subject, creates, returned]) other
  | created created sameId => exact ⟨_, created, sameId⟩
  | advanced _ _ advances => exact absurd creates advances.target_ne_none

end Labels

/-! ## The indexes over a run -/

/-- The two indexes list the creations of the past. -/
def IndexesRecorded (past : List InvoiceTransition) (state : Storage) : Prop :=
  ∀ account, listByCreator state account = entriesOf byCreator account past ∧
    listByRecipient state account = entriesOf byRecipient account past

section Run

variable {sha256 : Bytes → BytesN 32} {past : List InvoiceTransition}
  {transition : InvoiceTransition} {state : Storage} {account : Address} {id : InvoiceId}

/-- A push to an index is read back at the end of the list of its key. -/
theorem pushToIndex_getD (index : Address → Option (List InvoiceId)) (key : Address) :
    ((pushToIndex index key id) account).getD [] =
      (index account).getD [] ++ (if key = account then [id] else []) := by
  by_cases same : account = key
  · subst same
    simp [pushToIndex]
  · simp [pushToIndex, Function.update_of_ne same, Ne.symm same]

/-- What a step enters into the indexes. -/
theorem Change.indexes {env : Env} {before after : Storage} {call : Call} {answer : Val}
    {authorized : List Address} {invoked : List Invocation} {effects : List InvoiceEffect}
    (change : Change sha256 env before call answer authorized invoked after) (account : Address) :
    listByCreator after account = listByCreator before account ++
      (entryOf byCreator account ⟨(env, call), before, (answer, effects), after⟩).toList ∧
    listByRecipient after account = listByRecipient before account ++
      (entryOf byRecipient account ⟨(env, call), before, (answer, effects), after⟩).toList := by
  cases change with
  | @create creator recipient _ _ _ _ _ _ payload =>
    have sized : (sha256 payload).val.length = 32 := (sha256 payload).property
    constructor
    · rw [listByCreator, Storage.register]
      simp only [Storage.pushRecipient, Storage.pushCreator, pushToIndex_getD]
      by_cases same : creator = account <;>
        simp [listByCreator, entryOf, byCreator, InvoiceTransition.createdId, draft,
          Storage.setInvoice, sized, same]
    · rw [listByRecipient, Storage.register]
      simp only [Storage.pushRecipient, Storage.pushCreator, pushToIndex_getD]
      by_cases same : recipient = account <;>
        simp [listByRecipient, entryOf, byRecipient, InvoiceTransition.createdId, draft,
          Storage.setInvoice, sized, same]
  | @advance call written _ next _ _ addressed =>
    -- Only a creation is entered anywhere.
    have neither : entryOf byCreator account ⟨(env, call), before, (.void, effects),
          before.setInvoice written next⟩ = none ∧
        entryOf byRecipient account ⟨(env, call), before, (.void, effects),
          before.setInvoice written next⟩ = none := by
      cases call <;> simp [entryOf, byCreator, byRecipient, InvoiceTransition.createdId]
    rw [neither.1, neither.2]
    simp [listByCreator, listByRecipient, Storage.setInvoice]

theorem index_invariant (sha256 : Bytes → BytesN 32) :
    HistoryInvariant (step sha256) Storage.empty IndexesRecorded where
  init := fun _ => ⟨rfl, rfl⟩
  preserved := by
    intro past (transition : InvoiceTransition) recorded performed account
    obtain ⟨creators, recipients⟩ := recorded account
    obtain ⟨creator, recipient⟩ := (InvoiceTransition.change performed).indexes account
    rw [entriesOf_append, entriesOf_append, entriesOf_singleton, entriesOf_singleton, ← creators,
      ← recipients]
    exact ⟨creator, recipient⟩

/-- Without collisions no id is handed out twice. -/
theorem createdIds_invariant (sha256 : Bytes → BytesN 32) :
    HistoryInvariant (step sha256) Storage.empty fun past state =>
      CollisionFree sha256 past → Ledger sha256 past state ∧ (createdIds past).Nodup ∧
        ∀ id ∈ createdIds past, ∃ invoice, state.invoice id = some invoice where
  init := fun collisionFree =>
    ⟨(ledger_invariant sha256).init collisionFree, List.nodup_nil, fun _ member => by cases member⟩
  preserved := by
    intro past (transition : InvoiceTransition) before performed collisionFree
    obtain ⟨ledger, nodup, stored⟩ := before collisionFree.of_append
    refine ⟨(ledger_invariant sha256).preserved past transition (fun _ => ledger) performed
      collisionFree, ?_⟩
    have stays : ∀ id ∈ createdIds past, ∃ invoice, transition.after.invoice id = some invoice := by
      intro id member
      obtain ⟨invoice, found⟩ := stored id member
      obtain ⟨later, kept, _⟩ := ledger.terms_kept collisionFree performed found
      exact ⟨later, kept⟩
    rw [createdIds, List.filterMap_append, ← createdIds]
    cases returned : transition.createdId with
    | none =>
      simp only [List.filterMap_cons, returned, List.filterMap_nil, List.append_nil]
      exact ⟨nodup, stays⟩
    | some id =>
      simp only [List.filterMap_cons, returned, List.filterMap_nil]
      obtain ⟨terms, created, rfl⟩ := exists_createdBy performed returned
      have unused := ledger.issued.unused collisionFree created
      have fresh : terms.id ∉ createdIds past := by
        intro member
        obtain ⟨invoice, found⟩ := stored _ member
        cases unused.symm.trans found
      refine ⟨List.nodup_append.mpr ⟨nodup, List.nodup_singleton _, ?_⟩, ?_⟩
      · intro id member other last same
        cases List.mem_singleton.mp last
        exact fresh (same ▸ member)
      · intro id member
        rcases List.mem_append.mp member with earlier | last
        · exact stays id earlier
        · cases List.mem_singleton.mp last
          obtain ⟨invoice, found, _⟩ := ((ledger_invariant sha256).preserved past transition
            (fun _ => ledger) performed collisionFree).kept terms transition (by simp) created
          exact ⟨invoice, found⟩

/-! ## Resolving ids -/

/-- Ids that each have a record of their own resolve to these records. -/
theorem map_id_filterMap {storage : Storage} {ids : List InvoiceId}
    (all : ∀ id ∈ ids, ∃ invoice, storage.invoice id = some invoice ∧ invoice.id = id) :
    (ids.filterMap storage.invoice).map Invoice.id = ids := by
  induction ids with
  | nil => rfl
  | cons id ids inductionHypothesis =>
    rw [List.forall_mem_cons] at all
    obtain ⟨⟨invoice, stored, sameId⟩, rest⟩ := all
    simp [stored, sameId, inductionHypothesis rest]

/-- The two lists of an account are the ids of its invoices, each once. -/
structure ListsComplete (storage : Storage) (account : Address) : Prop where
  ownId : ∀ id invoice, storage.invoice id = some invoice → invoice.id = id
  creator : ∀ id, id ∈ listByCreator storage account ↔
    ∃ invoice, storage.invoice id = some invoice ∧ invoice.creator = account
  recipient : ∀ id, id ∈ listByRecipient storage account ↔
    ∃ invoice, storage.invoice id = some invoice ∧ invoice.recipient = account
  creatorNodup : (listByCreator storage account).Nodup
  recipientNodup : (listByRecipient storage account).Nodup

theorem ListsComplete.map_id_getByAccount (complete : ListsComplete state account) :
    (getByAccount state account).map Invoice.id = listByCreator state account ++
      (listByRecipient state account).filter
        fun id => !(listByCreator state account).contains id := by
  have resolves {id : InvoiceId} {invoice : Invoice} (stored : state.invoice id = some invoice) :
      ∃ invoice, state.invoice id = some invoice ∧ invoice.id = id :=
    ⟨invoice, stored, complete.ownId id invoice stored⟩
  simp only [getByAccount, List.map_append]
  rw [map_id_filterMap, map_id_filterMap]
  · intro id member
    obtain ⟨invoice, stored, _⟩ := (complete.recipient id).mp (List.mem_of_mem_filter member)
    exact resolves stored
  · intro id member
    obtain ⟨invoice, stored, _⟩ := (complete.creator id).mp member
    exact resolves stored

theorem ListsComplete.nodup (complete : ListsComplete state account) :
    ((getByAccount state account).map Invoice.id).Nodup := by
  rw [complete.map_id_getByAccount]
  refine List.nodup_append.mpr
    ⟨complete.creatorNodup, complete.recipientNodup.filter _, fun id listed other kept same => ?_⟩
  -- The second list leaves out what the first one has.
  subst same
  simp [listed] at kept

theorem ListsComplete.mem_iff (complete : ListsComplete state account) {invoice : Invoice} :
    invoice ∈ getByAccount state account ↔ state.invoice invoice.id = some invoice ∧
      (invoice.creator = account ∨ invoice.recipient = account) := by
  simp only [getByAccount, List.mem_append, List.mem_filterMap]
  constructor
  · rintro (⟨id, member, stored⟩ | ⟨id, member, stored⟩)
    · obtain ⟨found, lookup, party⟩ := (complete.creator id).mp member
      cases lookup.symm.trans stored
      exact ⟨(complete.ownId id invoice stored).symm ▸ stored, .inl party⟩
    · obtain ⟨found, lookup, party⟩ :=
        (complete.recipient id).mp (List.mem_of_mem_filter member)
      cases lookup.symm.trans stored
      exact ⟨(complete.ownId id invoice stored).symm ▸ stored, .inr party⟩
  · rintro ⟨stored, party⟩
    by_cases listed : invoice.id ∈ listByCreator state account
    · exact .inl ⟨invoice.id, listed, stored⟩
    · have isRecipient : invoice.recipient = account := party.resolve_left fun isCreator =>
        listed ((complete.creator _).mpr ⟨invoice, stored, isCreator⟩)
      have member := (complete.recipient _).mpr ⟨invoice, stored, isRecipient⟩
      exact .inr ⟨invoice.id, List.mem_filter.mpr ⟨member, by simpa using listed⟩, stored⟩

/-- The creations of one party are creations. -/
theorem entriesOf_sublist {label : InvoiceTransition → Option (Address × InvoiceId)}
    (labels : ∀ transition account id, label transition = some (account, id) →
      transition.createdId = some id) :
    (entriesOf label account past).Sublist (createdIds past) := by
  induction past with
  | nil => exact .slnil
  | cons transition past inductionHypothesis =>
    simp only [entriesOf, createdIds, List.filterMap_cons] at inductionHypothesis ⊢
    cases entry : entryOf label account transition with
    | none =>
      cases transition.createdId with
      | none => exact inductionHypothesis
      | some other => exact inductionHypothesis.cons other
    | some id =>
      rw [labels transition account id (entryOf_eq_some.mp entry)]
      exact inductionHypothesis.cons_cons id

theorem createdId_of_byCreator (labelled : byCreator transition = some (account, id)) :
    transition.createdId = some id := by
  unfold byCreator at labelled
  split at labelled
  · simp only [Option.map_eq_some_iff, Prod.mk.injEq] at labelled
    obtain ⟨_, returned, _, rfl⟩ := labelled
    exact returned
  · cases labelled

theorem createdId_of_byRecipient (labelled : byRecipient transition = some (account, id)) :
    transition.createdId = some id := by
  unfold byRecipient at labelled
  split at labelled
  · simp only [Option.map_eq_some_iff, Prod.mk.injEq] at labelled
    obtain ⟨_, returned, _, rfl⟩ := labelled
    exact returned
  · cases labelled

/-- The creations of one party are the stored records of that party. -/
theorem Ledger.mem_entriesOf_iff {label : InvoiceTransition → Option (Address × InvoiceId)}
    {party : Terms → Address} (ledger : Ledger sha256 past state)
    (performed : ∀ transition ∈ past, transition.Performed (step sha256))
    (labels : ∀ {terms creation}, CreatedBy sha256 terms creation →
      label creation = some (party terms, terms.id))
    (returned : ∀ {transition account id}, label transition = some (account, id) →
      transition.createdId = some id) :
    id ∈ entriesOf label account past ↔
      ∃ invoice, state.invoice id = some invoice ∧ party invoice.terms = account := by
  rw [mem_entriesOf]
  constructor
  · rintro ⟨creation, member, labelled⟩
    obtain ⟨terms, created, rfl⟩ := exists_createdBy (performed creation member) (returned labelled)
    obtain ⟨invoice, stored, rfl⟩ := ledger.kept terms creation member created
    rw [labels created, Option.some.injEq, Prod.mk.injEq] at labelled
    exact ⟨invoice, stored, labelled.1⟩
  · rintro ⟨invoice, stored, rfl⟩
    obtain ⟨sameId, issued⟩ := ledger.issued id invoice stored
    obtain ⟨creation, member, created⟩ := issued.created
    exact ⟨creation, member, sameId ▸ labels created⟩

end Run

/-- Without hash collisions, `getByAccount` finds every stored invoice of an account exactly once,
and the two lists are the ids created with that party, in creation order and without
repetition. -/
theorem indexes_complete (sha256 : Bytes → BytesN 32) (calls : List (Env × Call))
    (collisionFree : CollisionFree sha256 (history (step sha256) Storage.empty calls))
    (account : Address) :
    (∀ invoice, invoice ∈ getByAccount (final (step sha256) Storage.empty calls) account ↔
      (final (step sha256) Storage.empty calls).invoice invoice.id = some invoice ∧
        (invoice.creator = account ∨ invoice.recipient = account)) ∧
    (∀ id invoice, (final (step sha256) Storage.empty calls).invoice id = some invoice →
      invoice.id = id) ∧
    ((getByAccount (final (step sha256) Storage.empty calls) account).map Invoice.id).Nodup ∧
    listByCreator (final (step sha256) Storage.empty calls) account =
      entriesOf byCreator account (history (step sha256) Storage.empty calls) ∧
    listByRecipient (final (step sha256) Storage.empty calls) account =
      entriesOf byRecipient account (history (step sha256) Storage.empty calls) ∧
    (createdIds (history (step sha256) Storage.empty calls)).Nodup := by
  obtain ⟨ledger, nodup, _⟩ := (createdIds_invariant sha256).holds_final calls collisionFree
  obtain ⟨creators, recipients⟩ := (index_invariant sha256).holds_final calls account
  have performed : ∀ transition ∈ history (step sha256) Storage.empty calls,
      transition.Performed (step sha256) :=
    fun _ => performed_of_mem_history (step sha256)
  have complete : ListsComplete (final (step sha256) Storage.empty calls) account := {
    ownId := fun id invoice stored => (ledger.issued id invoice stored).1
    creator := fun id => by
      rw [creators]
      exact ledger.mem_entriesOf_iff performed CreatedBy.byCreator createdId_of_byCreator
    recipient := fun id => by
      rw [recipients]
      exact ledger.mem_entriesOf_iff performed CreatedBy.byRecipient createdId_of_byRecipient
    creatorNodup := creators ▸ nodup.sublist (entriesOf_sublist fun _ _ _ => createdId_of_byCreator)
    recipientNodup :=
      recipients ▸ nodup.sublist (entriesOf_sublist fun _ _ _ => createdId_of_byRecipient) }
  exact ⟨fun _ => complete.mem_iff, complete.ownId, complete.nodup, creators, recipients, nodup⟩

theorem indexes_complete_of_sample :
    listByCreator (final (step sampleSha256) Storage.empty sampleCalls) sampleCreator =
        entriesOf byCreator sampleCreator
          (history (step sampleSha256) Storage.empty sampleCalls) ∧
      samplePaid ∈ getByAccount (final (step sampleSha256) Storage.empty sampleCalls)
        sampleRecipient := by
  obtain ⟨member, _, _, creators, _⟩ :=
    indexes_complete sampleSha256 sampleCalls sampleCalls_collisionFree sampleCreator
  obtain ⟨found, _⟩ :=
    indexes_complete sampleSha256 sampleCalls sampleCalls_collisionFree sampleRecipient
  have ownId : samplePaid.id = firstId := rfl
  have isRecipient : samplePaid.recipient = sampleRecipient := by decide
  refine ⟨creators, (found samplePaid).mpr ⟨?_, .inr isRecipient⟩⟩
  rw [ownId]
  exact sampleCalls_first

end Ancore.Invoices
