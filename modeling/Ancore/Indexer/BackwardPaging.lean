import Ancore.Indexer.ContractEvents
import Ancore.Indexer.Paging

/-! # Paging back

Both queries answer `cursor_before` with the newest rows above the cursor, not with
those next to it, so a page found by following `next_cursor` is given back by the
next page's `prev_cursor` only where nothing newer matches.
-/

namespace Ancore.Indexer

open Ancore.Library

/-- What a reader sees of a page. -/
structure Paged (ρ : Type) where
  items : List ρ
  nextCursor : Option String
  prevCursor : Option String
deriving DecidableEq

/-- A paged query, by its two cursors. -/
abbrev Query (ρ : Type) := Option String → Option String → Except ApiError (Paged ρ)

/-- The page reached by following `next_cursor` so many times. -/
def followed {ρ : Type} (query : Query ρ) : Nat → Option (Paged ρ)
  | 0 => (query none none).toOption
  | depth + 1 => do
    let page ← followed query depth
    let cursor ← page.nextCursor
    (query (some cursor) none).toOption

/-- The activity of an account, in pages of this size. -/
def activityQuery (codec : CursorCodec) (table : List ActivityRecord) (accountId : String)
    (filter : ActivityFilter) (size : Option Nat) : Query ActivityRecord := fun after before =>
  (getAccountActivity codec table accountId filter ⟨after, before, size⟩).map fun page =>
    ⟨page.items, page.nextCursor, page.prevCursor⟩

/-- The contract events that pass the filter. -/
def contractEventsQuery (codec : CursorCodec) (table : List ContractEvent)
    (filter : ContractEventFilter) : Query ContractEvent := fun after before =>
  (getContractEvents codec table
    { filter with cursorAfter := after, cursorBefore := before }).map fun page =>
      ⟨page.items, page.nextCursor, page.prevCursor⟩

/-! ## Queries that read pages of a table -/

section Reads

variable {ρ : Type} {codec : CursorCodec} {key : ρ → Position} {limit : Nat} {rows : List ρ}
  {query : Query ρ}

/-- A page with its cursors as texts. -/
def pagedOf (codec : CursorCodec) (page : KeysetPage ρ Position) : Paged ρ :=
  ⟨page.items, page.next.map codec.encode, page.previous.map codec.encode⟩

/-- The query cuts its pages out of these rows. -/
structure Reads (codec : CursorCodec) (key : ρ → Position) (limit : Nat) (rows : List ρ)
    (query : Query ρ) : Prop where
  positive : 0 < limit
  distinct : (rows.map key).Nodup
  forward : ∀ after : Option Position, query (after.map codec.encode) none =
    .ok (pagedOf codec (keysetPage key limit rows after none))
  back : ∀ before : Option Position, query none (before.map codec.encode) =
    .ok (pagedOf codec (keysetPage key limit rows none before))

theorem Reads.followed (reads : Reads codec key limit rows query) (depth : Nat) :
    followed query depth = (pageAt key limit rows depth).map (pagedOf codec) := by
  induction depth with
  | zero => exact congrArg Except.toOption (reads.forward none)
  | succ depth inductionHypothesis =>
    rw [Indexer.followed, inductionHypothesis, pageAt]
    cases pageAt key limit rows depth with
    | none => rfl
    | some page =>
      cases isNext : page.next with
      | none => simp [pagedOf, isNext]
      | some cursor =>
        have read := congrArg Except.toOption (reads.forward (some cursor))
        simpa [pagedOf, isNext, Except.toOption] using read

/-- A page is given back by the cursor of the next one exactly where it is the first. -/
theorem Reads.back_iff (reads : Reads codec key limit rows query) {depth : Nat}
    {page onward : Paged ρ} (here : Indexer.followed query depth = some page)
    (follows : Indexer.followed query (depth + 1) = some onward) :
    (query none onward.prevCursor).map Paged.items = .ok page.items ↔ depth = 0 := by
  rw [reads.followed] at here follows
  obtain ⟨page, isPage, rfl⟩ := Option.map_eq_some_iff.mp here
  obtain ⟨onward, isOnward, rfl⟩ := Option.map_eq_some_iff.mp follows
  rw [← Library.back_iff reads.distinct reads.positive isPage isOnward]
  have cursor : (pagedOf codec onward).prevCursor = onward.previous.map codec.encode := rfl
  rw [cursor, reads.back]
  simp [Except.map, pagedOf]

end Reads

/-! ## The two queries -/

section Queries

variable {codec : CursorCodec}
  (faithful : ∀ position, codec.decode (codec.encode position) = .ok position)

include faithful

theorem activityQuery_reads {table : List ActivityRecord} (distinct : DistinctIds table)
    (accountId : String) (filter : ActivityFilter) (size : Option Nat) :
    Reads codec ActivityRecord.position (effectiveLimit ⟨none, none, size⟩)
      (table.filter fun row => selects accountId filter none none row)
      (activityQuery codec table accountId filter size) where
  positive := effectiveLimit_pos _
  distinct := by
    have ids : ((table.filter fun row => selects accountId filter none none row).map
        ActivityRecord.id).Nodup := distinct.sublist (List.filter_sublist.map _)
    rw [List.Nodup, List.pairwise_map] at ids ⊢
    refine ids.imp ?_
    intro one other different same
    exact different (congrArg (fun position : Position => (ofLex position).2) same)
  forward := by
    intro after
    obtain ⟨items, next, previous⟩ := queryActivity_keyset codec table accountId filter
      (effectiveLimit ⟨none, none, size⟩) after none
    have read : getAccountActivity codec table accountId filter ⟨after.map codec.encode, none, size⟩
        = .ok (queryActivity codec table accountId filter (effectiveLimit ⟨none, none, size⟩)
          after none) := by
      simp only [getAccountActivity, (validated_encoded faithful after size).1]
      rfl
    simp only [activityQuery, read, Except.map, items, next, previous]
    rfl
  back := by
    intro before
    obtain ⟨items, next, previous⟩ := queryActivity_keyset codec table accountId filter
      (effectiveLimit ⟨none, none, size⟩) none before
    have read : getAccountActivity codec table accountId filter
        ⟨none, before.map codec.encode, size⟩ =
          .ok (queryActivity codec table accountId filter (effectiveLimit ⟨none, none, size⟩)
            none before) := by
      simp only [getAccountActivity, (validated_encoded faithful before size).2]
      rfl
    simp only [activityQuery, read, Except.map, items, next, previous]
    rfl

theorem contractEventsQuery_reads {table : List ContractEvent}
    (distinct : (table.map ContractEvent.id).Nodup) (filter : ContractEventFilter) :
    Reads codec ContractEvent.position filter.effectiveLimit
      (table.filter fun event => filter.selects event)
      (contractEventsQuery codec table filter) where
  positive := lt_of_lt_of_le Nat.one_pos (le_max_left _ _)
  distinct := by
    have ids : ((table.filter fun event => filter.selects event).map ContractEvent.id).Nodup :=
      distinct.sublist (List.filter_sublist.map _)
    rw [List.Nodup, List.pairwise_map] at ids ⊢
    refine ids.imp ?_
    intro one other different same
    exact different (congrArg (fun position : Position => (ofLex position).2) same)
  forward := by
    intro after
    simp only [contractEventsQuery, getContractEvents,
      (validated_encoded faithful after filter.limit).1]
    rfl
  back := by
    intro before
    simp only [contractEventsQuery, getContractEvents,
      (validated_encoded faithful before filter.limit).2]
    rfl

end Queries

/-- Three payments, one a page. -/
abbrev threePayments : Query ActivityRecord :=
  activityQuery decimalCodec [sampleActivity 3 9, sampleActivity 2 8, sampleActivity 1 7] "GA"
    noFilter (some 1)

theorem threePayments_reads :
    Reads decimalCodec ActivityRecord.position 1
      [sampleActivity 3 9, sampleActivity 2 8, sampleActivity 1 7] threePayments := by
  have distinct :
      DistinctIds [sampleActivity 3 9, sampleActivity 2 8, sampleActivity 1 7] := by decide
  exact activityQuery_reads decimalCodec_faithful distinct "GA" noFilter (some 1)

/-- The page of a payment, with or without one before and after it. -/
def paymentPage (id : Nat) (createdAt : Timestamp) (last first : Bool) : Paged ActivityRecord :=
  pagedOf decimalCodec
    { items := [sampleActivity id createdAt]
      next := if last then none else some (toLex (createdAt, id))
      previous := if first then none else some (toLex (createdAt, id)) }

theorem followed_threePayments :
    followed threePayments 0 = some (paymentPage 3 9 false true) ∧
      followed threePayments 1 = some (paymentPage 2 8 false false) ∧
      followed threePayments 2 = some (paymentPage 1 7 true false) := by
  simp only [threePayments_reads.followed]
  exact ⟨rfl, rfl, rfl⟩

end Ancore.Indexer
