import Ancore.Library.StableSort
import Ancore.Mobile.History

/-! # What the mobile history shows

The pages follow the cursor of the activity feed alone, and what does not fit a page is
cut off.  The events between the cursors of an activity page are asked for with it,
and before it only where they had even less room (`shown_event`), so the history is
complete exactly when each activity page fits together with its events.
-/

namespace Ancore.Mobile

open Ancore.Library Ancore.Indexer

section History

variable (codec : CursorCodec) (activities : List ActivityRecord) (events : List ContractEvent)
  (accountId : String) (pageSize : Nat)

/-- The activity rows of the account. -/
def activityRows : List ActivityRecord :=
  activities.filter fun row => selects accountId noFilter none none row

/-- The contract events of the account. -/
def contractEvents : List ContractEvent := events.filter fun event => event.accountId = accountId

/-- The rows an activity page holds at most. -/
def activityLimit : Nat := effectiveLimit ⟨none, none, some pageSize⟩

/-- The events that come with an activity page at most. -/
def eventLimit : Nat := (contractEventsOf accountId pageSize none).effectiveLimit

/-- The activity page asked for with this cursor. -/
abbrev activityFrom (after : Option Position) : KeysetPage ActivityRecord Position :=
  keysetPage ActivityRecord.position (activityLimit pageSize) (activityRows activities accountId)
    after none

/-- The events asked for with it. -/
abbrev eventsFrom (after : Option Position) : KeysetPage ContractEvent Position :=
  keysetPage ContractEvent.position (eventLimit accountId pageSize)
    (contractEvents events accountId) after none

/-- The transactions of the two pages, activity first. -/
def fetched (after : Option Position) : List Transaction :=
  (activityFrom activities accountId pageSize after).items.map
      (mapActivityToTransaction accountId) ++
    (eventsFrom events accountId pageSize after).items.map mapContractEventToTransaction

/-- What the history takes from them. -/
def shown (after : Option Position) : List Transaction :=
  (sortNewestFirst (fetched activities events accountId pageSize after)).take pageSize

/-- All there is to show. -/
def allTransactions : List Transaction :=
  (activityRows activities accountId).map (mapActivityToTransaction accountId) ++
    (contractEvents events accountId).map mapContractEventToTransaction

/-- The activity page at a depth. -/
abbrev activityAt (depth : Nat) : Option (KeysetPage ActivityRecord Position) :=
  pageAt ActivityRecord.position (activityLimit pageSize) (activityRows activities accountId) depth

/-- The cursor it is asked for with. -/
abbrev cursorAt (depth : Nat) : Option Position :=
  askedWith ActivityRecord.position (activityLimit pageSize) (activityRows activities accountId)
    depth

/-- The events between two cursors. -/
def eventsBeside (after next : Option Position) : List ContractEvent :=
  (contractEvents events accountId).filter fun event =>
    (∀ cursor ∈ after, event.position < cursor) ∧ ∀ cursor ∈ next, cursor < event.position

/-- An activity page fits together with the events between the cursors it is asked for with and the
one it returns, and these are not more than the indexer gives. -/
def Fits (depth : Nat) : Prop :=
  ∀ page, activityAt activities accountId pageSize depth = some page →
    page.items.length + (eventsBeside events accountId
      (cursorAt activities accountId pageSize depth) page.next).length ≤ pageSize ∧
    (eventsBeside events accountId (cursorAt activities accountId pageSize depth)
      page.next).length ≤ contractEventsMaxLimit

/-- Rows and events have different ids. -/
abbrev DistinctRecords : Prop :=
  (activities.map ActivityRecord.id ++ events.map ContractEvent.id).Nodup

end History

/-! ## Distinct records -/

/-- Ids tell records apart, so positions do. -/
theorem positions_nodup {ρ : Type} {rows : List ρ} {id : ρ → Nat} {position : ρ → Position}
    (isId : ∀ row, (ofLex (position row)).2 = id row) (ids : (rows.map id).Nodup) :
    (rows.map position).Nodup := by
  rw [List.Nodup, List.pairwise_map] at ids ⊢
  refine ids.imp ?_
  intro one other different same
  rw [← isId one, ← isId other, same] at different
  exact different rfl

theorem time_le_of_position {one other : Transaction} {first second : Position}
    (isFirst : (ofLex first).1 = one.timestamp) (isSecond : (ofLex second).1 = other.timestamp)
    (below : second ≤ first) : NewestFirst one other := by
  have earlier : other.timestamp ≤ one.timestamp := by
    rw [← isFirst, ← isSecond]
    exact Prod.Lex.monotone_fst _ _ below
  exact Int.ediv_le_ediv (by decide) earlier

section Distinct

variable {activities : List ActivityRecord} {events : List ContractEvent} {accountId : String}
  {pageSize : Nat} {after : Option Position} (distinct : DistinctRecords activities events)

include distinct

theorem DistinctRecords.rowIds :
    ((activityRows activities accountId).map ActivityRecord.id).Nodup :=
  (List.nodup_append.mp distinct).1.sublist (List.filter_sublist.map _)

theorem DistinctRecords.eventIds :
    ((contractEvents events accountId).map ContractEvent.id).Nodup :=
  (List.nodup_append.mp distinct).2.1.sublist (List.filter_sublist.map _)

theorem DistinctRecords.rowPositions :
    ((activityRows activities accountId).map ActivityRecord.position).Nodup :=
  positions_nodup (fun _ => rfl) distinct.rowIds

theorem DistinctRecords.eventPositions :
    ((contractEvents events accountId).map ContractEvent.position).Nodup :=
  positions_nodup (fun _ => rfl) distinct.eventIds

theorem DistinctRecords.all :
    ((allTransactions activities events accountId).map Transaction.id).Nodup := by
  have ids : ((activityRows activities accountId).map ActivityRecord.id ++
      (contractEvents events accountId).map ContractEvent.id).Nodup :=
    distinct.sublist ((List.filter_sublist.map _).append (List.filter_sublist.map _))
  simpa [allTransactions, Function.comp_def, mapActivityToTransaction,
    mapContractEventToTransaction] using ids

/-- Different transactions come from different records. -/
theorem DistinctRecords.told {one other : Transaction}
    (isOne : one ∈ allTransactions activities events accountId)
    (isOther : other ∈ allTransactions activities events accountId) (same : one.id = other.id) :
    one = other :=
  List.inj_on_of_nodup_map distinct.all isOne isOther same

theorem DistinctRecords.mapRow_inj {one other : ActivityRecord}
    (isOne : one ∈ activityRows activities accountId)
    (isOther : other ∈ activityRows activities accountId)
    (same : mapActivityToTransaction accountId one = mapActivityToTransaction accountId other) :
    one = other :=
  List.inj_on_of_nodup_map distinct.rowIds isOne isOther (congrArg Transaction.id same)

theorem DistinctRecords.mapEvent_inj {one other : ContractEvent}
    (isOne : one ∈ contractEvents events accountId)
    (isOther : other ∈ contractEvents events accountId)
    (same : mapContractEventToTransaction one = mapContractEventToTransaction other) :
    one = other :=
  List.inj_on_of_nodup_map distinct.eventIds isOne isOther (congrArg Transaction.id same)

/-- No transaction comes from both feeds. -/
theorem DistinctRecords.apart {row : ActivityRecord} {event : ContractEvent}
    (isRow : row ∈ activityRows activities accountId)
    (isEvent : event ∈ contractEvents events accountId) :
    mapActivityToTransaction accountId row ≠ mapContractEventToTransaction event := by
  intro same
  have different := (List.nodup_append.mp distinct).2.2 row.id
    (List.mem_map_of_mem (List.mem_of_mem_filter isRow)) event.id
    (List.mem_map_of_mem (List.mem_of_mem_filter isEvent))
  exact different (congrArg Transaction.id same)

end Distinct

/-! ## One page -/

section Page

variable {activities : List ActivityRecord} {events : List ContractEvent} {accountId : String}
  {pageSize : Nat} {after : Option Position} {row : ActivityRecord} {event : ContractEvent}
  {tx : Transaction}

theorem activityLimit_pos (pageSize : Nat) : 0 < activityLimit pageSize := effectiveLimit_pos _

theorem mem_fetched :
    tx ∈ fetched activities events accountId pageSize after ↔
      (∃ row ∈ (activityFrom activities accountId pageSize after).items,
        mapActivityToTransaction accountId row = tx) ∨
      ∃ event ∈ (eventsFrom events accountId pageSize after).items,
        mapContractEventToTransaction event = tx := by
  simp [fetched]

/-- The events above one, below the cursor. -/
def ahead (events : List ContractEvent) (accountId : String) (after : Option Position)
    (event : ContractEvent) : List ContractEvent :=
  (contractEvents events accountId).filter fun other =>
    event.position < other.position ∧ ∀ cursor ∈ after, other.position < cursor

variable (distinct : DistinctRecords activities events)

include distinct

theorem DistinctRecords.row_of_page
    (member : row ∈ (activityFrom activities accountId pageSize after).items) :
    row ∈ activityRows activities accountId :=
  ((mem_keysetPage_iff distinct.rowPositions (activityLimit_pos _)).mp member).1

theorem DistinctRecords.mem_eventsFrom :
    event ∈ (eventsFrom events accountId pageSize after).items ↔
      (event ∈ contractEvents events accountId ∧ ∀ cursor ∈ after, event.position < cursor) ∧
        (ahead events accountId after event).length < eventLimit accountId pageSize :=
  mem_keysetPage_iff_few distinct.eventPositions

theorem DistinctRecords.fetched_subset :
    fetched activities events accountId pageSize after ⊆
      allTransactions activities events accountId := by
  intro tx member
  obtain ⟨row, isRow, rfl⟩ | ⟨event, isEvent, rfl⟩ := mem_fetched.mp member
  · exact List.mem_append_left _ (List.mem_map_of_mem (distinct.row_of_page isRow))
  · exact List.mem_append_right _
      (List.mem_map_of_mem (distinct.mem_eventsFrom.mp isEvent).1.1)

/-- The transactions of different records are different. -/
theorem DistinctRecords.transactions_nodup {rows : List ActivityRecord}
    {others : List ContractEvent} (rowsNodup : rows.Nodup)
    (isRow : ∀ row ∈ rows, row ∈ activityRows activities accountId) (othersNodup : others.Nodup)
    (isEvent : ∀ event ∈ others, event ∈ contractEvents events accountId) :
    (rows.map (mapActivityToTransaction accountId) ++
      others.map mapContractEventToTransaction).Nodup := by
  refine List.nodup_append'.mpr ⟨?_, ?_, ?_⟩
  · exact rowsNodup.map_on fun one isOne other isOther same =>
      distinct.mapRow_inj (isRow one isOne) (isRow other isOther) same
  · exact othersNodup.map_on fun one isOne other isOther same =>
      distinct.mapEvent_inj (isEvent one isOne) (isEvent other isOther) same
  · intro tx fromRow fromEvent
    obtain ⟨row, member, rfl⟩ := List.mem_map.mp fromRow
    obtain ⟨event, among, same⟩ := List.mem_map.mp fromEvent
    exact distinct.apart (isRow row member) (isEvent event among) same.symm

theorem DistinctRecords.page_nodup :
    (activityFrom activities accountId pageSize after).items.Nodup :=
  (keysetPage_strictly distinct.rowPositions).imp fun below same => by simp [same] at below

theorem DistinctRecords.events_nodup : (contractEvents events accountId).Nodup :=
  .of_map _ distinct.eventIds

theorem DistinctRecords.fetched_nodup :
    (fetched activities events accountId pageSize after).Nodup := by
  have parts : (eventsFrom events accountId pageSize after).items.Nodup :=
    (keysetPage_strictly distinct.eventPositions).imp fun below same => by simp [same] at below
  exact distinct.transactions_nodup distinct.page_nodup (fun _ => distinct.row_of_page) parts
    fun _ isEvent => (distinct.mem_eventsFrom.mp isEvent).1.1

variable (accountId pageSize after) in
theorem DistinctRecords.fetched_ids :
    ((fetched activities events accountId pageSize after).map Transaction.id).Nodup :=
  distinct.fetched_nodup.map_on fun _ isOne _ isOther same =>
    distinct.told (distinct.fetched_subset isOne) (distinct.fetched_subset isOther) same

/-! ### Who stands before whom -/

theorem DistinctRecords.row_before_row {other : ActivityRecord}
    (isRow : row ∈ (activityFrom activities accountId pageSize after).items)
    (isOther : other ∈ (activityFrom activities accountId pageSize after).items)
    (below : other.position < row.position) :
    StandsBefore NewestFirst (fetched activities events accountId pageSize after)
      (mapActivityToTransaction accountId row) (mapActivityToTransaction accountId other) := by
  refine ⟨time_le_of_position rfl rfl below.le, ?_⟩
  have pair := pair_sublist_of_lt (keysetPage_strictly distinct.rowPositions) isRow isOther below
  exact (pair.map (mapActivityToTransaction accountId)).trans (List.sublist_append_left _ _)

theorem DistinctRecords.event_before_event {other : ContractEvent}
    (isEvent : event ∈ (eventsFrom events accountId pageSize after).items)
    (isOther : other ∈ (eventsFrom events accountId pageSize after).items)
    (below : other.position < event.position) :
    StandsBefore NewestFirst (fetched activities events accountId pageSize after)
      (mapContractEventToTransaction event) (mapContractEventToTransaction other) := by
  refine ⟨time_le_of_position rfl rfl below.le, ?_⟩
  have pair :=
    pair_sublist_of_lt (keysetPage_strictly distinct.eventPositions) isEvent isOther below
  exact (pair.map mapContractEventToTransaction).trans (List.sublist_append_right _ _)

omit distinct in
/-- Activity comes first among transactions of one time. -/
theorem row_before_event
    (isRow : row ∈ (activityFrom activities accountId pageSize after).items)
    (isEvent : event ∈ (eventsFrom events accountId pageSize after).items)
    (below : event.position ≤ row.position) :
    StandsBefore NewestFirst (fetched activities events accountId pageSize after)
      (mapActivityToTransaction accountId row) (mapContractEventToTransaction event) := by
  refine ⟨time_le_of_position rfl rfl below, ?_⟩
  have first := List.singleton_sublist.mpr
    (List.mem_map_of_mem (f := mapActivityToTransaction accountId) isRow)
  have second := List.singleton_sublist.mpr
    (List.mem_map_of_mem (f := mapContractEventToTransaction) isEvent)
  exact first.append second

/-! ### What is shown -/

/-- A row of a page that fits together with its events is shown. -/
theorem DistinctRecords.shown_row
    (isRow : row ∈ (activityFrom activities accountId pageSize after).items)
    (fits : (activityFrom activities accountId pageSize after).items.length +
      (eventsBeside events accountId after
        (activityFrom activities accountId pageSize after).next).length ≤ pageSize) :
    mapActivityToTransaction accountId row ∈
      shown activities events accountId pageSize after := by
  have member : mapActivityToTransaction accountId row ∈
      fetched activities events accountId pageSize after :=
    mem_fetched.mpr (.inl ⟨row, isRow, rfl⟩)
  refine mem_take_of_few
    (((activityFrom activities accountId pageSize after).items.filter
      fun other => row.position < other.position).map (mapActivityToTransaction accountId) ++
    (eventsBeside events accountId after
      (activityFrom activities accountId pageSize after).next).map mapContractEventToTransaction)
    distinct.fetched_nodup member ?_ ?_
  · intro tx isTx different late
    simp only [List.mem_append, List.mem_map, List.mem_filter, decide_eq_true_eq, not_or,
      not_exists, not_and, and_imp] at late
    obtain ⟨other, isOther, rfl⟩ | ⟨event, isEvent, rfl⟩ := mem_fetched.mp isTx
    · have notAbove : ¬ row.position < other.position := fun above =>
        late.1 other isOther above rfl
      have apart : other.position ≠ row.position := by
        intro same
        have equal := List.inj_on_of_nodup_map distinct.rowPositions
          (distinct.row_of_page isOther) (distinct.row_of_page isRow) same
        exact different (congrArg _ equal)
      exact distinct.row_before_row isRow isOther (lt_of_le_of_ne (not_lt.mp notAbove) apart)
    · -- an event that is not beside the page is below the cursor it returns
      have fetchedEvent := (distinct.mem_eventsFrom.mp isEvent).1
      have notBeside : event ∉ eventsBeside events accountId after
          (activityFrom activities accountId pageSize after).next :=
        fun beside => late.2 event beside rfl
      have low : ∃ cursor ∈ (activityFrom activities accountId pageSize after).next,
          event.position ≤ cursor := by
        by_contra high
        push Not at high
        exact notBeside (List.mem_filter.mpr
          ⟨fetchedEvent.1, decide_eq_true ⟨fetchedEvent.2, high⟩⟩)
      obtain ⟨cursor, isNext, below⟩ := low
      have above := ((mem_keysetPage_iff distinct.rowPositions (activityLimit_pos _)).mp isRow).2.2
        cursor isNext
      exact row_before_event isRow isEvent (below.trans above)
  · have fewer : ((activityFrom activities accountId pageSize after).items.filter
        fun other => row.position < other.position).length <
        (activityFrom activities accountId pageSize after).items.length :=
      List.length_filter_lt_length_iff_exists.mpr ⟨row, isRow, by simp⟩
    rw [List.length_append, List.length_map, List.length_map]
    omega

/-- An event of the feed with few others and all rows of the page above it is shown. -/
theorem DistinctRecords.shown_event
    (isEvent : event ∈ (eventsFrom events accountId pageSize after).items)
    (room : (activityFrom activities accountId pageSize after).items.length +
      (ahead events accountId after event).length < pageSize) :
    mapContractEventToTransaction event ∈
      shown activities events accountId pageSize after := by
  have member : mapContractEventToTransaction event ∈
      fetched activities events accountId pageSize after :=
    mem_fetched.mpr (.inr ⟨event, isEvent, rfl⟩)
  refine mem_take_of_few
    ((activityFrom activities accountId pageSize after).items.map
        (mapActivityToTransaction accountId) ++
      (ahead events accountId after event).map mapContractEventToTransaction)
    distinct.fetched_nodup member ?_ (by simpa using room)
  intro tx isTx different late
  simp only [List.mem_append, List.mem_map, not_or, not_exists, not_and] at late
  obtain ⟨row, isRow, rfl⟩ | ⟨other, isOther, rfl⟩ := mem_fetched.mp isTx
  · exact absurd rfl (late.1 row isRow)
  · have fetchedOther := (distinct.mem_eventsFrom.mp isOther).1
    have notAbove : ¬ event.position < other.position := fun above =>
      late.2 other
        (List.mem_filter.mpr ⟨fetchedOther.1, decide_eq_true ⟨above, fetchedOther.2⟩⟩) rfl
    have apart : other.position ≠ event.position := by
      intro same
      have equal := List.inj_on_of_nodup_map distinct.eventPositions fetchedOther.1
        (distinct.mem_eventsFrom.mp isEvent).1.1 same
      exact different (congrArg _ equal)
    exact distinct.event_before_event isEvent isOther (lt_of_le_of_ne (not_lt.mp notAbove) apart)

/-- An event that is shown is one of its feed; where all rows of the page stand above it, there was
room for them and for the events above it. -/
theorem DistinctRecords.room_of_shown (known : event ∈ contractEvents events accountId)
    (isShown : mapContractEventToTransaction event ∈
      shown activities events accountId pageSize after) :
    event ∈ (eventsFrom events accountId pageSize after).items ∧
      ((∀ row ∈ (activityFrom activities accountId pageSize after).items,
          event.position ≤ row.position) →
        (activityFrom activities accountId pageSize after).items.length +
          (ahead events accountId after event).length < pageSize) := by
  have isEvent : event ∈ (eventsFrom events accountId pageSize after).items := by
    have member := mem_sortNewestFirst.mp (List.mem_of_mem_take isShown)
    obtain ⟨row, isRow, same⟩ | ⟨other, isOther, same⟩ := mem_fetched.mp member
    · exact absurd same (distinct.apart (distinct.row_of_page isRow) known)
    · have fetchedOther := (distinct.mem_eventsFrom.mp isOther).1.1
      rwa [← distinct.mapEvent_inj fetchedOther known same]
  refine ⟨isEvent, fun below => ?_⟩
  obtain ⟨⟨_, under⟩, few⟩ := distinct.mem_eventsFrom.mp isEvent
  -- the events above it were asked for with it
  have aheadFetched : ∀ other ∈ ahead events accountId after event,
      event.position < other.position ∧
        other ∈ (eventsFrom events accountId pageSize after).items := by
    intro other isAhead
    obtain ⟨isOther, place⟩ := List.mem_filter.mp isAhead
    obtain ⟨above, underOther⟩ := of_decide_eq_true place
    refine ⟨above, distinct.mem_eventsFrom.mpr ⟨⟨isOther, underOther⟩, ?_⟩⟩
    refine lt_of_le_of_lt (List.Sublist.length_le (List.monotone_filter_right _ ?_)) few
    intro third isThird
    obtain ⟨higher, underThird⟩ := of_decide_eq_true isThird
    exact decide_eq_true ⟨above.trans higher, underThird⟩
  have early : ((activityFrom activities accountId pageSize after).items.map
      (mapActivityToTransaction accountId) ++
      (ahead events accountId after event).map mapContractEventToTransaction).Nodup :=
    distinct.transactions_nodup distinct.page_nodup (fun _ => distinct.row_of_page)
      (distinct.events_nodup.filter _) fun _ isAhead => List.mem_of_mem_filter isAhead
  have bound := few_of_mem_take distinct.fetched_nodup early ?_ ?_ isShown
  · simpa using bound
  · intro tx isEarly
    obtain inRows | inAhead := List.mem_append.mp isEarly
    · obtain ⟨row, isRow, rfl⟩ := List.mem_map.mp inRows
      exact row_before_event isRow isEvent (below row isRow)
    · obtain ⟨other, isAhead, rfl⟩ := List.mem_map.mp inAhead
      obtain ⟨above, isOther⟩ := aheadFetched other isAhead
      exact distinct.event_before_event isOther isEvent above
  · intro isEarly
    obtain inRows | inAhead := List.mem_append.mp isEarly
    · obtain ⟨row, isRow, same⟩ := List.mem_map.mp inRows
      exact distinct.apart (distinct.row_of_page isRow) known same
    · obtain ⟨other, isAhead, same⟩ := List.mem_map.mp inAhead
      obtain rfl := distinct.mapEvent_inj (List.mem_of_mem_filter isAhead) known same
      exact absurd (aheadFetched other isAhead).1 (lt_irrefl _)

end Page

/-! ## All pages -/

section Pages

variable {activities : List ActivityRecord} {events : List ContractEvent} {accountId : String}
  {pageSize depth : Nat} {page : KeysetPage ActivityRecord Position} {row : ActivityRecord}
  {event : ContractEvent} {tx : Transaction}

/-- The transaction is shown with some page. -/
def IsShown (activities : List ActivityRecord) (events : List ContractEvent) (accountId : String)
    (pageSize : Nat) (tx : Transaction) : Prop :=
  ∃ depth, (activityAt activities accountId pageSize depth).isSome ∧
    tx ∈ shown activities events accountId pageSize (cursorAt activities accountId pageSize depth)

theorem mem_eventsBeside {after next : Option Position} :
    event ∈ eventsBeside events accountId after next ↔
      event ∈ contractEvents events accountId ∧ (∀ cursor ∈ after, event.position < cursor) ∧
        ∀ cursor ∈ next, cursor < event.position := by
  simp [eventsBeside]

theorem eventLimit_eq (positive : 0 < pageSize) :
    eventLimit accountId pageSize = min contractEventsMaxLimit pageSize := by
  have one : contractEventsMinLimit ≤ min contractEventsMaxLimit pageSize := by
    simp only [contractEventsMinLimit, contractEventsMaxLimit]
    omega
  exact max_eq_right one

variable (distinct : DistinctRecords activities events)

include distinct

/-- The events above one beside a page are beside it too. -/
theorem DistinctRecords.ahead_lt {after next : Option Position}
    (beside : event ∈ eventsBeside events accountId after next) :
    (ahead events accountId after event).length <
      (eventsBeside events accountId after next).length := by
  have absent : event ∉ ahead events accountId after event :=
    fun isAhead => (of_decide_eq_true (List.mem_filter.mp isAhead).2).1.false
  have nodup : (event :: ahead events accountId after event).Nodup :=
    List.nodup_cons.mpr ⟨absent, distinct.events_nodup.filter _⟩
  refine (nodup.subperm fun other member => ?_).length_le
  obtain rfl | isAhead := List.mem_cons.mp member
  · exact beside
  · obtain ⟨isOther, place⟩ := List.mem_filter.mp isAhead
    obtain ⟨above, under⟩ := of_decide_eq_true place
    obtain ⟨_, _, high⟩ := mem_eventsBeside.mp beside
    exact mem_eventsBeside.mpr
      ⟨isOther, under, fun cursor isNext => (high cursor isNext).trans above⟩

theorem DistinctRecords.mem_page
    (here : activityAt activities accountId pageSize depth = some page) :
    row ∈ page.items ↔ row ∈ activityRows activities accountId ∧
      (∀ cursor ∈ cursorAt activities accountId pageSize depth, row.position < cursor) ∧
        ∀ cursor ∈ page.next, cursor ≤ row.position := by
  have isPage := pageAt_asked here
  rw [isPage]
  exact mem_keysetPage_iff distinct.rowPositions (activityLimit_pos _)

/-- No event stands on the cursor of a page. -/
theorem DistinctRecords.beside_of_le
    (here : activityAt activities accountId pageSize depth = some page)
    (isEvent : event ∈ contractEvents events accountId)
    (under : ∀ cursor ∈ cursorAt activities accountId pageSize depth, event.position < cursor)
    (notBelow : ∀ cursor ∈ page.next, cursor ≤ event.position) :
    event ∈ eventsBeside events accountId (cursorAt activities accountId pageSize depth)
      page.next := by
  refine mem_eventsBeside.mpr ⟨isEvent, under, fun cursor isNext => ?_⟩
  refine lt_of_le_of_ne (notBelow cursor isNext) fun same => ?_
  have isPage := pageAt_asked here
  rw [isPage] at isNext
  obtain ⟨row, isRow, isCursor⟩ := exists_of_next isNext
  -- a row of one position would have its id
  have known := distinct.row_of_page isRow
  have different := (List.nodup_append.mp distinct).2.2 row.id
    (List.mem_map_of_mem (List.mem_of_mem_filter known)) event.id
    (List.mem_map_of_mem (List.mem_of_mem_filter isEvent))
  exact different (congrArg (fun position : Position => (ofLex position).2) (isCursor.trans same))

theorem DistinctRecords.shown_of_fits (positive : 0 < pageSize)
    (fits : ∀ depth, Fits activities events accountId pageSize depth)
    (isTx : tx ∈ allTransactions activities events accountId) :
    IsShown activities events accountId pageSize tx := by
  obtain fromRow | fromEvent := List.mem_append.mp isTx
  · obtain ⟨row, isRow, rfl⟩ := List.mem_map.mp fromRow
    obtain ⟨depth, page, here, under, above⟩ := exists_stretch distinct.rowPositions
      (activityLimit_pos pageSize) row.position
    have member := (distinct.mem_page here).mpr ⟨isRow, under, above⟩
    have room := (fits depth page here).1
    refine ⟨depth, Option.isSome_of_mem here, ?_⟩
    rw [pageAt_asked here] at member room
    exact distinct.shown_row member room
  · obtain ⟨event, isEvent, rfl⟩ := List.mem_map.mp fromEvent
    obtain ⟨depth, page, here, under, above⟩ := exists_stretch distinct.rowPositions
      (activityLimit_pos pageSize) event.position
    have beside := distinct.beside_of_le here isEvent under above
    have fewer := distinct.ahead_lt beside
    obtain ⟨room, given⟩ := fits depth page here
    have isPage : (activityFrom activities accountId pageSize
        (cursorAt activities accountId pageSize depth)) = page := (pageAt_asked here).symm
    refine ⟨depth, Option.isSome_of_mem here, ?_⟩
    refine distinct.shown_event (distinct.mem_eventsFrom.mpr ⟨⟨isEvent, under⟩, ?_⟩) ?_
    · rw [eventLimit_eq positive]
      exact lt_min (by omega) (by omega)
    · rw [isPage]
      omega

/-- A row is shown with its own page only. -/
theorem DistinctRecords.row_shown_here
    (here : activityAt activities accountId pageSize depth = some page) (isRow : row ∈ page.items)
    (isShown : IsShown activities events accountId pageSize
      (mapActivityToTransaction accountId row)) :
    mapActivityToTransaction accountId row ∈ shown activities events accountId pageSize
      (cursorAt activities accountId pageSize depth) := by
  obtain ⟨shownDepth, isSome, isShown⟩ := isShown
  obtain ⟨shownPage, there⟩ := Option.isSome_iff_exists.mp isSome
  obtain ⟨known, under, above⟩ := (distinct.mem_page here).mp isRow
  have member : row ∈ shownPage.items := by
    rw [pageAt_asked there]
    have fetched := mem_sortNewestFirst.mp (List.mem_of_mem_take isShown)
    obtain ⟨other, isOther, same⟩ | ⟨event, isEvent, same⟩ := mem_fetched.mp fetched
    · rwa [← distinct.mapRow_inj (distinct.row_of_page isOther) known same]
    · exact absurd same.symm (distinct.apart known (distinct.mem_eventsFrom.mp isEvent).1.1)
  obtain ⟨_, underShown, aboveShown⟩ := (distinct.mem_page there).mp member
  obtain deeper | rfl | earlier := lt_trichotomy depth shownDepth
  · obtain ⟨next, asked, isNext, isAsked, lower⟩ :=
      askedWith_le distinct.rowPositions (activityLimit_pos _) here deeper there
    exact absurd ((underShown asked isAsked).trans_le lower) (above next isNext).not_gt
  · exact isShown
  · obtain ⟨next, asked, isNext, isAsked, lower⟩ :=
      askedWith_le distinct.rowPositions (activityLimit_pos _) there earlier here
    exact absurd ((under asked isAsked).trans_le lower) (aboveShown next isNext).not_gt

/-- An event is shown with an earlier page only where there would have been room for it later. -/
theorem DistinctRecords.event_shown_here
    (here : activityAt activities accountId pageSize depth = some page)
    (beside : event ∈ eventsBeside events accountId
      (cursorAt activities accountId pageSize depth) page.next)
    (isShown : IsShown activities events accountId pageSize
      (mapContractEventToTransaction event)) :
    event ∈ (eventsFrom events accountId pageSize
        (cursorAt activities accountId pageSize depth)).items ∧
      mapContractEventToTransaction event ∈ shown activities events accountId pageSize
        (cursorAt activities accountId pageSize depth) := by
  obtain ⟨shownDepth, isSome, isShown⟩ := isShown
  obtain ⟨shownPage, there⟩ := Option.isSome_iff_exists.mp isSome
  obtain ⟨known, under, above⟩ := mem_eventsBeside.mp beside
  obtain ⟨asked, room⟩ := distinct.room_of_shown known isShown
  obtain ⟨⟨_, underShown⟩, few⟩ := distinct.mem_eventsFrom.mp asked
  obtain deeper | rfl | earlier := lt_trichotomy depth shownDepth
  · obtain ⟨next, cursor, isNext, isCursor, lower⟩ :=
      askedWith_le distinct.rowPositions (activityLimit_pos _) here deeper there
    exact absurd ((underShown cursor isCursor).trans_le lower) (above next isNext).not_gt
  · exact ⟨asked, isShown⟩
  · obtain ⟨next, cursor, isNext, isCursor, lower⟩ :=
      askedWith_le distinct.rowPositions (activityLimit_pos _) there earlier here
    have below := (under cursor isCursor).trans_le lower
    -- all rows of the earlier page, a full one, and all events up to this one came first
    obtain rfl : shownPage = activityFrom activities accountId pageSize
        (cursorAt activities accountId pageSize shownDepth) := pageAt_asked there
    have roomy := room fun row isRow =>
      below.le.trans (((distinct.mem_page there).mp isRow).2.2 next isNext)
    rw [length_of_next isNext] at roomy
    have shorter : (activityFrom activities accountId pageSize
        (cursorAt activities accountId pageSize depth)).items.length ≤ activityLimit pageSize :=
      length_keysetPage_le
    have nested : (ahead events accountId (cursorAt activities accountId pageSize depth)
        event).length ≤ (ahead events accountId
          (cursorAt activities accountId pageSize shownDepth) event).length := by
      refine List.Sublist.length_le (List.monotone_filter_right _ ?_)
      intro other isOther
      obtain ⟨higher, underOther⟩ := of_decide_eq_true isOther
      refine decide_eq_true ⟨higher, fun top isTop => ?_⟩
      obtain ⟨row, isRow, isKey⟩ := exists_of_next isNext
      have lowest := ((distinct.mem_page there).mp isRow).2.1 top isTop
      exact (underOther cursor isCursor).trans_le (lower.trans (isKey ▸ lowest.le))
    have fetched := distinct.mem_eventsFrom.mpr
      ⟨⟨known, under⟩, lt_of_le_of_lt nested few⟩
    exact ⟨fetched, distinct.shown_event fetched (by omega)⟩

theorem DistinctRecords.fits_of_shown (positive : 0 < pageSize)
    (complete : ∀ tx ∈ allTransactions activities events accountId,
      IsShown activities events accountId pageSize tx) (depth : Nat) :
    Fits activities events accountId pageSize depth := by
  intro page here
  have isRow : ∀ row ∈ page.items, row ∈ activityRows activities accountId :=
    fun row member => ((distinct.mem_page here).mp member).1
  have isEvent : ∀ event ∈ eventsBeside events accountId
      (cursorAt activities accountId pageSize depth) page.next,
      event ∈ contractEvents events accountId :=
    fun event member => (mem_eventsBeside.mp member).1
  have besideNodup : (eventsBeside events accountId
      (cursorAt activities accountId pageSize depth) page.next).Nodup :=
    distinct.events_nodup.filter _
  have eventShown := fun event beside => distinct.event_shown_here here beside
    (complete _ (List.mem_append_right _ (List.mem_map_of_mem (isEvent event beside))))
  constructor
  · have pageNodup : page.items.Nodup := by
      rw [pageAt_asked here]
      exact distinct.page_nodup
    have all := distinct.transactions_nodup pageNodup isRow besideNodup isEvent
    have inside := (all.subperm fun tx member => ?_).length_le.trans
      (List.length_take_le pageSize (sortNewestFirst (fetched activities events accountId pageSize
        (cursorAt activities accountId pageSize depth))))
    · simpa using inside
    · obtain fromRow | fromEvent := List.mem_append.mp member
      · obtain ⟨row, isItem, rfl⟩ := List.mem_map.mp fromRow
        exact distinct.row_shown_here here isItem
          (complete _ (List.mem_append_left _ (List.mem_map_of_mem (isRow row isItem))))
      · obtain ⟨event, beside, rfl⟩ := List.mem_map.mp fromEvent
        exact (eventShown event beside).2
  · have inside := (besideNodup.subperm fun event beside => (eventShown event beside).1).length_le
    have given := inside.trans length_keysetPage_le
    rw [eventLimit_eq positive] at given
    exact given.trans (min_le_left _ _)

end Pages

/-! ## The run -/

section Run

variable {codec : CursorCodec} {activities : List ActivityRecord} {events : List ContractEvent}
  {accountId : String} {pageSize depth fuel : Nat}
  {page : KeysetPage ActivityRecord Position} {state last : HistoryState}
  (faithful : ∀ position, codec.decode (codec.encode position) = .ok position)
  (written : ∀ position, codec.encode position ≠ "")
  (distinct : DistinctRecords activities events)

/-- The adapter over the two feeds. -/
abbrev createIndexerActivityAdapter (codec : CursorCodec) (activities : List ActivityRecord)
    (events : List ContractEvent) (accountId : String) (pageSize : Nat) :
    Option String → Option HistoryPage :=
  fetchTransactionPage codec activities events accountId pageSize

theorem selects_contractEventsOf {cursor : Option String} {event : ContractEvent} :
    (contractEventsOf accountId pageSize cursor).selects event ↔ event.accountId = accountId := by
  simp [ContractEventFilter.selects, contractEventsOf]

include faithful written distinct

theorem fetchTransactionPage_eq (after : Option Position) :
    fetchTransactionPage codec activities events accountId pageSize (after.map codec.encode) =
      some {
        transactions := shown activities events accountId pageSize after
        nextCursor :=
          (activityFrom activities accountId pageSize after).next.map codec.encode } := by
  have asked : (after.map codec.encode).filter (· ≠ "") = after.map codec.encode := by
    cases after <;> simp [Option.filter, written]
  obtain ⟨items, next, _⟩ := queryActivity_keyset codec activities accountId noFilter
    (activityLimit pageSize) after none
  have body : getAccountActivity codec activities accountId noFilter
      ⟨after.map codec.encode, none, some pageSize⟩ =
        .ok (queryActivity codec activities accountId noFilter (activityLimit pageSize) after
          none) := by
    simp only [getAccountActivity, (validated_encoded faithful after (some pageSize)).1]
    rfl
  have part : (events.filter fun event =>
      (contractEventsOf accountId pageSize (after.map codec.encode)).selects event) =
        contractEvents events accountId :=
    List.filter_congr fun event _ => by simp [selects_contractEventsOf]
  obtain ⟨found, isFound, isItems⟩ := getContractEvents_forward faithful events
    (contractEventsOf accountId pageSize (after.map codec.encode)) rfl rfl
  rw [part] at isItems
  have merged := mergeUniqueTransactions_of_distinct (distinct.fetched_ids accountId pageSize after)
  simp only [fetchTransactionPage, asked, body, isFound, Except.toOption, Option.bind_eq_bind,
    Option.bind_some, items, next, isItems]
  rw [show activityPage activities accountId noFilter (activityLimit pageSize) after none =
    activityFrom activities accountId pageSize after from rfl]
  exact congrArg some (congrArg (HistoryPage.mk · _) (congrArg (List.take pageSize) merged))

/-- The pages up to a depth are in the state, and nothing else. -/
structure Viewed (codec : CursorCodec) (activities : List ActivityRecord)
    (events : List ContractEvent) (accountId : String) (pageSize depth : Nat)
    (page : KeysetPage ActivityRecord Position) (state : HistoryState) : Prop where
  here : activityAt activities accountId pageSize depth = some page
  idle : (state.isLoadingInitial || state.isLoadingMore || state.isRefreshing) = false
  next : state.nextCursor = page.next.map codec.encode
  ids : (state.items.map Transaction.id).Nodup
  ordered : state.items.Pairwise NewestFirst
  members : ∀ tx, tx ∈ state.items ↔ ∃ earlier ≤ depth,
    (activityAt activities accountId pageSize earlier).isSome ∧ tx ∈ shown activities events
      accountId pageSize (cursorAt activities accountId pageSize earlier)

omit faithful written in
theorem DistinctRecords.shown_subset {after : Option Position} {tx : Transaction}
    (isShown : tx ∈ shown activities events accountId pageSize after) :
    tx ∈ allTransactions activities events accountId :=
  distinct.fetched_subset (mem_sortNewestFirst.mp (List.mem_of_mem_take isShown))

/-- A page more is in the state after it is fetched. -/
theorem fetchPage_members (pageSize : Nat) (after : Option Position) {mode : FetchMode}
    (more : mode ≠ .refresh) (ids : (state.items.map Transaction.id).Nodup)
    (known : ∀ tx ∈ state.items, tx ∈ allTransactions activities events accountId) :
    ∃ next, fetchPage (createIndexerActivityAdapter codec activities events accountId pageSize)
        mode (after.map codec.encode) state = some next ∧
      (next.isLoadingInitial || next.isLoadingMore || next.isRefreshing) = false ∧
      next.nextCursor =
        (activityFrom activities accountId pageSize after).next.map codec.encode ∧
      (next.items.map Transaction.id).Nodup ∧ next.items.Pairwise NewestFirst ∧
      ∀ tx, tx ∈ next.items ↔
        tx ∈ shown activities events accountId pageSize after ∨ tx ∈ state.items := by
  have fetched : createIndexerActivityAdapter codec activities events accountId pageSize
      (after.map codec.encode) = _ :=
    fetchTransactionPage_eq faithful written distinct after
  refine ⟨_, by rw [fetchPage, fetched]; rfl, rfl, rfl, ?_, sortNewestFirst_ordered _, ?_⟩
  · simp only [if_neg more]
    exact nodup_mergeItems ids
  · intro tx
    simp only [if_neg more]
    refine mem_mergeItems ids fun one isOne other isOther => ?_
    have isKnown : ∀ tx ∈ shown activities events accountId pageSize after ++ state.items,
        tx ∈ allTransactions activities events accountId := by
      intro tx member
      obtain new | old := List.mem_append.mp member
      · exact distinct.shown_subset new
      · exact known tx old
    exact distinct.told (isKnown one isOne) (isKnown other isOther)

theorem viewed_initial :
    ∃ first, fetchPage (createIndexerActivityAdapter codec activities events accountId pageSize)
        .initial none .initial = some first ∧
      Viewed codec activities events accountId pageSize 0
        (activityFrom activities accountId pageSize none) first := by
  obtain ⟨first, fetched, idle, next, ids, ordered, members⟩ :=
    @fetchPage_members codec activities events accountId .initial faithful written distinct
      pageSize none .initial (by decide) (by decide) nofun
  refine ⟨first, fetched, rfl, idle, next, ids, ordered, fun tx => ?_⟩
  rw [members]
  simp [HistoryState.initial, pageAt, askedWith]

theorem viewed_loadMore {cursor : Position}
    (viewed : Viewed codec activities events accountId pageSize depth page state)
    (isNext : page.next = some cursor) :
    ∃ next, loadMore (createIndexerActivityAdapter codec activities events accountId pageSize)
        state = some next ∧
      Viewed codec activities events accountId pageSize (depth + 1)
        (activityFrom activities accountId pageSize (some cursor)) next := by
  obtain ⟨follows, asked⟩ := pageAt_succ viewed.here isNext
  have known : ∀ tx ∈ state.items, tx ∈ allTransactions activities events accountId := by
    intro tx member
    obtain ⟨_, _, _, isShown⟩ := (viewed.members tx).mp member
    exact distinct.shown_subset isShown
  obtain ⟨next, fetched, idle, isCursor, ids, ordered, members⟩ :=
    @fetchPage_members codec activities events accountId state faithful written distinct
      pageSize (some cursor) .loadMore (by decide) viewed.ids known
  have loaded : loadMore (createIndexerActivityAdapter codec activities events accountId pageSize)
      state = some next := by
    have cursorText : state.nextCursor = some (codec.encode cursor) := by
      rw [viewed.next, isNext, Option.map_some]
    simpa [loadMore, viewed.idle, cursorText] using fetched
  refine ⟨next, loaded, follows, idle, isCursor, ids, ordered, fun tx => ?_⟩
  rw [members, viewed.members]
  constructor
  · rintro (isShown | ⟨earlier, before, isPage, isShown⟩)
    · refine ⟨depth + 1, le_rfl, Option.isSome_of_mem follows, ?_⟩
      rw [show cursorAt activities accountId pageSize (depth + 1) = some cursor from asked]
      exact isShown
    · exact ⟨earlier, before.trans (Nat.le_succ depth), isPage, isShown⟩
  · rintro ⟨earlier, before, isPage, isShown⟩
    obtain here | rfl := before.lt_or_eq
    · exact .inr ⟨earlier, Nat.le_of_lt_succ here, isPage, isShown⟩
    · have here : cursorAt activities accountId pageSize (depth + 1) = some cursor := asked
      rw [here] at isShown
      exact .inl isShown

/-- All pages are in the state when there is no next cursor. -/
structure Collected (activities : List ActivityRecord) (events : List ContractEvent)
    (accountId : String) (pageSize : Nat) (state : HistoryState) : Prop where
  ids : (state.items.map Transaction.id).Nodup
  ordered : state.items.Pairwise NewestFirst
  members : ∀ tx, tx ∈ state.items ↔ IsShown activities events accountId pageSize tx

theorem loadAll_collected
    (viewed : Viewed codec activities events accountId pageSize depth page state)
    (loaded : loadAll (createIndexerActivityAdapter codec activities events accountId pageSize)
      fuel state = some last) :
    Collected activities events accountId pageSize last := by
  induction fuel generalizing depth page state with
  | zero => cases loaded
  | succ fuel inductionHypothesis =>
    rw [loadAll, viewed.next] at loaded
    cases isNext : page.next with
    | none =>
      rw [isNext, Option.map_none, if_pos rfl] at loaded
      cases loaded
      refine ⟨viewed.ids, viewed.ordered, fun tx => (viewed.members tx).trans ?_⟩
      constructor
      · rintro ⟨earlier, _, isShown⟩
        exact ⟨earlier, isShown⟩
      · rintro ⟨other, isPage, isShown⟩
        refine ⟨other, ?_, isPage, isShown⟩
        by_contra deeper
        obtain ⟨reached, there⟩ := Option.isSome_iff_exists.mp isPage
        obtain ⟨next, _, some, _⟩ := askedWith_le distinct.rowPositions (activityLimit_pos _)
          viewed.here (not_le.mp deeper) there
        cases isNext.symm.trans some
    | some cursor =>
      obtain ⟨next, more, further⟩ := viewed_loadMore faithful written distinct viewed isNext
      rw [isNext, Option.map_some, if_neg (Option.some_ne_none _), more] at loaded
      exact inductionHypothesis further loaded

theorem loadAll_ends
    (viewed : Viewed codec activities events accountId pageSize depth page state)
    (enough : (activityRows activities accountId).length < depth + fuel) :
    (loadAll (createIndexerActivityAdapter codec activities events accountId pageSize)
      fuel state).isSome := by
  induction fuel generalizing depth page state with
  | zero =>
    have here := viewed.here
    rw [activityAt, pageAt_spec distinct.rowPositions (activityLimit_pos _)] at here
    obtain ⟨reached, _⟩ := Option.ite_none_right_eq_some.mp here
    have far : depth ≤ depth * activityLimit pageSize :=
      Nat.le_mul_of_pos_right depth (activityLimit_pos _)
    omega
  | succ fuel inductionHypothesis =>
    rw [loadAll, viewed.next]
    cases isNext : page.next with
    | none => simp
    | some cursor =>
      obtain ⟨next, more, further⟩ := viewed_loadMore faithful written distinct viewed isNext
      rw [Option.map_some, if_neg (Option.some_ne_none _), more]
      exact inductionHypothesis further (by omega)

theorem wholeHistory_collected
    (ran : wholeHistory (createIndexerActivityAdapter codec activities events accountId pageSize)
      fuel = some last) :
    Collected activities events accountId pageSize last := by
  obtain ⟨first, fetched, viewed⟩ :=
    @viewed_initial codec activities events accountId pageSize faithful written distinct
  rw [wholeHistory, fetched, Option.bind_eq_bind, Option.bind_some] at ran
  exact loadAll_collected faithful written distinct viewed ran

theorem wholeHistory_ends :
    ∃ fuel, (wholeHistory (createIndexerActivityAdapter codec activities events accountId pageSize)
      fuel).isSome := by
  obtain ⟨first, fetched, viewed⟩ :=
    @viewed_initial codec activities events accountId pageSize faithful written distinct
  refine ⟨(activityRows activities accountId).length + 1, ?_⟩
  rw [wholeHistory, fetched, Option.bind_eq_bind, Option.bind_some]
  exact loadAll_ends faithful written distinct viewed (by omega)

omit faithful written in
theorem Collected.complete_iff
    (collected : Collected activities events accountId pageSize last) (positive : 0 < pageSize) :
    last.items.Perm (allTransactions activities events accountId) ↔
      ∀ depth, Fits activities events accountId pageSize depth := by
  have known : ∀ tx, IsShown activities events accountId pageSize tx →
      tx ∈ allTransactions activities events accountId := by
    rintro tx ⟨_, _, isShown⟩
    exact distinct.shown_subset isShown
  rw [List.perm_ext_iff_of_nodup (.of_map _ collected.ids) (.of_map _ distinct.all)]
  simp only [collected.members]
  constructor
  · exact fun complete => distinct.fits_of_shown positive fun tx isTx => (complete tx).mpr isTx
  · exact fun fits tx => ⟨known tx, distinct.shown_of_fits positive fits⟩

end Run

/-- The history of an account is read to its end, and it is all of it, newest first, exactly where
each activity page fits together with the events beside it. -/
theorem history_complete_iff (codec : CursorCodec)
    (faithful : ∀ position, codec.decode (codec.encode position) = .ok position)
    (written : ∀ position, codec.encode position ≠ "") (activities : List ActivityRecord)
    (events : List ContractEvent) (distinct : DistinctRecords activities events)
    (accountId : String) (pageSize : Nat) (positive : 0 < pageSize) :
    (∃ fuel, (wholeHistory
      (createIndexerActivityAdapter codec activities events accountId pageSize) fuel).isSome) ∧
    ∀ fuel state, wholeHistory (createIndexerActivityAdapter codec activities events accountId
        pageSize) fuel = some state →
      (state.items.Perm (allTransactions activities events accountId) ∧
          state.items.Pairwise NewestFirst ↔
        ∀ depth, Fits activities events accountId pageSize depth) := by
  refine ⟨wholeHistory_ends faithful written distinct, fun fuel state ran => ?_⟩
  have collected := wholeHistory_collected faithful written distinct ran
  rw [collected.complete_iff distinct positive]
  exact and_iff_left collected.ordered

theorem decimalCodec_written (position : Position) : decimalCodec.encode position ≠ "" :=
  Nat.repr_ne_empty

/-- An execution event of the account `GA`. -/
def sampleEvent (id : Nat) (timestamp : Timestamp) : ContractEvent where
  id := id
  contractAddress := "CA"
  accountId := "GA"
  eventType := "executed"
  ledgerSeq := 5
  timestamp := timestamp
  txHash := "7f"
  data := "null"

/-- Two payments and an event fit a page of three. -/
theorem history_complete_of_sample :
    ∃ fuel state, wholeHistory (createIndexerActivityAdapter decimalCodec
        [sampleActivity 1 9000, sampleActivity 2 5000] [sampleEvent 3 7000] "GA" 3) fuel =
          some state ∧
      state.items.Perm (allTransactions [sampleActivity 1 9000, sampleActivity 2 5000]
        [sampleEvent 3 7000] "GA") := by
  obtain ⟨⟨fuel, ends⟩, complete⟩ := history_complete_iff decimalCodec decimalCodec_faithful
    decimalCodec_written [sampleActivity 1 9000, sampleActivity 2 5000] [sampleEvent 3 7000]
    (by decide) "GA" 3 (by decide)
  obtain ⟨state, ran⟩ := Option.isSome_iff_exists.mp ends
  refine ⟨fuel, state, ran, ((complete fuel state ran).mpr fun depth page here => ?_).1⟩
  cases depth with
  | zero =>
    cases here
    decide +kernel
  | succ depth =>
    have rows : ((activityRows [sampleActivity 1 9000, sampleActivity 2 5000] "GA").map
        ActivityRecord.position).Nodup := by decide +kernel
    rw [activityAt, pageAt_spec rows (by decide)] at here
    obtain ⟨reached, _⟩ := Option.ite_none_right_eq_some.mp here
    have short :
        (activityRows [sampleActivity 1 9000, sampleActivity 2 5000] "GA").length = 2 := rfl
    have limit : activityLimit 3 = 3 := rfl
    rw [short, limit] at reached
    omega

/-- An older event is lost behind a page full of payments. -/
theorem history_loses_events :
    ¬ ∀ fuel state, wholeHistory (createIndexerActivityAdapter decimalCodec [sampleActivity 1 9000]
        [sampleEvent 3 7000] "GA" 1) fuel = some state →
      state.items.Perm (allTransactions [sampleActivity 1 9000] [sampleEvent 3 7000] "GA") := by
  intro complete
  have distinct : DistinctRecords [sampleActivity 1 9000] [sampleEvent 3 7000] := by decide
  obtain ⟨fuel, ends⟩ := @wholeHistory_ends decimalCodec _ _ "GA" 1 decimalCodec_faithful
    decimalCodec_written distinct
  obtain ⟨state, ran⟩ := Option.isSome_iff_exists.mp ends
  have collected :=
    wholeHistory_collected decimalCodec_faithful decimalCodec_written distinct ran
  have fits := (collected.complete_iff distinct (by decide)).mp (complete fuel state ran) 0 _ rfl
  exact absurd fits (by decide +kernel)

end Ancore.Mobile
