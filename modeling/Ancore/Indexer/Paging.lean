import Ancore.Indexer.Activity

/-! # Paging forward through account activity

A reader that follows `next_cursor` until there is no next page.  Every page is cut
from the rows behind the cursor in the order of `(created_at, id)`, and the cursor
is the position of the last row kept; ids are unique, so a page never ends between
two rows of one position, and rows that come in meanwhile do not shift the others.
-/

namespace Ancore.Indexer

section Query

variable {codec : CursorCodec} {table : List ActivityRecord} {accountId : String}
  {filter : ActivityFilter} {limit : Nat} {cursor : Option Position} {row : ActivityRecord}

/-- The row belongs to the answer, wherever the page begins. -/
abbrev Matches (accountId : String) (filter : ActivityFilter) (row : ActivityRecord) : Prop :=
  selects accountId filter none none row

/-- The row comes after the cursor, if there is one. -/
abbrev Beyond (cursor : Option Position) (row : ActivityRecord) : Prop :=
  ∀ position ∈ cursor, row.position < position

theorem selects_after_iff :
    selects accountId filter cursor none row ↔
      Matches accountId filter row ∧ Beyond cursor row := by
  cases cursor with
  | none => simp [Beyond]
  | some position =>
    simp only [selects, selectsRange, Beyond, Option.mem_some_iff, forall_eq', true_and]
    constructor
    · rintro ⟨texts, before, range⟩
      exact ⟨⟨texts, range⟩, before⟩
    · rintro ⟨⟨texts, range⟩, before⟩
      exact ⟨texts, before, range⟩

theorem mem_selected :
    row ∈ selected table accountId filter cursor none ↔
      row ∈ table ∧ Matches accountId filter row ∧ Beyond cursor row := by
  rw [selected, List.mem_insertionSort, List.mem_filter, decide_eq_true_iff, selects_after_iff]

/-- Ids are unique. -/
abbrev DistinctIds (table : List ActivityRecord) : Prop := (table.map ActivityRecord.id).Nodup

theorem selected_descending (distinct : DistinctIds table) :
    (selected table accountId filter cursor none).Pairwise fun one other =>
      other.position < one.position := by
  have total : Std.Total fun one other : ActivityRecord => other.position ≤ one.position :=
    ⟨fun one other => le_total other.position one.position⟩
  have transitive : IsTrans ActivityRecord fun one other => other.position ≤ one.position :=
    ⟨fun one other third first second => second.trans first⟩
  have inOrder : (selected table accountId filter cursor none).Pairwise fun one other =>
      other.position ≤ one.position :=
    List.pairwise_insertionSort _ _
  have ids : (selected table accountId filter cursor none).Pairwise fun one other =>
      one.id ≠ other.id := by
    have filtered := distinct.sublist ((List.filter_sublist (p := fun row =>
      decide (selects accountId filter cursor none row))).map ActivityRecord.id)
    have sorted := ((List.perm_insertionSort (fun one other : ActivityRecord =>
      other.position ≤ one.position) _).map ActivityRecord.id).nodup_iff.mpr filtered
    exact List.pairwise_map.mp sorted
  refine inOrder.imp₂ ?_ ids
  intro one other notAfter different
  refine lt_of_le_of_ne notAfter fun same => different ?_
  exact (congrArg Prod.snd (congrArg ofLex same)).symm

variable (codec table accountId filter limit) in
/-- What a page holds. -/
theorem queryActivity_spec (after before : Option Position) :
    (queryActivity codec table accountId filter limit after before).items =
        (selected table accountId filter after before).take limit ∧
      (queryActivity codec table accountId filter limit after before).hasNextPage =
        decide (limit < (selected table accountId filter after before).length) ∧
      (limit < (selected table accountId filter after before).length →
        (queryActivity codec table accountId filter limit after before).nextCursor =
          ((selected table accountId filter after before).take limit).getLast?.map fun item =>
            codec.encode item.position) := by
  generalize rows : selected table accountId filter after before = sorted
  have enough : limit < (sorted.take (limit + 1)).length ↔ limit < sorted.length := by
    rw [List.length_take]
    omega
  have page : (sorted.take (limit + 1)).take limit = sorted.take limit := by
    rw [List.take_take, min_eq_left (Nat.le_succ limit)]
  simp only [queryActivity, rows, enough, page]
  by_cases more : limit < sorted.length
  · simp [more]
  · have all : sorted.take (limit + 1) = sorted.take limit := by
      rw [List.take_of_length_le (by omega), List.take_of_length_le (by omega)]
    simp [more, all]

/-- A request that follows a cursor. -/
theorem getAccountActivity_forward {size : Option Nat}
    (faithful : ∀ position, codec.decode (codec.encode position) = .ok position) :
    getAccountActivity codec table accountId filter ⟨cursor.map codec.encode, none, size⟩ =
      .ok (queryActivity codec table accountId filter
        (effectiveLimit ⟨cursor.map codec.encode, none, size⟩) cursor none) := by
  cases cursor with
  | none => rfl
  | some position =>
    simp [getAccountActivity, validated, decodeCursor, faithful, bind, Except.bind, pure,
      Except.pure, Except.map]

theorem effectiveLimit_pos (page : CursorPage) : 0 < effectiveLimit page :=
  lt_of_lt_of_le Nat.one_pos (le_max_left _ _)

end Query

/-- Follow `next_cursor` until there is no next page.  Every request has a table of its own, since
rows may come in between two of them. -/
def forwardPages (codec : CursorCodec) (accountId : String) (filter : ActivityFilter)
    (size : Option Nat) (tables : Nat → List ActivityRecord) :
    Nat → Nat → Option String → Option (List ActivityRecord)
  | 0, _, _ => none
  | fuel + 1, request, after =>
    match getAccountActivity codec (tables request) accountId filter ⟨after, none, size⟩ with
    | .error _ => none
    | .ok page =>
      if page.hasNextPage then
        (forwardPages codec accountId filter size tables fuel (request + 1) page.nextCursor).map
          (page.items ++ ·)
      else some page.items

/-- What a traversal from a cursor on has returned. -/
structure Traversed (accountId : String) (filter : ActivityFilter)
    (tables : Nat → List ActivityRecord) (cursor : Option Position)
    (visited : List ActivityRecord) : Prop where
  descending : visited.Pairwise fun one other => other.position < one.position
  sound : ∀ row ∈ visited,
    Matches accountId filter row ∧ Beyond cursor row ∧ ∃ request, row ∈ tables request
  complete : ∀ row, (∀ request, row ∈ tables request) → Matches accountId filter row →
    Beyond cursor row → row ∈ visited

/-- The last row of a page lies between the page and the rows after it. -/
theorem page_last {rows : List ActivityRecord} {limit : Nat} (positive : 0 < limit)
    (more : limit < rows.length)
    (descending : rows.Pairwise fun one other => other.position < one.position) :
    ∃ last ∈ rows.take limit, (rows.take limit).getLast? = some last ∧
      (∀ row ∈ rows.take limit, last.position ≤ row.position) ∧
      ∀ row ∈ rows.drop limit, row.position < last.position := by
  have nonempty : rows.take limit ≠ [] := by
    apply List.ne_nil_of_length_pos
    rw [List.length_take]
    omega
  have isLast := List.getLast?_eq_some_getLast nonempty
  generalize (rows.take limit).getLast nonempty = last at isLast
  have inPage : last ∈ rows.take limit := List.mem_of_getLast? isLast
  obtain ⟨front, page⟩ := List.getLast?_eq_some_iff.mp isLast
  rw [← List.take_append_drop limit rows, List.pairwise_append] at descending
  obtain ⟨pageDescending, _, pageFirst⟩ := descending
  refine ⟨last, inPage, isLast, ?_, pageFirst last inPage⟩
  intro row member
  rw [page] at pageDescending member
  rcases List.mem_append.mp member with earlier | isRow
  · exact ((List.pairwise_append.mp pageDescending).2.2 row earlier last (by simp)).le
  · exact (congrArg ActivityRecord.position (List.mem_singleton.mp isRow)).ge

theorem nodup_of_descending {visited : List ActivityRecord}
    (descending : visited.Pairwise fun one other => other.position < one.position) :
    visited.Nodup :=
  descending.imp fun before same => (same ▸ before).false

/-- What comes after the last row of a page is among the rows that the page left out. -/
theorem length_selected_behind {table : List ActivityRecord} {accountId : String}
    {filter : ActivityFilter} {cursor : Option Position} {limit : Nat} {last : ActivityRecord}
    (distinct : DistinctIds table)
    (inPage : last ∈ (selected table accountId filter cursor none).take limit)
    (lowest : ∀ row ∈ (selected table accountId filter cursor none).take limit,
      last.position ≤ row.position) :
    (selected table accountId filter (some last.position) none).length ≤
      (selected table accountId filter cursor none).length - limit := by
  have nodup : (selected table accountId filter (some last.position) none).Nodup :=
    nodup_of_descending (selected_descending distinct)
  rw [← List.length_drop]
  apply (List.subperm_of_subset nodup _).length_le
  intro row member
  obtain ⟨inTable, isMatch, behindLast⟩ := mem_selected.mp member
  obtain ⟨_, _, lastBeyond⟩ := mem_selected.mp (List.mem_of_mem_take inPage)
  have selectedRow : row ∈ selected table accountId filter cursor none :=
    mem_selected.mpr ⟨inTable, isMatch, fun position isCursor =>
      (behindLast _ rfl).trans (lastBeyond position isCursor)⟩
  rw [← List.take_append_drop limit (selected table accountId filter cursor none)] at selectedRow
  rcases List.mem_append.mp selectedRow with here | later
  · exact absurd (behindLast _ rfl) (not_lt.mpr (lowest row here))
  · exact later

section Traverse

variable {codec : CursorCodec} {accountId : String} {filter : ActivityFilter} {size : Option Nat}
  {tables : Nat → List ActivityRecord} {visited : List ActivityRecord}
  (faithful : ∀ position, codec.decode (codec.encode position) = .ok position)

include faithful

variable (accountId filter size tables) in
/-- One request of a traversal, and the requests that follow it. -/
theorem forwardPages_succ (request : Nat) (cursor : Option Position) :
    ∃ limit, 0 < limit ∧ ∀ fuel,
      forwardPages codec accountId filter size tables (fuel + 1) request
          (cursor.map codec.encode) =
        let rows := selected (tables request) accountId filter cursor none
        if limit < rows.length then
          (forwardPages codec accountId filter size tables fuel (request + 1)
            (((rows.take limit).getLast?.map ActivityRecord.position).map codec.encode)).map
              (rows.take limit ++ ·)
        else some rows := by
  generalize isLimit : effectiveLimit ⟨cursor.map codec.encode, none, size⟩ = limit
  have positive : 0 < limit := isLimit ▸ effectiveLimit_pos _
  obtain ⟨items, hasNextPage, nextCursor⟩ :=
    queryActivity_spec codec (tables request) accountId filter limit cursor none
  refine ⟨limit, positive, fun fuel => ?_⟩
  rw [forwardPages, getAccountActivity_forward faithful, isLimit]
  dsimp only
  rw [items, hasNextPage]
  by_cases more : limit < (selected (tables request) accountId filter cursor none).length
  · simp only [more, decide_true, if_true]
    rw [nextCursor more, Option.map_map]
    rfl
  · simp only [more, decide_false, if_false, Bool.false_eq_true]
    rw [List.take_of_length_le (by omega)]

/-- A traversal that ends has returned the rows behind its cursor. -/
theorem traversed_of_forwardPages (distinct : ∀ request, DistinctIds (tables request))
    {fuel request : Nat} {cursor : Option Position}
    (ends : forwardPages codec accountId filter size tables fuel request
      (cursor.map codec.encode) = some visited) :
    Traversed accountId filter tables cursor visited := by
  induction fuel generalizing request cursor visited with
  | zero => cases ends
  | succ fuel inductionHypothesis =>
    obtain ⟨limit, positive, step⟩ :=
      forwardPages_succ accountId filter size tables faithful request cursor
    rw [step] at ends
    have descending : (selected (tables request) accountId filter cursor none).Pairwise
        fun one other => other.position < one.position :=
      selected_descending (distinct request)
    have members : ∀ row, row ∈ selected (tables request) accountId filter cursor none ↔
        row ∈ tables request ∧ Matches accountId filter row ∧ Beyond cursor row :=
      fun _ => mem_selected
    generalize selected (tables request) accountId filter cursor none = rows at *
    by_cases more : limit < rows.length
    · obtain ⟨last, inPage, isLast, lowest, rest⟩ := page_last positive more descending
      have pageDescending := descending.sublist (List.take_sublist limit rows)
      simp only [more, if_true, isLast, Option.map_some, Option.map_eq_some_iff] at ends
      obtain ⟨later, follows, rfl⟩ := ends
      obtain ⟨restDescending, restSound, restComplete⟩ :=
        @inductionHypothesis later (request + 1) (some last.position) follows
      refine ⟨?_, ?_, ?_⟩
      · refine List.pairwise_append.mpr ⟨pageDescending, restDescending, ?_⟩
        intro row member other otherMember
        exact ((restSound other otherMember).2.1 _ rfl).trans_le (lowest row member)
      · intro row member
        rcases List.mem_append.mp member with here | later
        · obtain ⟨inTable, isMatch, beyond⟩ := (members row).mp (List.mem_of_mem_take here)
          exact ⟨isMatch, beyond, request, inTable⟩
        · obtain ⟨isMatch, behindLast, inTable⟩ := restSound row later
          obtain ⟨_, _, lastBeyond⟩ := (members last).mp (List.mem_of_mem_take inPage)
          exact ⟨isMatch, fun position isCursor =>
            (behindLast _ rfl).trans (lastBeyond position isCursor), inTable⟩
      · intro row present isMatch beyond
        have member := (members row).mpr ⟨present request, isMatch, beyond⟩
        rw [← List.take_append_drop limit rows] at member
        rcases List.mem_append.mp member with here | later
        · exact List.mem_append_left _ here
        · apply List.mem_append_right
          apply restComplete row present isMatch
          rintro position ⟨⟩
          exact rest row later
    · simp only [more, if_false, Option.some.injEq] at ends
      subst ends
      refine ⟨descending, ?_, ?_⟩
      · intro row member
        obtain ⟨inTable, isMatch, beyond⟩ := (members row).mp member
        exact ⟨isMatch, beyond, request, inTable⟩
      · intro row present isMatch beyond
        exact (members row).mpr ⟨present request, isMatch, beyond⟩

variable (size) in
/-- Over a table that does not change a traversal ends. -/
theorem forwardPages_ends {table : List ActivityRecord} (distinct : DistinctIds table)
    {fuel : Nat} (request : Nat) (settled : ∀ later, request ≤ later → tables later = table)
    {cursor : Option Position}
    (enough : (selected table accountId filter cursor none).length < fuel) :
    ∃ visited, forwardPages codec accountId filter size tables fuel request
      (cursor.map codec.encode) = some visited := by
  induction fuel generalizing request cursor with
  | zero => omega
  | succ fuel inductionHypothesis =>
    obtain ⟨limit, positive, step⟩ :=
      forwardPages_succ accountId filter size tables faithful request cursor
    rw [step, settled request le_rfl]
    by_cases more : limit < (selected table accountId filter cursor none).length
    · obtain ⟨last, inPage, isLast, lowest, _⟩ :=
        page_last positive more (selected_descending distinct)
      have fewer := length_selected_behind distinct inPage lowest
      have stillSettled : ∀ later, request + 1 ≤ later → tables later = table :=
        fun later after => settled later (Nat.le_of_succ_le after)
      obtain ⟨later, follows⟩ :=
        @inductionHypothesis (request + 1) stillSettled (some last.position) (by omega)
      rw [Option.map_some] at follows
      exact ⟨(selected table accountId filter cursor none).take limit ++ later,
        by simp [more, isLast, follows]⟩
    · exact ⟨selected table accountId filter cursor none, by simp [more]⟩

variable (size) in
/-- A traversal ends once no more rows come in; the induction is on the requests until then. -/
theorem forwardPages_ends_of_settled {table : List ActivityRecord} (distinct : DistinctIds table)
    {last : Nat} (settled : ∀ later, last ≤ later → tables later = table) (request : Nat)
    (cursor : Option Position) :
    ∃ fuel visited, forwardPages codec accountId filter size tables fuel request
      (cursor.map codec.encode) = some visited := by
  induction pending : last - request generalizing request cursor with
  | zero =>
    have now : ∀ later, request ≤ later → tables later = table :=
      fun later after => settled later (by omega)
    exact ⟨_, forwardPages_ends size faithful distinct request now (Nat.lt_succ_self _)⟩
  | succ pending inductionHypothesis =>
    obtain ⟨limit, _, step⟩ :=
      forwardPages_succ accountId filter size tables faithful request cursor
    obtain ⟨fuel, later, follows⟩ := inductionHypothesis (request + 1)
      (((selected (tables request) accountId filter cursor none).take limit).getLast?.map
        ActivityRecord.position) (by omega)
    refine ⟨fuel + 1, ?_⟩
    rw [step]
    dsimp only
    rw [follows]
    split
    · exact ⟨_, rfl⟩
    · exact ⟨_, rfl⟩

end Traverse

/-- A faithful coding of positions as decimal numbers. -/
def decimalCodec : CursorCodec where
  encode position := (Nat.pair (Equiv.intEquivNat (ofLex position).1) (ofLex position).2).repr
  decode cursor :=
    match cursor.toNat? with
    | some code =>
      .ok (toLex (Equiv.intEquivNat.symm (Nat.unpair code).1, (Nat.unpair code).2))
    | none => .error (.invalidCursor "Invalid JSON structure in cursor")

theorem decimalCodec_faithful (position : Position) :
    decimalCodec.decode (decimalCodec.encode position) = .ok position := by
  simp [decimalCodec]

/-- A payment of the account `GA`. -/
def sampleActivity (id : Nat) (createdAt : Timestamp) : ActivityRecord where
  id := id
  accountId := "GA"
  activityType := "payment"
  amount := none
  asset := some "native"
  assetCode := some "XLM"
  assetIssuer := none
  counterparty := none
  txHash := "7f"
  ledgerSeq := 5
  createdAt := createdAt
  metadata := none

/-- The default filter. -/
def noFilter : ActivityFilter :=
  ⟨none, none, none, none, none, none, none, none⟩

end Ancore.Indexer
