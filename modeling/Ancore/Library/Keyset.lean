import Mathlib

/-! # Pages of a table, cut at a key

A table is read in descending order of a key, a page at a time.  A page ends where
its last row stands, and the next one is asked for by that row's key (`pageAt`);
the same query with the comparison turned round looks above a key instead.
`pageAt_spec` says which rows a page holds, however deep it lies.
-/

namespace Ancore.Library

variable {ρ κ : Type} [LinearOrder κ] (key : ρ → κ)

/-- Below one cursor or, without it, above the other. -/
def Within (after before : Option κ) (position : κ) : Prop :=
  match after, before with
  | some cursor, _ => position < cursor
  | none, some cursor => cursor < position
  | none, none => True

instance (after before : Option κ) : DecidablePred (Within after before) := fun position => by
  unfold Within
  cases after <;> cases before <;> infer_instance

/-- The rows, highest key first. -/
def descending (rows : List ρ) : List ρ :=
  rows.insertionSort fun one other => key other ≤ key one

/-- The rows of a page and the cursors to go on from. -/
structure KeysetPage (ρ κ : Type) where
  items : List ρ
  next : Option κ
  previous : Option κ

/-- One row more than the page holds is read, to see whether there is a next page. -/
def keysetPage (limit : Nat) (rows : List ρ) (after before : Option κ) : KeysetPage ρ κ :=
  let read := (descending key (rows.filter fun row => Within after before (key row))).take
    (limit + 1)
  { items := read.take limit
    next := if limit < read.length then (read.take limit).getLast?.map key else none
    previous := if after.isSome then (read.take limit).head?.map key else none }

/-- The page reached by following the next cursor so many times. -/
def pageAt (limit : Nat) (rows : List ρ) : Nat → Option (KeysetPage ρ κ)
  | 0 => some (keysetPage key limit rows none none)
  | depth + 1 => do
    let page ← pageAt limit rows depth
    let cursor ← page.next
    some (keysetPage key limit rows (some cursor) none)

/-! ## Descending rows -/

section Descending

variable {key} {rows : List ρ}

theorem mem_descending {row : ρ} : row ∈ descending key rows ↔ row ∈ rows :=
  List.mem_insertionSort _

theorem descending_perm : (descending key rows).Perm rows := List.perm_insertionSort _ _

theorem length_descending : (descending key rows).length = rows.length :=
  List.length_insertionSort _ _

theorem descending_strictly (distinct : (rows.map key).Nodup) :
    (descending key rows).Pairwise fun one other => key other < key one := by
  have total : Std.Total fun one other : ρ => key other ≤ key one :=
    ⟨fun one other => le_total (key other) (key one)⟩
  have transitive : IsTrans ρ fun one other => key other ≤ key one :=
    ⟨fun one other third first second => second.trans first⟩
  have inOrder : (descending key rows).Pairwise fun one other => key other ≤ key one :=
    List.pairwise_insertionSort _ _
  have different : (descending key rows).Pairwise fun one other => key one ≠ key other := by
    have permuted := (List.perm_insertionSort (fun one other => key other ≤ key one) rows).map key
    exact List.pairwise_map.mp (permuted.nodup_iff.mpr distinct)
  exact inOrder.imp₂ (fun _ _ notAbove apart => lt_of_le_of_ne notAbove (Ne.symm apart)) different

/-- Sorting a part of the rows keeps their order. -/
theorem descending_filter (distinct : (rows.map key).Nodup) (keeps : ρ → Bool) :
    descending key (rows.filter keeps) = (descending key rows).filter keeps := by
  have sub : ((rows.filter keeps).map key).Nodup := distinct.sublist (List.filter_sublist.map key)
  refine List.Perm.eq_of_pairwise (fun one other _ _ above below => ?_) (descending_strictly sub)
    ((descending_strictly distinct).filter keeps) ?_
  · exact absurd above below.not_gt
  · exact (List.perm_insertionSort _ _).trans ((List.perm_insertionSort _ _).symm.filter keeps)

variable {sorted : List ρ}
  (strictly : sorted.Pairwise fun one other => key other < key one)

include strictly in
/-- Around a row lie those above it and those below it. -/
theorem filter_around {before after : List ρ} {row : ρ} (at_ : sorted = before ++ row :: after) :
    sorted.filter (fun other => key other < key row) = after ∧
      sorted.filter (fun other => key row < key other) = before := by
  subst at_
  obtain ⟨_, rest, above⟩ := List.pairwise_append.mp strictly
  obtain ⟨below, _⟩ := List.pairwise_cons.mp rest
  have higher : ∀ other ∈ before, key row < key other :=
    fun other member => above other member row List.mem_cons_self
  constructor
  · rw [List.filter_append, List.filter_cons, List.filter_eq_nil_iff.mpr, List.filter_eq_self.mpr]
    · simp
    · exact fun other member => decide_eq_true (below other member)
    · exact fun other member => by simpa using (higher other member).le
  · rw [List.filter_append, List.filter_cons, List.filter_eq_self.mpr, List.filter_eq_nil_iff.mpr]
    · simp
    · exact fun other member => by simpa using (below other member).le
    · exact fun other member => decide_eq_true (higher other member)

include strictly in
theorem pair_sublist_of_lt {one other : ρ} (isOne : one ∈ sorted) (isOther : other ∈ sorted)
    (below : key other < key one) : [one, other].Sublist sorted := by
  obtain ⟨before, after, at_⟩ := List.append_of_mem isOne
  have follows : other ∈ after := by
    rw [← (filter_around strictly at_).1]
    exact List.mem_filter.mpr ⟨isOther, decide_eq_true below⟩
  rw [at_]
  exact (List.singleton_sublist.mpr follows).cons_cons one |>.trans (List.sublist_append_right _ _)

include strictly in
theorem filter_below {place : Nat} {row : ρ} (found : sorted[place]? = some row) :
    sorted.filter (fun other => key other < key row) = sorted.drop (place + 1) := by
  obtain ⟨inside, rfl⟩ := List.getElem?_eq_some_iff.mp found
  have at_ : sorted = sorted.take place ++ sorted[place] :: sorted.drop (place + 1) := by simp
  exact (filter_around strictly at_).1

include strictly in
theorem filter_above {place : Nat} {row : ρ} (found : sorted[place]? = some row) :
    sorted.filter (fun other => key row < key other) = sorted.take place := by
  obtain ⟨inside, rfl⟩ := List.getElem?_eq_some_iff.mp found
  have at_ : sorted = sorted.take place ++ sorted[place] :: sorted.drop (place + 1) := by simp
  exact (filter_around strictly at_).2

end Descending

/-! ## Pages by their depth -/

section Pages

variable {key} {limit : Nat} {rows : List ρ}

/-- What a page holds of the rows its cursors let through. -/
theorem keysetPage_of_found {after before : Option κ} {found : List ρ}
    (isFound : descending key (rows.filter fun row => Within after before (key row)) = found) :
    keysetPage key limit rows after before =
      { items := found.take limit
        next := if limit < found.length then (found.take limit).getLast?.map key else none
        previous := if after.isSome then (found.take limit).head?.map key else none } := by
  have enough : limit < (found.take (limit + 1)).length ↔ limit < found.length := by
    rw [List.length_take]
    omega
  have page : (found.take (limit + 1)).take limit = found.take limit := by
    rw [List.take_take, min_eq_left (Nat.le_succ limit)]
  simp only [keysetPage, isFound, enough, page]

variable (distinct : (rows.map key).Nodup)

include distinct

/-- The page below the row at a place. -/
theorem keysetPage_below {place : Nat} {row : ρ}
    (found : (descending key rows)[place]? = some row) :
    keysetPage key limit rows (some (key row)) none =
      { items := ((descending key rows).drop (place + 1)).take limit
        next := if limit < ((descending key rows).drop (place + 1)).length then
          (((descending key rows).drop (place + 1)).take limit).getLast?.map key else none
        previous := (((descending key rows).drop (place + 1)).take limit).head?.map key } := by
  refine keysetPage_of_found ?_
  rw [descending_filter distinct]
  exact filter_below (descending_strictly distinct) found

/-- The page above the row at a place is cut from the highest rows of all. -/
theorem keysetPage_above {place : Nat} {row : ρ}
    (found : (descending key rows)[place]? = some row) :
    (keysetPage key limit rows none (some (key row))).items =
      ((descending key rows).take place).take limit := by
  have isFound : descending key (rows.filter fun other => Within none (some (key row)) (key other))
      = (descending key rows).take place := by
    rw [descending_filter distinct]
    exact filter_above (descending_strictly distinct) found
  rw [keysetPage_of_found isFound]

omit [LinearOrder κ] distinct in
/-- The last row of a full page. -/
theorem getLast?_page (sorted : List ρ) (start : Nat) (positive : 0 < limit)
    (full : start + limit ≤ sorted.length) :
    ((sorted.drop start).take limit).getLast? = sorted[start + limit - 1]? := by
  have length : ((sorted.drop start).take limit).length = limit := by
    rw [List.length_take, List.length_drop]
    omega
  rw [List.getLast?_eq_getElem?, length, List.getElem?_take_of_lt (by omega), List.getElem?_drop]
  congr 1
  omega

omit [LinearOrder κ] distinct in
theorem head?_page {sorted : List ρ} (positive : 0 < limit) {start : Nat} :
    ((sorted.drop start).take limit).head? = sorted[start]? := by
  rw [List.head?_take, if_neg positive.ne', List.head?_drop]

/-- The rows of a page: those before it fill whole pages. -/
theorem pageAt_spec (positive : 0 < limit) (depth : Nat) :
    pageAt key limit rows depth =
      if depth = 0 ∨ depth * limit < rows.length then
        some {
          items := ((descending key rows).drop (depth * limit)).take limit
          next := if (depth + 1) * limit < rows.length then
            (descending key rows)[(depth + 1) * limit - 1]?.map key else none
          previous := if depth = 0 then none else (descending key rows)[depth * limit]?.map key }
      else none := by
  have length : (descending key rows).length = rows.length := length_descending
  induction depth with
  | zero =>
    have isFound : descending key (rows.filter fun row => Within none none (key row)) =
        descending key rows := by
      rw [List.filter_eq_self.mpr fun row _ => decide_eq_true (p := Within none none (key row))
        trivial]
    simp only [pageAt, keysetPage_of_found isFound, true_or, if_true, Nat.zero_mul, List.drop_zero,
      Nat.zero_add, Nat.one_mul, length]
    congr 2
    by_cases more : limit < rows.length
    · have last := getLast?_page (descending key rows) 0 positive (by omega)
      simp only [List.drop_zero, Nat.zero_add] at last
      rw [if_pos more, if_pos more, last]
    · rw [if_neg more, if_neg more]
  | succ depth inductionHypothesis =>
    have apart : (depth + 1 + 1) * limit = (depth + 1) * limit + limit := by ring
    have room : depth * limit + limit = (depth + 1) * limit := by ring
    rw [pageAt, inductionHypothesis]
    by_cases more : (depth + 1) * limit < rows.length
    · have reached : depth = 0 ∨ depth * limit < rows.length := .inr (by omega)
      have inside : (depth + 1) * limit - 1 < (descending key rows).length := by omega
      have found := List.getElem?_eq_getElem inside
      have place : (depth + 1) * limit - 1 + 1 = (depth + 1) * limit := by omega
      simp only [reached, if_true, more, Option.bind_eq_bind, Option.bind_some, found,
        Option.map_some, or_true, keysetPage_below distinct found, place, List.length_drop, length,
        head?_page positive, Nat.succ_ne_zero, if_false, Option.some.injEq]
      congr 1
      by_cases further : (depth + 1 + 1) * limit < rows.length
      · rw [if_pos (by omega), if_pos further, getLast?_page _ _ positive (by omega), apart]
      · rw [if_neg (by omega), if_neg further]
    · have none : ¬ (depth + 1 = 0 ∨ (depth + 1) * limit < rows.length) := by
        simp only [Nat.succ_ne_zero, false_or]
        exact more
      rw [if_neg none]
      by_cases reached : depth = 0 ∨ depth * limit < rows.length
      · simp [reached, more]
      · simp [reached]

/-- Asking above the first row of the next page gives the page back exactly where that page is the
first one. -/
theorem back_iff (positive : 0 < limit) {depth : Nat} {page onward : KeysetPage ρ κ}
    (here : pageAt key limit rows depth = some page)
    (follows : pageAt key limit rows (depth + 1) = some onward) :
    (keysetPage key limit rows none onward.previous).items = page.items ↔ depth = 0 := by
  rw [pageAt_spec distinct positive] at here follows
  obtain ⟨_, isPage⟩ := Option.ite_none_right_eq_some.mp here
  obtain ⟨reached, isOnward⟩ := Option.ite_none_right_eq_some.mp follows
  cases isPage
  cases isOnward
  have more : (depth + 1) * limit < (descending key rows).length := by
    rw [length_descending]
    exact reached.resolve_left (Nat.succ_ne_zero depth)
  have whole : limit ≤ (depth + 1) * limit := Nat.le_mul_of_pos_left limit (Nat.succ_pos depth)
  have earlier : depth * limit < (descending key rows).length := by
    have room : (depth + 1) * limit = depth * limit + limit := by ring
    omega
  have found := List.getElem?_eq_getElem more
  simp only [Nat.succ_ne_zero, if_false, found, Option.map_some, keysetPage_above distinct found,
    List.take_take, min_eq_left whole]
  constructor
  · intro same
    -- the first rows of both pages are one row
    have heads : (descending key rows)[0]? = (descending key rows)[depth * limit]? := by
      have first := congrArg List.head? same
      rwa [List.head?_take, if_neg positive.ne', head?_page positive,
        List.head?_eq_getElem?] at first
    have nodup : (descending key rows).Nodup :=
      (descending_strictly distinct).imp fun below same => below.ne (congrArg key same.symm)
    have places : 0 = depth * limit :=
      (List.getElem?_inj (by omega) nodup).mp heads
    exact (Nat.mul_eq_zero.mp places.symm).resolve_right positive.ne'
  · rintro rfl
    simp

end Pages

/-! ## The pages divide the keys -/

section Stretches

/-- The cursor that the page at a depth is asked for with. -/
def askedWith (limit : Nat) (rows : List ρ) : Nat → Option κ
  | 0 => none
  | depth + 1 => (pageAt key limit rows depth).bind KeysetPage.next

variable {key} {limit depth later : Nat} {rows : List ρ} {page : KeysetPage ρ κ} {row : ρ}
  {cursor : κ}

theorem pageAt_asked (here : pageAt key limit rows depth = some page) :
    page = keysetPage key limit rows (askedWith key limit rows depth) none := by
  cases depth with
  | zero => exact (Option.some.inj here).symm
  | succ depth =>
    rw [pageAt] at here
    simp only [Option.bind_eq_bind, Option.bind_eq_some_iff] at here
    obtain ⟨before, isBefore, asked, isAsked, isPage⟩ := here
    rw [askedWith, isBefore, Option.bind_some, isAsked]
    exact (Option.some.inj isPage).symm

theorem pageAt_succ (here : pageAt key limit rows depth = some page)
    (isNext : page.next = some cursor) :
    pageAt key limit rows (depth + 1) = some (keysetPage key limit rows (some cursor) none) ∧
      askedWith key limit rows (depth + 1) = some cursor := by
  simp [pageAt, askedWith, here, isNext]

theorem exists_pageAt (here : pageAt key limit rows (depth + 1) = some page) :
    ∃ before, pageAt key limit rows depth = some before ∧ ∃ cursor, before.next = some cursor := by
  rw [pageAt] at here
  simp only [Option.bind_eq_bind, Option.bind_eq_some_iff] at here
  obtain ⟨before, isBefore, asked, isAsked, _⟩ := here
  exact ⟨before, isBefore, asked, isAsked⟩

/-- The cursor a page returns stands on one of its rows. -/
theorem exists_of_next {after : Option κ}
    (isNext : (keysetPage key limit rows after none).next = some cursor) :
    ∃ row ∈ (keysetPage key limit rows after none).items, key row = cursor := by
  rw [keysetPage_of_found rfl] at isNext ⊢
  simp only at isNext ⊢
  split at isNext
  · obtain ⟨row, last, isKey⟩ := Option.map_eq_some_iff.mp isNext
    exact ⟨row, List.mem_of_getLast? last, isKey⟩
  · cases isNext

theorem length_keysetPage_le {after before : Option κ} :
    (keysetPage key limit rows after before).items.length ≤ limit :=
  List.length_take_le _ _

/-- Only a full page returns a cursor. -/
theorem length_of_next {after before : Option κ}
    (isNext : (keysetPage key limit rows after before).next = some cursor) :
    (keysetPage key limit rows after before).items.length = limit := by
  rw [keysetPage_of_found rfl] at isNext ⊢
  simp only at isNext ⊢
  split at isNext
  · rename_i more
    rw [List.length_take]
    omega
  · cases isNext

variable (distinct : (rows.map key).Nodup) (positive : 0 < limit)

include distinct positive

/-- A page holds the rows between the cursor it is asked for with and the one it returns. -/
theorem mem_keysetPage_iff {after : Option κ} :
    row ∈ (keysetPage key limit rows after none).items ↔
      row ∈ rows ∧ (∀ cursor ∈ after, key row < cursor) ∧
        ∀ cursor ∈ (keysetPage key limit rows after none).next, cursor ≤ key row := by
  have within : ∀ row, row ∈ descending key (rows.filter fun row => Within after none (key row)) ↔
      row ∈ rows ∧ ∀ cursor ∈ after, key row < cursor := by
    intro row
    rw [mem_descending, List.mem_filter, decide_eq_true_iff]
    cases after <;> simp [Within]
  have strictly : (descending key (rows.filter fun row => Within after none (key row))).Pairwise
      fun one other => key other < key one :=
    descending_strictly (distinct.sublist (List.filter_sublist.map key))
  rw [keysetPage_of_found rfl]
  generalize descending key (rows.filter fun row => Within after none (key row)) = found at *
  rw [← and_assoc, ← within]
  by_cases more : limit < found.length
  · have last := getLast?_page found 0 positive (by omega)
    rw [List.drop_zero, Nat.zero_add] at last
    have inside : limit - 1 < found.length := by omega
    simp only [more, if_true, last, List.getElem?_eq_getElem inside, Option.map_some,
      Option.mem_some_iff, forall_eq']
    constructor
    · intro member
      refine ⟨List.mem_of_mem_take member, ?_⟩
      obtain ⟨place, bound, rfl⟩ := List.mem_take_iff_getElem.mp member
      obtain earlier | rfl := (show place ≤ limit - 1 by omega).lt_or_eq
      · exact (List.pairwise_iff_getElem.mp strictly place (limit - 1) _ inside earlier).le
      · exact le_rfl
    · rintro ⟨member, above⟩
      obtain ⟨place, bound, rfl⟩ := List.mem_iff_getElem.mp member
      refine List.mem_take_iff_getElem.mpr ⟨place, ?_, rfl⟩
      by_contra far
      have below := List.pairwise_iff_getElem.mp strictly (limit - 1) place inside bound (by omega)
      exact absurd above below.not_ge
  · simp only [more, if_false, Option.not_mem_none, false_implies, implies_true, and_true]
    rw [List.take_of_length_le (by omega)]

omit positive in
/-- A page holds the rows below its cursor that have few others above them. -/
theorem mem_keysetPage_iff_few {after : Option κ} :
    row ∈ (keysetPage key limit rows after none).items ↔
      (row ∈ rows ∧ ∀ cursor ∈ after, key row < cursor) ∧
        (rows.filter fun other => key row < key other ∧
          ∀ cursor ∈ after, key other < cursor).length < limit := by
  have within : ∀ other, Within after none (key other) ↔ ∀ cursor ∈ after, key other < cursor := by
    intro other
    cases after <;> simp [Within]
  have members : row ∈ descending key (rows.filter fun row => Within after none (key row)) ↔
      row ∈ rows ∧ ∀ cursor ∈ after, key row < cursor := by
    rw [mem_descending, List.mem_filter, decide_eq_true_iff, within]
  have strictly : (descending key (rows.filter fun row => Within after none (key row))).Pairwise
      fun one other => key other < key one :=
    descending_strictly (distinct.sublist (List.filter_sublist.map key))
  have count : (rows.filter fun other => key row < key other ∧
      ∀ cursor ∈ after, key other < cursor).length =
      ((descending key (rows.filter fun row => Within after none (key row))).filter
        fun other => key row < key other).length := by
    rw [(descending_perm.filter _).length_eq, List.filter_filter]
    congr 1
    exact List.filter_congr fun other _ => by simp [within]
  rw [count, ← members, keysetPage_of_found rfl]
  generalize descending key (rows.filter fun row => Within after none (key row)) = found at strictly
  constructor
  · intro member
    obtain ⟨place, bound, rfl⟩ := List.mem_take_iff_getElem.mp member
    have inside : place < found.length := by omega
    rw [filter_above strictly (List.getElem?_eq_getElem inside), List.length_take]
    exact ⟨List.getElem_mem inside, by omega⟩
  · rintro ⟨member, few⟩
    obtain ⟨place, inside, rfl⟩ := List.mem_iff_getElem.mp member
    rw [filter_above strictly (List.getElem?_eq_getElem inside), List.length_take] at few
    exact List.mem_take_iff_getElem.mpr ⟨place, by omega, rfl⟩

omit positive in
theorem keysetPage_strictly {after : Option κ} :
    (keysetPage key limit rows after none).items.Pairwise fun one other => key other < key one := by
  rw [keysetPage_of_found rfl]
  exact (descending_strictly (distinct.sublist (List.filter_sublist.map key))).sublist
    (List.take_sublist _ _)

/-- Deeper pages are asked for with lower cursors. -/
theorem askedWith_le (here : pageAt key limit rows depth = some page) (deeper : depth < later)
    {reached : KeysetPage ρ κ} (there : pageAt key limit rows later = some reached) :
    ∃ next asked, page.next = some next ∧ askedWith key limit rows later = some asked ∧
      asked ≤ next := by
  induction later generalizing reached with
  | zero => cases deeper
  | succ later inductionHypothesis =>
    obtain ⟨before, isBefore, cursor, isNext⟩ := exists_pageAt there
    have asked := (pageAt_succ isBefore isNext).2
    obtain further | rfl := (Nat.le_of_lt_succ deeper).lt_or_eq
    · obtain ⟨next, earlier, isPageNext, isEarlier, lower⟩ := inductionHypothesis further isBefore
      refine ⟨next, cursor, isPageNext, asked, ?_⟩
      -- the cursor stands on a row below the one its page was asked for with
      have isPage := pageAt_asked isBefore
      rw [isPage] at isNext
      obtain ⟨row, member, rfl⟩ := exists_of_next isNext
      have below := ((mem_keysetPage_iff distinct positive).mp member).2.1 earlier isEarlier
      exact below.le.trans lower
    · cases here.symm.trans isBefore
      exact ⟨cursor, cursor, isNext, asked, le_rfl⟩

/-- Every key lies between the cursors of some page. -/
theorem exists_stretch (place : κ) :
    ∃ depth page, pageAt key limit rows depth = some page ∧
      (∀ cursor ∈ askedWith key limit rows depth, place < cursor) ∧
      ∀ cursor ∈ page.next, cursor ≤ place := by
  by_contra nowhere
  push Not at nowhere
  -- then every page is followed by one whose cursor is still above the key
  have endless : ∀ depth, ∃ page, pageAt key limit rows depth = some page ∧
      ∀ cursor ∈ askedWith key limit rows depth, place < cursor := by
    intro depth
    induction depth with
    | zero => exact ⟨_, rfl, nofun⟩
    | succ depth inductionHypothesis =>
      obtain ⟨page, isPage, above⟩ := inductionHypothesis
      obtain ⟨cursor, isNext, higher⟩ := nowhere depth page isPage above
      obtain ⟨follows, asked⟩ := pageAt_succ isPage isNext
      refine ⟨_, follows, fun cursor' isCursor => ?_⟩
      rw [asked] at isCursor
      cases isCursor
      exact higher
  obtain ⟨page, isPage, _⟩ := endless (rows.length + 1)
  rw [pageAt_spec distinct positive] at isPage
  obtain ⟨reached, _⟩ := Option.ite_none_right_eq_some.mp isPage
  have far : rows.length + 1 ≤ (rows.length + 1) * limit := Nat.le_mul_of_pos_right _ positive
  omega

end Stretches

end Ancore.Library
