import Ancore.Library.Replacing

/-! # Deletions one after the other

What expressions match is deleted, one expression after the other.  A deletion puts what stands at
its two sides together.  As long as no match of what was deleted so far touches such a place, what
was deleted is not there again (`seamless_iff_staysAbsent`).
-/

namespace Ancore.Library.RegExp

variable {α : Type}

/-! ## What is beside a match -/

/-- All that counts of what stands before and behind is whether a word goes on there. -/
def Local (isWord : α → Bool) : RegExp α → Prop
  | empty => True
  | letter _ => True
  | assertion holds => ∀ before before' behind behind',
      wordAt isWord before = wordAt isWord before' →
      wordAt isWord behind = wordAt isWord behind' →
      holds before behind = holds before' behind'
  | sequence first second => first.Local isWord ∧ second.Local isWord
  | either first second => first.Local isWord ∧ second.Local isWord
  | many _ body => body.Local isWord

theorem local_of_plain {expression : RegExp α} (isPlain : expression.plain = true)
    (isWord : α → Bool) : expression.Local isWord := by
  induction expression with
  | empty => trivial
  | letter accepts => trivial
  | assertion holds => cases isPlain
  | sequence first second ihFirst ihSecond =>
    obtain ⟨plainFirst, plainSecond⟩ := Bool.and_eq_true_iff.mp isPlain
    exact ⟨ihFirst plainFirst, ihSecond plainSecond⟩
  | either first second ihFirst ihSecond =>
    obtain ⟨plainFirst, plainSecond⟩ := Bool.and_eq_true_iff.mp isPlain
    exact ⟨ihFirst plainFirst, ihSecond plainSecond⟩
  | many greedy body ih => exact ih isPlain

theorem local_boundary (isWord : α → Bool) : (boundary isWord).Local isWord := by
  intro before before' behind behind' sameBefore sameBehind
  change (wordAt isWord before != wordAt isWord behind) =
    (wordAt isWord before' != wordAt isWord behind')
  rw [sameBefore, sameBehind]

section Locality

variable {isWord : α → Bool}

theorem wordAt_append_congr {side side' : List α} (text : List α)
    (same : wordAt isWord side = wordAt isWord side') :
    wordAt isWord (text ++ side) = wordAt isWord (text ++ side') := by
  cases text with
  | nil => exact same
  | cons letter rest => rfl

theorem Local.matches_congr {expression : RegExp α} (isLocal : expression.Local isWord)
    {before before' text behind behind' : List α}
    (sameBefore : wordAt isWord before = wordAt isWord before')
    (sameBehind : wordAt isWord behind = wordAt isWord behind')
    (matched : expression.Matches before text behind) :
    expression.Matches before' text behind' := by
  induction expression generalizing before before' text behind behind' with
  | empty => exact matched
  | letter accepts => exact matched
  | assertion holds =>
    exact ⟨matched.1, (isLocal _ _ _ _ sameBefore sameBehind).symm.trans matched.2⟩
  | sequence first second ihFirst ihSecond =>
    obtain ⟨front, back, rfl, here, there⟩ := matched
    exact ⟨front, back, rfl, ihFirst isLocal.1 sameBefore (wordAt_append_congr _ sameBehind) here,
      ihSecond isLocal.2 (wordAt_append_congr _ sameBefore) sameBehind there⟩
  | either first second ihFirst ihSecond =>
    exact matched.imp (ihFirst isLocal.1 sameBefore sameBehind)
      (ihSecond isLocal.2 sameBefore sameBehind)
  | many greedy body ih =>
    change Repeated body.Matches before' text behind'
    induction (show Repeated body.Matches before text behind from matched)
      generalizing before' with
    | none => exact .none
    | more filled here later others =>
      exact .more filled (ih isLocal sameBefore (wordAt_append_congr _ sameBehind) here)
        (others (wordAt_append_congr _ sameBefore) sameBehind later)

end Locality

/-! ## Where nothing matches -/

section Absence

variable {isWord : α → Bool} {expression : RegExp α}

theorem filled_of_least (some : 0 < expression.least) : expression.Filled := by
  intro before behind matched
  exact absurd (least_le_length matched) (Nat.not_le_of_lt some)

theorem absent_of_not_mem {text : List α} {first : α} (some : 0 < expression.least)
    (opens : expression.OpensWith (· = first)) (missing : first ∉ text) :
    Absent expression text := by
  rintro front middle back rfl matched
  cases middle with
  | nil => exact filled_of_least some _ _ matched
  | cons letter rest =>
    have same : letter = first := opens.head matched letter rfl
    exact missing (by simp [same])

/-- What is beside a part of the text, if it is no word, does not count. -/
theorem Absent.of_append (isLocal : expression.Local isWord) {former text latter : List α}
    (absent : Absent expression (former ++ text ++ latter))
    (left : wordAt isWord former.reverse = false) (right : wordAt isWord latter = false) :
    Absent expression text := by
  rintro front middle back rfl matched
  refine absent (former ++ front) middle (back ++ latter) (by simp only [List.append_assoc])
    (isLocal.matches_congr ?_ ?_ matched)
  · have nothing : wordAt isWord [] = wordAt isWord former.reverse := left.symm
    have same := wordAt_append_congr front.reverse nothing
    rwa [List.append_nil, ← List.reverse_append] at same
  · have nothing : wordAt isWord [] = wordAt isWord latter := right.symm
    have same := wordAt_append_congr back nothing
    rwa [List.append_nil] at same

end Absence

/-! ## One deletion -/

def IsKept (piece : Piece α) : Prop := ∃ letter, piece = .kept letter

/-- No match of the expression in what is left touches a place where something was deleted. -/
def Untouched (expression : RegExp α) (pieces : List (Piece α)) : Prop :=
  ∀ former middle latter, pieces = former ++ middle ++ latter →
    expression.Matches (results [] former).reverse (results [] middle) (results [] latter) →
    (∀ piece ∈ former.getLast?, IsKept piece) ∧ (∀ piece ∈ middle, IsKept piece) ∧
      ∀ piece ∈ latter.head?, IsKept piece

section Deletion

variable {isWord : α → Bool} {expression deleted : RegExp α}

/-- What is left is cut where the pieces are. -/
theorem exists_split_of_results {pieces : List (Piece α)} {front back : List α}
    (left : results [] pieces = front ++ back) :
    ∃ former latter, pieces = former ++ latter ∧ results [] former = front ∧
      results [] latter = back := by
  induction pieces generalizing front with
  | nil =>
    obtain ⟨rfl, rfl⟩ := List.append_eq_nil_iff.mp left.symm
    exact ⟨[], [], rfl, rfl, rfl⟩
  | cons piece pieces ih =>
    cases piece with
    | kept letter =>
      cases front with
      | nil => exact ⟨[], .kept letter :: pieces, rfl, rfl, left⟩
      | cons next front =>
        obtain ⟨rfl, rest⟩ := List.cons.inj left
        obtain ⟨former, latter, rfl, rfl, rfl⟩ := ih rest
        exact ⟨.kept letter :: former, latter, rfl, rfl, rfl⟩
    | found part =>
      obtain ⟨former, latter, rfl, rfl, rfl⟩ := ih left
      exact ⟨.found part :: former, latter, rfl, rfl, rfl⟩

theorem eq_map_of_isKept {pieces : List (Piece α)} (kept : ∀ piece ∈ pieces, IsKept piece) :
    pieces = (results [] pieces).map .kept := by
  induction pieces with
  | nil => rfl
  | cons piece pieces ih =>
    obtain ⟨⟨letter, rfl⟩, others⟩ := List.forall_mem_cons.mp kept
    exact congrArg (Piece.kept letter :: ·) (ih others)

theorem wordAt_sources_of_isKept {pieces : List (Piece α)}
    (kept : ∀ piece ∈ pieces.head?, IsKept piece) :
    wordAt isWord (results [] pieces) = wordAt isWord (sources pieces) := by
  cases pieces with
  | nil => rfl
  | cons piece pieces =>
    obtain ⟨letter, rfl⟩ := kept piece rfl
    rfl

theorem wordAt_reverse_sources_of_isKept {pieces : List (Piece α)}
    (kept : ∀ piece ∈ pieces.getLast?, IsKept piece) :
    wordAt isWord (results [] pieces).reverse = wordAt isWord (sources pieces).reverse := by
  rcases pieces.eq_nil_or_concat with rfl | ⟨init, piece, rfl⟩
  · rfl
  · rw [List.concat_eq_append] at kept ⊢
    obtain ⟨letter, rfl⟩ := kept piece List.getLast?_concat
    rw [results_append, sources_append, List.reverse_append, List.reverse_append]
    rfl

/-- A match that touches no such place was there before the deletion. -/
theorem exists_source_of_untouched (isLocal : expression.Local isWord)
    {pieces : List (Piece α)} (untouched : Untouched expression pieces)
    {front middle back : List α} (left : results [] pieces = front ++ middle ++ back)
    (matched : expression.Matches front.reverse middle back) :
    ∃ former latter, pieces = former ++ (middle.map .kept ++ latter) ∧
      expression.Matches (sources former).reverse middle (sources latter) := by
  rw [List.append_assoc] at left
  obtain ⟨former, others, rfl, rfl, rest⟩ := exists_split_of_results left
  obtain ⟨inside, latter, rfl, rfl, rfl⟩ := exists_split_of_results rest
  obtain ⟨before, whole, behind⟩ :=
    untouched former inside latter (List.append_assoc _ _ _).symm matched
  refine ⟨former, latter, ?_, isLocal.matches_congr (wordAt_reverse_sources_of_isKept before)
    (wordAt_sources_of_isKept behind) matched⟩
  rw [← eq_map_of_isKept whole]

theorem absent_deletion_of_absent (filled : deleted.Filled) (isLocal : expression.Local isWord)
    {text : List α} (absent : Absent expression text)
    (untouched : Untouched expression (deleted.scan text)) :
    Absent expression (deleted.replaceAll [] text) := by
  intro front middle back left matched
  have scanned : Scanned deleted [] text _ := scanned_scan filled text
  obtain ⟨former, latter, pieces, matched⟩ :=
    exists_source_of_untouched isLocal untouched left matched
  refine absent (sources former) middle (sources latter) ?_ matched
  rw [← scanned.sources_eq, pieces, sources_append, sources_append, sources_kept,
    List.append_assoc]

theorem absent_deletion (filled : expression.Filled) (isLocal : expression.Local isWord)
    {text : List α} (untouched : Untouched expression (expression.scan text)) :
    Absent expression (expression.replaceAll [] text) := by
  intro front middle back left matched
  have scanned : Scanned expression [] text _ := scanned_scan filled text
  obtain ⟨former, latter, pieces, matched⟩ :=
    exists_source_of_untouched isLocal untouched left matched
  rw [pieces] at scanned
  have later := scanned.drop
  rw [sources_append, sources_kept] at later
  have some : middle ≠ [] := by
    rintro rfl
    exact filled _ _ matched
  refine @Scanned.nowhere _ _ _ _ _ [] _ _ _ later (List.append_nil _).symm some ?_
  rwa [List.append_nil]

theorem Scanned.length_results_le {before behind : List α} {pieces : List (Piece α)}
    (scanned : Scanned expression before behind pieces) :
    (results [] pieces).length ≤ behind.length := by
  induction scanned with
  | done => exact Nat.le_refl _
  | kept nowhere later ih => exact Nat.succ_le_succ ih
  | found filled here later ih =>
    rw [List.length_append]
    exact Nat.le_add_left_of_le ih

/-- What is left whole was kept. -/
theorem Scanned.isKept_of_results_eq {before behind : List α} {pieces : List (Piece α)}
    (scanned : Scanned expression before behind pieces) (whole : results [] pieces = behind) :
    ∀ piece ∈ pieces, IsKept piece := by
  induction scanned with
  | done => nofun
  | kept nowhere later ih =>
    exact List.forall_mem_cons.mpr ⟨⟨_, rfl⟩, ih (List.cons.inj whole).2⟩
  | @found before part behind pieces filled here later ih =>
    have shorter := later.length_results_le
    have same : (results [] pieces).length = (part ++ behind).length := congrArg List.length whole
    have some := List.length_pos_of_ne_nil filled
    rw [List.length_append] at same
    omega

/-- Nothing is deleted where nothing matches. -/
theorem absent_iff_replaceAll_eq (filled : expression.Filled) {text : List α} :
    Absent expression text ↔ expression.replaceAll [] text = text := by
  constructor
  · exact fun absent => replaceAll_of_absent filled absent []
  · intro same front middle back split matched
    have scanned : Scanned expression [] text _ := scanned_scan filled text
    have pieces := eq_map_of_isKept (scanned.isKept_of_results_eq same)
    have whole : results [] (expression.scan text) = text := same
    rw [pieces, whole, ← List.append_nil (text.map Piece.kept)] at scanned
    have some : middle ≠ [] := by
      rintro rfl
      exact filled _ _ matched
    have nowhere := scanned.nowhere split some
    rw [List.append_nil] at nowhere
    exact nowhere (by rwa [sources, List.flatMap_nil, List.append_nil])

/-- A letter that matches everywhere is nowhere left. -/
theorem not_mem_replaceAll_of_matches (filled : expression.Filled) {letter : α}
    (always : ∀ before behind, expression.Matches before [letter] behind) (text : List α) :
    letter ∉ expression.replaceAll [] text := by
  intro member
  have scanned : Scanned expression [] text _ := scanned_scan filled text
  obtain ⟨piece, inside, written⟩ := List.mem_flatMap.mp member
  cases piece with
  | found part => cases written
  | kept unit =>
    obtain rfl : letter = unit := List.mem_singleton.mp written
    obtain ⟨former, latter, pieces⟩ := List.append_of_mem inside
    rw [pieces] at scanned
    exact scanned.drop.of_kept [letter] (sources latter) rfl (always _ _)

theorem not_mem_replaceAll (filled : expression.Filled) {text : List α} {letter : α}
    (missing : letter ∉ text) : letter ∉ expression.replaceAll [] text := by
  intro member
  have scanned : Scanned expression [] text _ := scanned_scan filled text
  obtain ⟨piece, inside, written⟩ := List.mem_flatMap.mp member
  cases piece with
  | found part => cases written
  | kept unit =>
    apply missing
    rw [← scanned.sources_eq]
    exact List.mem_flatMap.mpr ⟨.kept unit, inside, written⟩

end Deletion

/-! ## One after the other -/

/-- Each of the expressions is deleted. -/
def deleteEach (expressions : List (RegExp α)) (text : List α) : List α :=
  expressions.foldl (fun text expression => expression.replaceAll [] text) text

theorem deleteEach_of_absent {expressions : List (RegExp α)} {text : List α}
    (filled : ∀ expression ∈ expressions, expression.Filled)
    (absent : ∀ expression ∈ expressions, Absent expression text) :
    deleteEach expressions text = text := by
  induction expressions with
  | nil => rfl
  | cons expression expressions ih =>
    obtain ⟨isFilled, filled⟩ := List.forall_mem_cons.mp filled
    obtain ⟨here, absent⟩ := List.forall_mem_cons.mp absent
    rw [deleteEach, List.foldl_cons, replaceAll_of_absent isFilled here]
    exact ih filled absent

/-- No deletion of the run brings anything back that was deleted so far. -/
def Seamless (deleted : List (RegExp α)) : List (RegExp α) → List α → Prop
  | [], _ => True
  | expression :: expressions, text =>
    (∀ other ∈ expression :: deleted, Untouched other (expression.scan text)) ∧
      Seamless (expression :: deleted) expressions (expression.replaceAll [] text)

/-- After every deletion of the run nothing is left of what was deleted so far. -/
def StaysAbsent (deleted : List (RegExp α)) : List (RegExp α) → List α → Prop
  | [], _ => True
  | expression :: expressions, text =>
    (∀ other ∈ expression :: deleted, Absent other (expression.replaceAll [] text)) ∧
      StaysAbsent (expression :: deleted) expressions (expression.replaceAll [] text)

section Runs

variable {isWord : α → Bool}

theorem absent_of_untouched {deleted : List (RegExp α)} {expression : RegExp α} {text : List α}
    (filled : expression.Filled)
    (isLocal : ∀ other ∈ expression :: deleted, other.Local isWord)
    (absent : ∀ other ∈ deleted, Absent other text)
    (untouched : ∀ other ∈ expression :: deleted, Untouched other (expression.scan text)) :
    ∀ other ∈ expression :: deleted, Absent other (expression.replaceAll [] text) := by
  obtain ⟨isLocal, othersLocal⟩ := List.forall_mem_cons.mp isLocal
  obtain ⟨here, others⟩ := List.forall_mem_cons.mp untouched
  refine List.forall_mem_cons.mpr ⟨absent_deletion filled isLocal here, fun other member => ?_⟩
  exact absent_deletion_of_absent filled (othersLocal other member) (absent other member)
    (others other member)

/-- The run is seamless where nothing comes back, and only there. -/
theorem seamless_iff_staysAbsent {deleted expressions : List (RegExp α)} {text : List α}
    (filled : ∀ expression ∈ expressions, expression.Filled)
    (isLocal : ∀ expression ∈ deleted ++ expressions, expression.Local isWord)
    (absent : ∀ expression ∈ deleted, Absent expression text) :
    Seamless deleted expressions text ↔ StaysAbsent deleted expressions text := by
  induction expressions generalizing deleted text with
  | nil => rfl
  | cons expression expressions ih =>
    obtain ⟨isFilled, filled⟩ := List.forall_mem_cons.mp filled
    have localNow : ∀ other ∈ expression :: deleted, other.Local isWord := by
      intro other member
      apply isLocal
      simp only [List.mem_append, List.mem_cons] at member ⊢
      tauto
    have localLater : ∀ other ∈ (expression :: deleted) ++ expressions, other.Local isWord := by
      intro other member
      apply isLocal
      simp only [List.mem_append, List.mem_cons] at member ⊢
      tauto
    have step : (∀ other ∈ expression :: deleted, Untouched other (expression.scan text)) ↔
        ∀ other ∈ expression :: deleted, Absent other (expression.replaceAll [] text) := by
      refine ⟨absent_of_untouched isFilled localNow absent, fun gone other member => ?_⟩
      intro former middle latter pieces matched
      refine absurd matched (gone other member _ _ _ ?_)
      change results [] (expression.scan text) = _
      rw [pieces, results_append, results_append]
    rw [Seamless, StaysAbsent, step]
    exact and_congr_right fun gone => ih filled localLater gone

theorem StaysAbsent.absent {deleted expressions : List (RegExp α)} {text : List α}
    (stays : StaysAbsent deleted expressions text)
    (absent : ∀ expression ∈ deleted, Absent expression text) :
    ∀ expression ∈ deleted ++ expressions, Absent expression (deleteEach expressions text) := by
  induction expressions generalizing deleted text with
  | nil => rwa [List.append_nil]
  | cons expression expressions ih =>
    intro other member
    refine ih stays.2 stays.1 other ?_
    simp only [List.mem_append, List.mem_cons] at member ⊢
    tauto

/-- Whether the run is seamless, by deleting again. -/
def isSeamless [DecidableEq α] (deleted : List (RegExp α)) : List (RegExp α) → List α → Bool
  | [], _ => true
  | expression :: expressions, text =>
    let left := expression.replaceAll [] text
    ((expression :: deleted).all fun other => other.replaceAll [] left = left) &&
      isSeamless (expression :: deleted) expressions left

theorem isSeamless_iff_staysAbsent [DecidableEq α] {deleted expressions : List (RegExp α)}
    {text : List α} (filled : ∀ expression ∈ deleted ++ expressions, expression.Filled) :
    isSeamless deleted expressions text = true ↔ StaysAbsent deleted expressions text := by
  induction expressions generalizing deleted text with
  | nil => exact iff_of_true rfl trivial
  | cons expression expressions ih =>
    have filledNow : ∀ other ∈ expression :: deleted, other.Filled := by
      intro other member
      apply filled
      simp only [List.mem_append, List.mem_cons] at member ⊢
      tauto
    have filledLater : ∀ other ∈ (expression :: deleted) ++ expressions, other.Filled := by
      intro other member
      apply filled
      simp only [List.mem_append, List.mem_cons] at member ⊢
      tauto
    rw [isSeamless, StaysAbsent, Bool.and_eq_true, List.all_eq_true, ih filledLater]
    refine and_congr_left fun _ => forall₂_congr fun other member => ?_
    rw [decide_eq_true_iff, absent_iff_replaceAll_eq (filledNow other member)]

theorem not_mem_deleteEach {expressions : List (RegExp α)} {text : List α} {letter : α}
    (filled : ∀ expression ∈ expressions, expression.Filled) (missing : letter ∉ text) :
    letter ∉ deleteEach expressions text := by
  induction expressions generalizing text with
  | nil => exact missing
  | cons expression expressions ih =>
    obtain ⟨isFilled, filled⟩ := List.forall_mem_cons.mp filled
    exact ih filled (not_mem_replaceAll isFilled missing)

end Runs


end Ancore.Library.RegExp
