import Ancore.Library.RegExp

/-! # Replacing what stands by itself

Expressions `\b…\b` whose matches are replaced by a text in brackets, one expression after the
other.  What is written is made of pieces, and a word that is no part of the replacement stands in
kept letters (`pieces_of_occurrence`) between neighbours that are words where they were before
(`Scanned.agree_left`, `Scanned.agree_right`).  So nothing is found in what is written, and what is
left of the text had no match in it (`absent_replaceEach`, `exists_of_replaceEach`).
-/

namespace Ancore.Library.RegExp

variable {α : Type}

/-! ## What matches are like -/

/-- The letter stands in no match. -/
def refuses (refused : α) : RegExp α → Bool
  | empty => true
  | letter accepts => !accepts refused
  | assertion _ => true
  | sequence first second => first.refuses refused && second.refuses refused
  | either first second => first.refuses refused && second.refuses refused
  | many _ body => body.refuses refused

/-- Matches are so long at least. -/
def least : RegExp α → ℕ
  | empty => 0
  | letter _ => 1
  | assertion _ => 0
  | sequence first second => first.least + second.least
  | either first second => min first.least second.least
  | many _ _ => 0

/-- The first letter of a match is of this kind. -/
def OpensWith (kind : α → Prop) : RegExp α → Prop
  | empty => True
  | letter accepts => ∀ letter, accepts letter = true → kind letter
  | assertion _ => True
  | sequence first second =>
    first.OpensWith kind ∧ (first.least = 0 → second.OpensWith kind)
  | either first second => first.OpensWith kind ∧ second.OpensWith kind
  | many _ body => body.OpensWith kind

/-- The last letter of a match is of this kind. -/
def ClosesWith (kind : α → Prop) : RegExp α → Prop
  | empty => True
  | letter accepts => ∀ letter, accepts letter = true → kind letter
  | assertion _ => True
  | sequence first second =>
    second.ClosesWith kind ∧ (second.least = 0 → first.ClosesWith kind)
  | either first second => first.ClosesWith kind ∧ second.ClosesWith kind
  | many _ body => body.ClosesWith kind

/-- Nothing is asked of what stands before and behind. -/
def plain : RegExp α → Bool
  | empty => true
  | letter _ => true
  | assertion _ => false
  | sequence first second => first.plain && second.plain
  | either first second => first.plain && second.plain
  | many _ body => body.plain

section Kinds

variable {expression : RegExp α} {before text behind : List α} {kind : α → Prop} {refused : α}

theorem not_mem_of_refuses (refuses : expression.refuses refused = true)
    (matched : expression.Matches before text behind) : refused ∉ text := by
  induction expression generalizing before text behind with
  | empty =>
    rw [show text = [] from matched]
    exact List.not_mem_nil
  | letter accepts =>
    obtain ⟨letter, accepted, rfl⟩ := matched
    rw [List.mem_singleton]
    rintro rfl
    rw [RegExp.refuses, accepted] at refuses
    cases refuses
  | assertion holds =>
    rw [matched.1]
    exact List.not_mem_nil
  | sequence first second ihFirst ihSecond =>
    obtain ⟨front, back, rfl, here, there⟩ := matched
    obtain ⟨refusesFirst, refusesSecond⟩ := Bool.and_eq_true_iff.mp refuses
    rw [List.mem_append]
    exact not_or.mpr ⟨ihFirst refusesFirst here, ihSecond refusesSecond there⟩
  | either first second ihFirst ihSecond =>
    obtain ⟨refusesFirst, refusesSecond⟩ := Bool.and_eq_true_iff.mp refuses
    exact matched.elim (ihFirst refusesFirst) (ihSecond refusesSecond)
  | many greedy body ih =>
    induction (show Repeated body.Matches before text behind from matched) with
    | none => exact List.not_mem_nil
    | more filled here later others =>
      rw [List.mem_append]
      exact not_or.mpr ⟨ih refuses here, others later⟩

theorem least_le_length (matched : expression.Matches before text behind) :
    expression.least ≤ text.length := by
  induction expression generalizing before text behind with
  | empty => exact Nat.zero_le _
  | letter accepts =>
    obtain ⟨letter, -, rfl⟩ := matched
    exact Nat.le_refl _
  | assertion holds => exact Nat.zero_le _
  | sequence first second ihFirst ihSecond =>
    obtain ⟨front, back, rfl, here, there⟩ := matched
    rw [List.length_append]
    exact Nat.add_le_add (ihFirst here) (ihSecond there)
  | either first second ihFirst ihSecond =>
    exact matched.elim (fun here => Nat.le_trans (Nat.min_le_left _ _) (ihFirst here))
      fun here => Nat.le_trans (Nat.min_le_right _ _) (ihSecond here)
  | many greedy body ih => exact Nat.zero_le _

theorem OpensWith.head (opens : expression.OpensWith kind)
    (matched : expression.Matches before text behind) : ∀ letter ∈ text.head?, kind letter := by
  induction expression generalizing before text behind with
  | empty =>
    rw [show text = [] from matched]
    nofun
  | letter accepts =>
    obtain ⟨letter, accepted, rfl⟩ := matched
    rintro _ ⟨⟩
    exact opens letter accepted
  | assertion holds =>
    rw [matched.1]
    nofun
  | sequence first second ihFirst ihSecond =>
    obtain ⟨front, back, rfl, here, there⟩ := matched
    cases front with
    | nil => exact ihSecond (opens.2 (Nat.le_zero.mp (least_le_length here))) there
    | cons letter rest =>
      rintro _ ⟨⟩
      exact ihFirst opens.1 here letter rfl
  | either first second ihFirst ihSecond =>
    exact matched.elim (ihFirst opens.1) (ihSecond opens.2)
  | many greedy body ih =>
    cases (show Repeated body.Matches before text behind from matched) with
    | none => nofun
    | @more _ front rest _ filled here later =>
      cases front with
      | nil => exact absurd rfl filled
      | cons letter others =>
        rintro _ ⟨⟩
        exact ih opens here letter rfl

theorem ClosesWith.last (closes : expression.ClosesWith kind)
    (matched : expression.Matches before text behind) :
    ∀ letter ∈ text.getLast?, kind letter := by
  induction expression generalizing before text behind with
  | empty =>
    rw [show text = [] from matched]
    nofun
  | letter accepts =>
    obtain ⟨letter, accepted, rfl⟩ := matched
    rintro _ ⟨⟩
    exact closes letter accepted
  | assertion holds =>
    rw [matched.1]
    nofun
  | sequence first second ihFirst ihSecond =>
    obtain ⟨front, back, rfl, here, there⟩ := matched
    cases back with
    | nil =>
      rw [List.append_nil]
      exact ihFirst (closes.2 (Nat.le_zero.mp (least_le_length there))) here
    | cons letter rest =>
      rw [List.getLast?_append_of_ne_nil _ (List.cons_ne_nil _ _)]
      exact ihSecond closes.1 there
  | either first second ihFirst ihSecond =>
    exact matched.elim (ihFirst closes.1) (ihSecond closes.2)
  | many greedy body ih =>
    induction (show Repeated body.Matches before text behind from matched) with
    | none => nofun
    | @more _ front rest _ filled here later others =>
      cases rest with
      | nil =>
        rw [List.append_nil]
        exact ih closes here
      | cons letter letters =>
        rw [List.getLast?_append_of_ne_nil _ (List.cons_ne_nil _ _)]
        exact others later

theorem matches_of_plain (isPlain : expression.plain = true)
    (matched : expression.Matches before text behind) (before' behind' : List α) :
    expression.Matches before' text behind' := by
  induction expression generalizing before text behind before' behind' with
  | empty => exact matched
  | letter accepts => exact matched
  | assertion holds => cases isPlain
  | sequence first second ihFirst ihSecond =>
    obtain ⟨front, back, rfl, here, there⟩ := matched
    obtain ⟨plainFirst, plainSecond⟩ := Bool.and_eq_true_iff.mp isPlain
    exact ⟨front, back, rfl, ihFirst plainFirst here _ _, ihSecond plainSecond there _ _⟩
  | either first second ihFirst ihSecond =>
    obtain ⟨plainFirst, plainSecond⟩ := Bool.and_eq_true_iff.mp isPlain
    exact matched.elim (fun here => .inl (ihFirst plainFirst here _ _))
      fun here => .inr (ihSecond plainSecond here _ _)
  | many greedy body ih =>
    change Repeated body.Matches before' text behind'
    induction (show Repeated body.Matches before text behind from matched)
      generalizing before' with
    | none => exact .none
    | more filled here later others =>
      exact .more filled (ih isPlain here _ _) (others later _)

theorem opensWith_times (opens : expression.OpensWith kind) (count : ℕ) :
    (times count expression).OpensWith kind := by
  induction count with
  | zero => trivial
  | succ count ih => exact ⟨opens, fun _ => ih⟩

theorem closesWith_times (closes : expression.ClosesWith kind) (count : ℕ) :
    (times count expression).ClosesWith kind := by
  induction count with
  | zero => trivial
  | succ count ih => exact ⟨ih, fun _ => closes⟩

theorem opensWith_upTo (opens : expression.OpensWith kind) (count : ℕ) :
    (upTo count expression).OpensWith kind := by
  induction count with
  | zero => trivial
  | succ count ih => exact ⟨⟨opens, fun _ => ih⟩, trivial⟩

theorem closesWith_upTo (closes : expression.ClosesWith kind) (count : ℕ) :
    (upTo count expression).ClosesWith kind := by
  induction count with
  | zero => trivial
  | succ count ih => exact ⟨⟨ih, fun _ => closes⟩, trivial⟩

end Kinds

/-! ## Expressions between boundaries -/

/-- Whether a word goes on at this side. -/
def wordAt (isWord : α → Bool) (side : List α) : Bool := side.head?.any isWord

/-- `\b…\b` -/
def bounded (isWord : α → Bool) (body : RegExp α) : RegExp α :=
  sequence (boundary isWord) (sequence body (boundary isWord))

theorem wordAt_append {isWord : α → Bool} {text : List α} (filled : text ≠ []) (behind : List α) :
    wordAt isWord (text ++ behind) = wordAt isWord text := by
  cases text with
  | nil => exact absurd rfl filled
  | cons letter rest => rfl

theorem wordAt_reverse_append {isWord : α → Bool} {text : List α} (filled : text ≠ [])
    (before : List α) : wordAt isWord (text.reverse ++ before) = wordAt isWord text.reverse :=
  wordAt_append (mt List.reverse_eq_nil_iff.mp filled) before

section Bounded

variable {isWord : α → Bool} {body : RegExp α} {before text behind : List α}

theorem matches_of_bounded (matched : (bounded isWord body).Matches before text behind) :
    body.Matches before text behind := by
  obtain ⟨_, _, rfl, ⟨rfl, -⟩, front, _, rfl, here, rfl, -⟩ := matched
  simpa using here

theorem matches_bounded_iff (filled : text ≠ []) :
    (bounded isWord body).Matches before text behind ↔
      wordAt isWord before ≠ wordAt isWord text ∧ body.Matches before text behind ∧
        wordAt isWord text.reverse ≠ wordAt isWord behind := by
  rw [← wordAt_append filled behind, ← wordAt_reverse_append filled before]
  simp only [bounded, Matches, boundary, isBoundary, wordAt, bne_iff_ne]
  constructor
  · rintro ⟨_, _, rfl, ⟨rfl, starts⟩, front, _, rfl, here, rfl, ends⟩
    simp only [List.nil_append, List.append_nil, List.reverse_nil] at starts here ends ⊢
    exact ⟨starts, here, ends⟩
  · rintro ⟨starts, here, ends⟩
    exact ⟨[], text, rfl, ⟨rfl, starts⟩, text, [], (List.append_nil _).symm, here, rfl, ends⟩

end Bounded

/-! ## Pieces -/

/-- What the pieces are of. -/
def sources (pieces : List (Piece α)) : List α := pieces.flatMap Piece.source

/-- What the pieces become. -/
def results (replacement : List α) (pieces : List (Piece α)) : List α :=
  pieces.flatMap (Piece.written replacement)

section Pieces

variable {expression : RegExp α} {before behind replacement : List α} {pieces : List (Piece α)}

theorem sources_append (front back : List (Piece α)) :
    sources (front ++ back) = sources front ++ sources back := List.flatMap_append

theorem results_append (front back : List (Piece α)) :
    results replacement (front ++ back) = results replacement front ++ results replacement back :=
  List.flatMap_append

theorem sources_kept (text : List α) : sources (text.map .kept) = text := by
  rw [sources, List.flatMap_map]
  exact List.flatMap_singleton' text

theorem results_kept (text : List α) : results replacement (text.map .kept) = text := by
  rw [results, List.flatMap_map]
  exact List.flatMap_singleton' text

theorem Scanned.sources_eq (scanned : Scanned expression before behind pieces) :
    sources pieces = behind := by
  induction scanned with
  | done => rfl
  | @kept _ _ _ next _ _ ih => exact congrArg (next :: ·) ih
  | @found _ text _ _ _ _ _ ih => exact congrArg (text ++ ·) ih

/-- The search goes on behind any of its pieces. -/
theorem Scanned.drop {front back : List (Piece α)}
    (scanned : Scanned expression before behind (front ++ back)) :
    Scanned expression ((sources front).reverse ++ before) (sources back) back := by
  induction front generalizing before behind with
  | nil =>
    rw [List.nil_append] at scanned
    rw [scanned.sources_eq]
    exact scanned
  | cons piece front ih =>
    have more : sources (piece :: front) = piece.source ++ sources front := List.flatMap_cons
    rw [more, List.reverse_append, List.append_assoc]
    cases scanned with
    | kept nowhere later => exact ih later
    | found filled here later => exact ih later

theorem Scanned.of_kept {next : α}
    (scanned : Scanned expression before behind (.kept next :: pieces)) :
    ∀ text rest, behind = text ++ rest → ¬ expression.Matches before text rest := by
  cases scanned with
  | kept nowhere later => exact nowhere

theorem Scanned.of_found {part : List α}
    (scanned : Scanned expression before behind (.found part :: pieces)) :
    part ≠ [] ∧ ∃ rest, behind = part ++ rest ∧ expression.Matches before part rest := by
  cases scanned with
  | found filled here later => exact ⟨filled, _, rfl, here⟩

/-- No match starts in letters that are kept. -/
theorem Scanned.nowhere {text front middle back : List α} {others : List (Piece α)}
    (scanned : Scanned expression before behind (text.map .kept ++ others))
    (split : text = front ++ middle ++ back) (filled : middle ≠ []) :
    ¬ expression.Matches (front.reverse ++ before) middle (back ++ sources others) := by
  have parts : text.map Piece.kept ++ others =
      front.map .kept ++ ((middle ++ back).map .kept ++ others) := by
    rw [split, List.append_assoc, List.map_append, List.append_assoc]
  rw [parts] at scanned
  have here := scanned.drop
  rw [sources_kept, sources_append, sources_kept] at here
  cases middle with
  | nil => exact absurd rfl filled
  | cons next rest =>
    refine here.of_kept (next :: rest) (back ++ sources others) ?_
    exact List.append_assoc _ _ _

end Pieces

/-! ### Words in what is written -/

/-- A text that is no part of the replacement. -/
structure Clean (opening closing : α) (inner text : List α) : Prop where
  longer : inner.length < text.length
  noOpening : opening ∉ text
  noClosing : closing ∉ text

section Occurrences

variable {opening closing : α} {inner : List α} {isWord : α → Bool}

/-- A clean text does not stand in the replacement. -/
theorem Clean.behind_replacement {text front back rest : List α}
    (clean : Clean opening closing inner text)
    (split : opening :: (inner ++ [closing]) ++ rest = front ++ text ++ back) (some : front ≠ []) :
    ∃ front', front = opening :: (inner ++ [closing]) ++ front' ∧
      rest = front' ++ text ++ back := by
  rw [List.append_assoc] at split
  rcases List.append_eq_append_iff.mp split with ⟨front', same, others⟩ | ⟨part, same, others⟩
  · exact ⟨front', same, by rw [others, List.append_assoc]⟩
  · obtain ⟨letter, front, rfl⟩ := List.exists_cons_of_ne_nil some
    rw [List.cons_append] at same
    obtain ⟨rfl, tail⟩ := List.cons.inj same
    rcases part.eq_nil_or_concat with rfl | ⟨part, last, rfl⟩
    · exact ⟨[], by rw [tail, List.append_nil, List.append_nil], others.symm⟩
    · rw [List.concat_eq_append, ← List.append_assoc] at tail
      obtain ⟨whole, ends⟩ := List.append_inj' tail rfl
      cases ends
      have shorter := clean.longer
      rw [List.concat_eq_append, List.append_assoc] at others
      rcases List.append_eq_append_iff.mp others with ⟨more, rfl, -⟩ | ⟨more, rfl, rest⟩
      · rw [whole, List.length_append, List.length_append] at shorter
        omega
      · cases more with
        | nil =>
          rw [whole, List.length_append, List.append_nil] at shorter
          omega
        | cons letter more =>
          cases rest
          exact absurd clean.noClosing (by simp)

theorem pieces_of_kept {text back : List α} {pieces : List (Piece α)}
    (noOpening : opening ∉ text)
    (written : results (opening :: (inner ++ [closing])) pieces = text ++ back) :
    ∃ others, pieces = text.map .kept ++ others ∧
      back = results (opening :: (inner ++ [closing])) others := by
  induction text generalizing pieces with
  | nil => exact ⟨pieces, rfl, written.symm⟩
  | cons letter text ih =>
    obtain ⟨other, noOthers⟩ := not_or.mp (List.mem_cons.not.mp noOpening)
    cases pieces with
    | nil => cases written
    | cons piece pieces =>
      cases piece with
      | kept unit =>
        obtain ⟨rfl, rest⟩ := List.cons.inj written
        obtain ⟨others, rfl, rfl⟩ := ih noOthers rest
        exact ⟨others, rfl, rfl⟩
      | found part => exact absurd (List.cons.inj written).1 other

/-- A clean text that is written is kept. -/
theorem pieces_of_occurrence {text front back : List α} {pieces : List (Piece α)}
    (clean : Clean opening closing inner text)
    (written : results (opening :: (inner ++ [closing])) pieces = front ++ text ++ back) :
    ∃ former others, pieces = former ++ (text.map .kept ++ others) ∧
      front = results (opening :: (inner ++ [closing])) former ∧
      back = results (opening :: (inner ++ [closing])) others := by
  induction pieces generalizing front with
  | nil =>
    have nothing : text = [] :=
      (List.append_eq_nil_iff.mp (List.append_eq_nil_iff.mp written.symm).1).2
    exact absurd clean.longer (by simp [nothing])
  | cons piece pieces ih =>
    cases front with
    | nil =>
      obtain ⟨others, same, rest⟩ := pieces_of_kept clean.noOpening written
      exact ⟨[], others, same, rfl, rest⟩
    | cons letter front =>
      cases piece with
      | kept unit =>
        obtain ⟨rfl, rest⟩ := List.cons.inj written
        obtain ⟨former, others, rfl, rfl, rfl⟩ := ih rest
        exact ⟨.kept unit :: former, others, rfl, rfl, rfl⟩
      | found part =>
        obtain ⟨front', same, rest⟩ :=
          clean.behind_replacement written (List.cons_ne_nil _ _)
        obtain ⟨former, others, rfl, rfl, rfl⟩ := ih rest
        exact ⟨.found part :: former, others, rfl, same, rfl⟩

end Occurrences

/-! ### Neighbours -/

/-- What stands beside a text of its own, in what is written and in the source. -/
structure Agree (own written source : Bool) : Prop where
  same : own = true → written = source
  fewer : written = true → source = true

theorem Agree.boundary {own written source : Bool} (agree : Agree own written source)
    (differ : own ≠ written) : own ≠ source := by
  obtain ⟨same, fewer⟩ := agree
  cases own with
  | true => exact same rfl ▸ differ
  | false =>
    rw [fewer (Bool.not_eq_false _ ▸ differ.symm)]
    exact Bool.false_ne_true

theorem Agree.of_replaced {own source : Bool} (differ : own ≠ source) : Agree own false source where
  same isOwn := by
    rw [isOwn] at differ
    exact (Bool.eq_false_iff.mpr differ.symm).symm
  fewer := nofun

section Neighbours

variable {opening closing : α} {inner : List α} {isWord : α → Bool} {body : RegExp α}
  {text : List α} {former others : List (Piece α)}

theorem Scanned.agree_left (opening : α) (inner : List α) (closes : isWord closing = false)
    (scanned : Scanned (bounded isWord body) [] text (former ++ others)) :
    Agree (wordAt isWord (sources others))
      (wordAt isWord (results (opening :: (inner ++ [closing])) former).reverse)
      (wordAt isWord (sources former).reverse) := by
  rcases former.eq_nil_or_concat with rfl | ⟨init, piece, rfl⟩
  · exact ⟨fun _ => rfl, nofun⟩
  · rw [List.concat_eq_append, results_append, sources_append, List.reverse_append,
      List.reverse_append]
    cases piece with
    | kept unit => exact ⟨fun _ => rfl, id⟩
    | found part =>
      rw [List.concat_eq_append, List.append_assoc] at scanned
      have written : wordAt isWord ((results (opening :: (inner ++ [closing]))
          [Piece.found part]).reverse ++ (results (opening :: (inner ++ [closing])) init).reverse) =
            false := by
        simp [results, Piece.written, wordAt, closes]
      rw [written]
      obtain ⟨filled, rest, split, here⟩ := scanned.drop.of_found
      obtain ⟨-, -, ends⟩ := (matches_bounded_iff filled).mp here
      have behind : sources others = rest := List.append_cancel_left split
      have source : wordAt isWord ((sources [Piece.found part]).reverse ++ (sources init).reverse) =
          wordAt isWord part.reverse := by
        rw [sources, List.flatMap_singleton]
        exact wordAt_reverse_append filled _
      rw [behind, source]
      exact .of_replaced ends.symm

theorem Scanned.agree_right (closing : α) (inner : List α) (opens : isWord opening = false)
    (scanned : Scanned (bounded isWord body) [] text (former ++ others)) :
    Agree (wordAt isWord (sources former).reverse)
      (wordAt isWord (results (opening :: (inner ++ [closing])) others))
      (wordAt isWord (sources others)) := by
  cases others with
  | nil => exact ⟨fun _ => rfl, nofun⟩
  | cons piece others =>
    cases piece with
    | kept unit => exact ⟨fun _ => rfl, id⟩
    | found part =>
      have written : wordAt isWord (results (opening :: (inner ++ [closing]))
          (Piece.found part :: others)) = false := by
        simp [results, Piece.written, wordAt, opens]
      rw [written]
      obtain ⟨filled, rest, split, here⟩ := scanned.drop.of_found
      obtain ⟨starts, -, -⟩ := (matches_bounded_iff filled).mp here
      rw [split, wordAt_append filled]
      rw [List.append_nil] at starts
      exact .of_replaced starts

end Neighbours

/-! ## One expression after the other -/

/-- A body whose matches are no part of the replacement. -/
structure Token (opening closing : α) (inner : List α) (body : RegExp α) : Prop where
  isPlain : body.plain = true
  noOpening : body.refuses opening = true
  noClosing : body.refuses closing = true
  longer : inner.length < body.least

/-- A body whose matches begin and end with letters of words. -/
structure Solid (isWord : α → Bool) (body : RegExp α) : Prop where
  opens : body.OpensWith (isWord · = true)
  closes : body.ClosesWith (isWord · = true)

theorem Solid.ends {isWord : α → Bool} {body : RegExp α} (solid : Solid isWord body)
    {before text behind : List α} (filled : text ≠ [])
    (matched : body.Matches before text behind) :
    wordAt isWord text = true ∧ wordAt isWord text.reverse = true := by
  constructor
  · obtain ⟨letter, rest, rfl⟩ := List.exists_cons_of_ne_nil filled
    exact solid.opens.head matched letter rfl
  · obtain ⟨init, letter, rfl⟩ := (List.eq_nil_or_concat text).resolve_left filled
    rw [List.concat_eq_append] at matched ⊢
    rw [List.reverse_append]
    exact solid.closes.last matched letter (List.getLast?_concat)

/-- The expression matches nowhere in the text. -/
def Absent (expression : RegExp α) (text : List α) : Prop :=
  ∀ front middle back, text = front ++ middle ++ back →
    ¬ expression.Matches front.reverse middle back

/-- The expression matches a part of the text in the middle. -/
def Contains (expression : RegExp α) (front text back : List α) : Prop :=
  ∃ former middle latter, text = former ++ middle ++ latter ∧
    expression.Matches (front ++ former).reverse middle (latter ++ back)

/-- `text.replace(expression, replacement)` for each of the expressions. -/
def replaceEach (isWord : α → Bool) (replacement : List α) (bodies : List (RegExp α))
    (text : List α) : List α :=
  bodies.foldl (fun text body => (bounded isWord body).replaceAll replacement text) text

section Tokens

variable {opening closing : α} {inner : List α} {isWord : α → Bool} {body body' : RegExp α}

theorem Token.clean (token : Token opening closing inner body) {before text behind : List α}
    (matched : body.Matches before text behind) : Clean opening closing inner text where
  longer := Nat.lt_of_lt_of_le token.longer (least_le_length matched)
  noOpening := not_mem_of_refuses token.noOpening matched
  noClosing := not_mem_of_refuses token.noClosing matched

theorem Clean.ne_nil {text : List α} (clean : Clean opening closing inner text) : text ≠ [] := by
  rintro rfl
  exact absurd clean.longer (Nat.not_lt_zero _)

theorem Token.filled (token : Token opening closing inner body) :
    (bounded isWord body).Filled := by
  intro before behind matched
  exact (token.clean (matches_of_bounded matched)).ne_nil rfl

section Scans

variable {text middle : List α} {former others : List (Piece α)}

/-- What matches in what is written matched in the source. -/
theorem Scanned.matches_source (brackets : isWord opening = false ∧ isWord closing = false)
    (token : Token opening closing inner body')
    (scanned : Scanned (bounded isWord body) [] text (former ++ (middle.map .kept ++ others)))
    (matched : (bounded isWord body').Matches
      (results (opening :: (inner ++ [closing])) former).reverse middle
      (results (opening :: (inner ++ [closing])) others)) :
    (bounded isWord body').Matches (sources former).reverse middle (sources others) := by
  have here := matches_of_bounded matched
  have some := (token.clean here).ne_nil
  obtain ⟨starts, -, ends⟩ := (matches_bounded_iff some).mp matched
  have left := scanned.agree_left opening inner brackets.2
  rw [← List.append_assoc] at scanned
  have right := scanned.agree_right closing inner brackets.1
  rw [sources_append, sources_kept, wordAt_append some] at left
  rw [sources_append, sources_kept, List.reverse_append, wordAt_reverse_append some] at right
  exact (matches_bounded_iff some).mpr ⟨(left.boundary starts.symm).symm,
    matches_of_plain token.isPlain here _ _, right.boundary ends⟩

/-- A match in the source that is kept matches in what is written. -/
theorem Scanned.matches_results (brackets : isWord opening = false ∧ isWord closing = false)
    (token : Token opening closing inner body') (solid : Solid isWord body')
    (scanned : Scanned (bounded isWord body) [] text (former ++ (middle.map .kept ++ others)))
    (matched : (bounded isWord body').Matches (sources former).reverse middle (sources others)) :
    (bounded isWord body').Matches
      (results (opening :: (inner ++ [closing])) former).reverse middle
      (results (opening :: (inner ++ [closing])) others) := by
  have here := matches_of_bounded matched
  have some := (token.clean here).ne_nil
  obtain ⟨starts, -, ends⟩ := (matches_bounded_iff some).mp matched
  have left := scanned.agree_left opening inner brackets.2
  rw [← List.append_assoc] at scanned
  have right := scanned.agree_right closing inner brackets.1
  rw [sources_append, sources_kept, wordAt_append some] at left
  rw [sources_append, sources_kept, List.reverse_append, wordAt_reverse_append some] at right
  obtain ⟨first, last⟩ := solid.ends some here
  refine (matches_bounded_iff some).mpr ⟨?_, matches_of_plain token.isPlain here _ _, ?_⟩
  · rwa [left.same first]
  · rwa [right.same last]

end Scans

/-! ### Nothing is found again -/

theorem absent_replaceAll_of_absent (brackets : isWord opening = false ∧ isWord closing = false)
    (token : Token opening closing inner body) (token' : Token opening closing inner body')
    {text : List α} (absent : Absent (bounded isWord body') text) :
    Absent (bounded isWord body')
      ((bounded isWord body).replaceAll (opening :: (inner ++ [closing])) text) := by
  intro front middle back split matched
  have scanned : Scanned (bounded isWord body) [] text _ := scanned_scan token.filled text
  have clean := token'.clean (matches_of_bounded matched)
  obtain ⟨former, others, pieces, rfl, rfl⟩ := pieces_of_occurrence clean split
  rw [pieces] at scanned
  refine absent (sources former) middle (sources others) ?_
    (scanned.matches_source brackets token' matched)
  rw [← scanned.sources_eq, sources_append, sources_append, sources_kept, List.append_assoc]

theorem absent_replaceAll (brackets : isWord opening = false ∧ isWord closing = false)
    (token : Token opening closing inner body) (text : List α) :
    Absent (bounded isWord body)
      ((bounded isWord body).replaceAll (opening :: (inner ++ [closing])) text) := by
  intro front middle back split matched
  have scanned : Scanned (bounded isWord body) [] text _ := scanned_scan token.filled text
  have clean := token.clean (matches_of_bounded matched)
  obtain ⟨former, others, pieces, rfl, rfl⟩ := pieces_of_occurrence clean split
  rw [pieces] at scanned
  have here := scanned.matches_source brackets token matched
  have later := scanned.drop
  rw [sources_append, sources_kept] at later
  refine @Scanned.nowhere _ _ _ _ _ [] _ _ _ later (List.append_nil _).symm clean.ne_nil ?_
  rwa [List.append_nil]

theorem Scanned.results_of_absent {expression : RegExp α} {before behind replacement : List α}
    {pieces : List (Piece α)} (scanned : Scanned expression before behind pieces)
    (absent : ∀ front middle back, behind = front ++ middle ++ back →
      ¬ expression.Matches (front.reverse ++ before) middle back) :
    results replacement pieces = behind := by
  induction scanned with
  | done => rfl
  | @kept before behind pieces next nowhere later ih =>
    refine congrArg (next :: ·) (ih fun front middle back split matched => ?_)
    refine absent (next :: front) middle back (congrArg (next :: ·) split) ?_
    rwa [List.reverse_cons, List.append_assoc]
  | found filled here later ih => exact absurd here (absent [] _ _ rfl)

theorem replaceAll_of_absent {expression : RegExp α} {text : List α} (filled : expression.Filled)
    (absent : Absent expression text) (replacement : List α) :
    expression.replaceAll replacement text = text := by
  refine (scanned_scan filled text).results_of_absent fun front middle back split => ?_
  rw [List.append_nil]
  exact absent front middle back split

section Each

variable {bodies : List (RegExp α)}

theorem absent_replaceEach_of_absent (brackets : isWord opening = false ∧ isWord closing = false)
    (tokens : ∀ body ∈ bodies, Token opening closing inner body)
    (token' : Token opening closing inner body') {text : List α}
    (absent : Absent (bounded isWord body') text) :
    Absent (bounded isWord body')
      (replaceEach isWord (opening :: (inner ++ [closing])) bodies text) := by
  induction bodies generalizing text with
  | nil => exact absent
  | cons body bodies ih =>
    obtain ⟨token, tokens⟩ := List.forall_mem_cons.mp tokens
    exact ih tokens (absent_replaceAll_of_absent brackets token token' absent)

theorem absent_replaceEach (brackets : isWord opening = false ∧ isWord closing = false)
    (tokens : ∀ body ∈ bodies, Token opening closing inner body) (text : List α) :
    ∀ body ∈ bodies, Absent (bounded isWord body)
      (replaceEach isWord (opening :: (inner ++ [closing])) bodies text) := by
  induction bodies generalizing text with
  | nil => nofun
  | cons body bodies ih =>
    obtain ⟨token, tokens⟩ := List.forall_mem_cons.mp tokens
    refine List.forall_mem_cons.mpr ⟨?_, ih tokens _⟩
    exact absent_replaceEach_of_absent brackets tokens token (absent_replaceAll brackets token text)

theorem replaceEach_of_absent (tokens : ∀ body ∈ bodies, Token opening closing inner body)
    {text : List α} (absent : ∀ body ∈ bodies, Absent (bounded isWord body) text)
    (replacement : List α) : replaceEach isWord replacement bodies text = text := by
  induction bodies with
  | nil => rfl
  | cons body bodies ih =>
    obtain ⟨token, tokens⟩ := List.forall_mem_cons.mp tokens
    obtain ⟨here, absent⟩ := List.forall_mem_cons.mp absent
    rw [replaceEach, List.foldl_cons, replaceAll_of_absent token.filled here]
    exact ih tokens absent

theorem replaceEach_replaceEach (brackets : isWord opening = false ∧ isWord closing = false)
    (tokens : ∀ body ∈ bodies, Token opening closing inner body) (text : List α) :
    replaceEach isWord (opening :: (inner ++ [closing])) bodies
        (replaceEach isWord (opening :: (inner ++ [closing])) bodies text) =
      replaceEach isWord (opening :: (inner ++ [closing])) bodies text :=
  replaceEach_of_absent tokens (absent_replaceEach brackets tokens text) _

/-! ### What is left -/

/-- What is left stood in the text, and none of the expressions matched a part of it there. -/
theorem exists_of_replaceEach (brackets : isWord opening = false ∧ isWord closing = false)
    (tokens : ∀ body ∈ bodies, Token opening closing inner body) {text secret front back : List α}
    (clean : Clean opening closing inner secret)
    (left : replaceEach isWord (opening :: (inner ++ [closing])) bodies text =
      front ++ secret ++ back) :
    ∃ front' back', text = front' ++ secret ++ back' ∧ ∀ body ∈ bodies, Solid isWord body →
      ¬ Contains (bounded isWord body) front' secret back' := by
  induction bodies generalizing text with
  | nil => exact ⟨front, back, left, nofun⟩
  | cons body bodies ih =>
    obtain ⟨token, tokens⟩ := List.forall_mem_cons.mp tokens
    obtain ⟨front', back', split, free⟩ := ih tokens left
    have scanned : Scanned (bounded isWord body) [] text _ := scanned_scan token.filled text
    obtain ⟨former, others, pieces, rfl, rfl⟩ := pieces_of_occurrence clean split
    rw [pieces] at scanned
    refine ⟨sources former, sources others, ?_, List.forall_mem_cons.mpr ⟨?_, ?_⟩⟩
    · rw [← scanned.sources_eq, sources_append, sources_append, sources_kept, List.append_assoc]
    · rintro - ⟨prior, middle, latter, split', matched⟩
      have some := (token.clean (matches_of_bounded matched)).ne_nil
      have later := scanned.drop
      rw [sources_append, sources_kept] at later
      refine later.nowhere split' some ?_
      rwa [List.append_nil, ← List.reverse_append]
    · rintro body' member solid ⟨prior, middle, latter, rfl, matched⟩
      refine free body' member solid ⟨prior, middle, latter, rfl, ?_⟩
      have parts : former ++ ((prior ++ middle ++ latter).map Piece.kept ++ others) =
          (former ++ prior.map .kept) ++ (middle.map .kept ++ (latter.map .kept ++ others)) := by
        simp
      rw [parts] at scanned
      have written := scanned.matches_results brackets (tokens body' member) solid (by
        rw [sources_append, sources_append, sources_kept, sources_kept]
        exact matched)
      rwa [results_append, results_append, results_kept, results_kept] at written

end Each

end Tokens

/-! ### What is not touched -/

/-- A match of the expression shares letters with the text in the middle. -/
def Touches (expression : RegExp α) (front text back : List α) : Prop :=
  ∃ former middle latter, front ++ text ++ back = former ++ middle ++ latter ∧
    expression.Matches former.reverse middle latter ∧
    former.length < (front ++ text).length ∧ front.length < (former ++ middle).length

section Untouched

variable {expression : RegExp α} {before text back : List α} {pieces : List (Piece α)}

theorem Scanned.kept_of_untouched_start
    (scanned : Scanned expression before (text ++ back) pieces)
    (untouched : ∀ former middle latter, text ++ back = former ++ middle ++ latter →
      expression.Matches (former.reverse ++ before) middle latter →
      text.length ≤ former.length ∨ (former ++ middle).length = 0) :
    ∃ others, pieces = text.map .kept ++ others ∧ sources others = back := by
  induction text generalizing before pieces with
  | nil => exact ⟨pieces, rfl, scanned.sources_eq⟩
  | cons letter text ih =>
    generalize whole : letter :: text ++ back = behind at scanned
    cases scanned with
    | done => cases whole
    | @kept _ behind pieces next nowhere later =>
      obtain ⟨rfl, rfl⟩ := List.cons.inj whole
      obtain ⟨others, rfl, rest⟩ := ih later fun former middle latter split matched => by
        rcases untouched (letter :: former) middle latter (congrArg (letter :: ·) split)
          (by rwa [List.reverse_cons, List.append_assoc]) with far | none
        · exact .inl (Nat.le_of_succ_le_succ far)
        · cases none
      exact ⟨others, rfl, rest⟩
    | @found _ part behind pieces filled here later =>
      rcases untouched [] part behind whole here with far | none
      · cases far
      · exact absurd (List.length_eq_zero_iff.mp none) filled

/-- A text that no match touches is kept. -/
theorem Scanned.kept_of_untouched {front : List α}
    (scanned : Scanned expression before (front ++ text ++ back) pieces) (some : text ≠ [])
    (untouched : ∀ former middle latter, front ++ text ++ back = former ++ middle ++ latter →
      expression.Matches (former.reverse ++ before) middle latter →
      (front ++ text).length ≤ former.length ∨ (former ++ middle).length ≤ front.length) :
    ∃ former others, pieces = former ++ (text.map .kept ++ others) ∧ sources former = front ∧
      sources others = back := by
  induction pieces generalizing before front with
  | nil =>
    have nothing := scanned.sources_eq
    simp [sources, some] at nothing
  | cons piece pieces ih =>
    cases front with
    | nil =>
      obtain ⟨others, same, rest⟩ := scanned.kept_of_untouched_start
        fun former middle latter split matched =>
          (untouched former middle latter split matched).imp id Nat.le_zero.mp
      exact ⟨[], others, same, rfl, rest⟩
    | cons letter front =>
      generalize whole : letter :: front ++ text ++ back = behind at scanned
      cases scanned with
      | @kept _ behind pieces next nowhere later =>
        obtain ⟨rfl, rfl⟩ := List.cons.inj whole
        obtain ⟨former, others, rfl, rfl, rest⟩ := ih later
          fun former middle latter split matched => by
            rcases untouched (letter :: former) middle latter (congrArg (letter :: ·) split)
              (by rwa [List.reverse_cons, List.append_assoc]) with far | near
            · exact .inl (Nat.le_of_succ_le_succ far)
            · exact .inr (Nat.le_of_succ_le_succ near)
        exact ⟨.kept letter :: former, others, rfl, rfl, rest⟩
      | @found _ part behind pieces filled here later =>
        rcases untouched [] part behind whole here with far | near
        · cases far
        · have initial : part <+: letter :: front :=
            List.prefix_of_prefix_length_le ⟨behind, whole.symm⟩
              ⟨text ++ back, (List.append_assoc _ _ _).symm⟩ near
          obtain ⟨front', same⟩ := initial
          rw [← same, List.append_assoc, List.append_assoc] at whole
          have rest := List.append_cancel_left whole
          rw [← List.append_assoc] at rest
          subst rest
          obtain ⟨former, others, rfl, rfl, others'⟩ := ih later
            fun former middle latter split matched => by
              have shared := untouched (part ++ former) middle latter
                (by rw [← same]; simp only [List.append_assoc] at split ⊢; rw [split])
                (by rwa [List.reverse_append, List.append_assoc])
              rw [← same] at shared
              simp only [List.length_append] at shared ⊢
              omega
          exact ⟨.found part :: former, others, rfl, same, others'⟩

/-- What is further on in the source is further on in what is written. -/
theorem Scanned.length_sources_lt {replacement text : List α}
    {former others former' : List (Piece α)}
    (scanned : Scanned expression before text (former ++ others)) {others' : List (Piece α)}
    (same : former ++ others = former' ++ others')
    (shorter : (results replacement former').length < (results replacement former).length) :
    (sources former').length < (sources former).length := by
  rcases List.append_eq_append_iff.mp same with ⟨more, rfl, -⟩ | ⟨more, rfl, rfl⟩
  · rw [results_append, List.length_append] at shorter
    omega
  · cases more with
    | nil =>
      rw [List.append_nil] at shorter
      exact absurd shorter (Nat.lt_irrefl _)
    | cons piece more =>
      rw [List.append_assoc] at scanned
      have some : 0 < piece.source.length := by
        cases piece with
        | kept unit => exact Nat.one_pos
        | found part => exact List.length_pos_of_ne_nil scanned.drop.of_found.1
      rw [sources_append, List.length_append, sources, sources, List.flatMap_cons,
        List.length_append]
      omega

end Untouched

section Tokens

variable {opening closing : α} {inner : List α} {isWord : α → Bool} {body body' : RegExp α}

theorem Scanned.touches_source (brackets : isWord opening = false ∧ isWord closing = false)
    (token : Token opening closing inner body') {text secret : List α}
    {former others : List (Piece α)}
    (scanned : Scanned (bounded isWord body) [] text (former ++ (secret.map .kept ++ others)))
    (touches : Touches (bounded isWord body') (results (opening :: (inner ++ [closing])) former)
      secret (results (opening :: (inner ++ [closing])) others)) :
    Touches (bounded isWord body') (sources former) secret (sources others) := by
  obtain ⟨front, middle, back, split, matched, near, far⟩ := touches
  have clean := token.clean (matches_of_bounded matched)
  have written : results (opening :: (inner ++ [closing]))
      (former ++ (secret.map .kept ++ others)) = front ++ middle ++ back := by
    rw [results_append, results_append, results_kept, ← List.append_assoc, split]
  obtain ⟨former', others', pieces, rfl, rfl⟩ := pieces_of_occurrence clean written
  have here := scanned
  rw [pieces] at here
  refine ⟨sources former', middle, sources others', ?_,
    here.matches_source brackets token matched, ?_, ?_⟩
  · have same := congrArg sources pieces
    simpa only [sources_append, sources_kept, List.append_assoc] using same
  · rw [← List.append_assoc] at scanned pieces
    have shorter := scanned.length_sources_lt pieces (by
      rwa [results_append, results_kept])
    rwa [sources_append, sources_kept] at shorter
  · rw [← List.append_assoc former'] at here pieces
    have shorter := here.length_sources_lt pieces.symm (by
      rwa [results_append, results_kept])
    rwa [sources_append, sources_kept] at shorter

/-- What no match touches is left. -/
theorem exists_replaceEach_of_untouched {bodies : List (RegExp α)}
    (brackets : isWord opening = false ∧ isWord closing = false)
    (tokens : ∀ body ∈ bodies, Token opening closing inner body) {secret front back : List α}
    (some : secret ≠ [])
    (untouched : ∀ body ∈ bodies, ¬ Touches (bounded isWord body) front secret back) :
    ∃ front' back', replaceEach isWord (opening :: (inner ++ [closing])) bodies
      (front ++ secret ++ back) = front' ++ secret ++ back' := by
  induction bodies generalizing front back with
  | nil => exact ⟨front, back, rfl⟩
  | cons body bodies ih =>
    obtain ⟨token, tokens⟩ := List.forall_mem_cons.mp tokens
    obtain ⟨here, untouched⟩ := List.forall_mem_cons.mp untouched
    have scanned : Scanned (bounded isWord body) [] (front ++ secret ++ back) _ :=
      scanned_scan token.filled _
    obtain ⟨former, others, pieces, rfl, rfl⟩ := scanned.kept_of_untouched some
      fun former middle latter split matched => by
        rw [List.append_nil] at matched
        by_contra near
        obtain ⟨near, far⟩ := not_or.mp near
        exact here ⟨former, middle, latter, split, matched, Nat.lt_of_not_le near,
          Nat.lt_of_not_le far⟩
    rw [pieces] at scanned
    have written : (bounded isWord body).replaceAll (opening :: (inner ++ [closing]))
        (sources former ++ secret ++ sources others) =
          results (opening :: (inner ++ [closing])) former ++ secret ++
            results (opening :: (inner ++ [closing])) others := by
      change results _ (scan _ _) = _
      rw [pieces, results_append, results_append, results_kept, List.append_assoc]
    rw [replaceEach, List.foldl_cons, written]
    exact ih tokens fun body' member touches =>
      untouched body' member (scanned.touches_source brackets (tokens body' member) touches)

end Tokens

end Ancore.Library.RegExp

