import Mathlib.Data.List.Basic

/-! # Regular expressions

Expressions as they are searched for in a text by backtracking: what matches depends on what stands
before it and behind it, and of several matches the first one that is tried counts.  `Matches` says
what an expression matches, `run` tries it out, and the two agree (`mem_run_iff`).  A search goes
through a text and keeps what stands between the matches (`scanned_scan`).

What stands before a place is a list that begins with the nearest letter.
-/

namespace Ancore.Library

inductive RegExp (α : Type) where
  | empty
  | letter (accepts : α → Bool)
  /-- Nothing, where this holds of what stands before and behind. -/
  | assertion (holds : List α → List α → Bool)
  | sequence (first second : RegExp α)
  | either (first second : RegExp α)
  | many (greedy : Bool) (body : RegExp α)

namespace RegExp

variable {α : Type}

/-! ## Matches -/

/-- One after the other, none of them of nothing. -/
inductive Repeated (once : List α → List α → List α → Prop) :
    List α → List α → List α → Prop where
  | none {before behind : List α} : Repeated once before [] behind
  | more {before first rest behind : List α} (filled : first ≠ [])
    (here : once before first (rest ++ behind))
    (later : Repeated once (first.reverse ++ before) rest behind) :
    Repeated once before (first ++ rest) behind

/-- The expression matches the text in the middle. -/
def Matches : RegExp α → List α → List α → List α → Prop
  | empty, _, text, _ => text = []
  | letter accepts, _, text, _ => ∃ letter, accepts letter = true ∧ text = [letter]
  | assertion holds, before, text, behind => text = [] ∧ holds before behind = true
  | sequence first second, before, text, behind => ∃ front back, text = front ++ back ∧
      first.Matches before front (back ++ behind) ∧
        second.Matches (front.reverse ++ before) back behind
  | either first second, before, text, behind =>
    first.Matches before text behind ∨ second.Matches before text behind
  | many _ body, before, text, behind => Repeated body.Matches before text behind

/-! ## Trying out -/

/-- The rounds of a repetition: each takes a letter at least. -/
def rounds (greedy : Bool) (body : List α × List α → List (List α × List α)) :
    ℕ → List α × List α → List (List α × List α)
  | 0, place => [place]
  | fuel + 1, place =>
    let more := ((body place).filter fun next => next.2.length < place.2.length).flatMap
      (rounds greedy body fuel)
    if greedy then more ++ [place] else place :: more

/-- The places at which a match can end, in the order in which they are tried. -/
def run : RegExp α → List α × List α → List (List α × List α)
  | empty, place => [place]
  | letter accepts, place =>
    match place.2 with
    | [] => []
    | next :: rest => if accepts next then [(next :: place.1, rest)] else []
  | assertion holds, place => if holds place.1 place.2 then [place] else []
  | sequence first second, place => (first.run place).flatMap second.run
  | either first second, place => first.run place ++ second.run place
  | many greedy body, place => rounds greedy body.run place.2.length place

section Running

variable {expression : RegExp α} {greedy : Bool}

theorem mem_rounds_iff {body : RegExp α}
    (runs : ∀ place stop, stop ∈ body.run place ↔ ∃ text, place.2 = text ++ stop.2 ∧
      stop.1 = text.reverse ++ place.1 ∧ body.Matches place.1 text stop.2)
    {fuel : ℕ} {place stop : List α × List α} (enough : place.2.length ≤ fuel) :
    stop ∈ rounds greedy body.run fuel place ↔ ∃ text, place.2 = text ++ stop.2 ∧
      stop.1 = text.reverse ++ place.1 ∧ Repeated body.Matches place.1 text stop.2 := by
  induction fuel generalizing place with
  | zero =>
    have nothing : place.2 = [] := List.length_eq_zero_iff.mp (Nat.le_zero.mp enough)
    rw [rounds, List.mem_singleton]
    constructor
    · rintro rfl
      exact ⟨[], rfl, rfl, .none⟩
    · rintro ⟨text, split, before, -⟩
      rw [nothing] at split
      obtain ⟨rfl, rest⟩ := List.append_eq_nil_iff.mp split.symm
      exact Prod.ext before (rest.trans nothing.symm)
  | succ fuel ih =>
    have step : stop ∈ rounds greedy body.run (fuel + 1) place ↔ stop = place ∨
        ∃ next ∈ body.run place, next.2.length < place.2.length ∧
          stop ∈ rounds greedy body.run fuel next := by
      rw [rounds]
      cases greedy with
      | true =>
        simp only [if_true, List.mem_append, List.mem_singleton, List.mem_flatMap, List.mem_filter,
          decide_eq_true_eq, and_assoc]
        exact or_comm
      | false =>
        simp only [Bool.false_eq_true, if_false, List.mem_cons, List.mem_flatMap, List.mem_filter,
          decide_eq_true_eq, and_assoc]
    rw [step]
    constructor
    · rintro (rfl | ⟨next, taken, shorter, later⟩)
      · exact ⟨[], rfl, rfl, .none⟩
      · obtain ⟨first, split, before, here⟩ := (runs place next).mp taken
        obtain ⟨rest, split', before', others⟩ := (ih (by omega)).mp later
        refine ⟨first ++ rest, by rw [split, split', List.append_assoc], ?_, ?_⟩
        · rw [before', before, List.reverse_append, List.append_assoc]
        · refine .more ?_ (split' ▸ here) (before ▸ others)
          rintro rfl
          rw [split] at shorter
          exact absurd shorter (Nat.lt_irrefl _)
    · rintro ⟨text, split, before, repeated⟩
      cases repeated with
      | none => exact .inl (Prod.ext before split.symm)
      | @more _ first rest _ filled here later =>
        rw [List.append_assoc] at split
        have shorter : (rest ++ stop.2).length < place.2.length := by
          have length := List.length_pos_of_ne_nil filled
          rw [split, List.length_append, List.length_append, List.length_append]
          omega
        refine .inr ⟨(first.reverse ++ place.1, rest ++ stop.2), (runs _ _).mpr
          ⟨first, split, rfl, here⟩, shorter, (ih (by dsimp only; omega)).mpr
          ⟨rest, rfl, ?_, later⟩⟩
        rw [before, List.reverse_append, List.append_assoc]

/-- What is tried out is what matches. -/
theorem mem_run_iff (expression : RegExp α) (place stop : List α × List α) :
    stop ∈ expression.run place ↔ ∃ text, place.2 = text ++ stop.2 ∧
      stop.1 = text.reverse ++ place.1 ∧ expression.Matches place.1 text stop.2 := by
  induction expression generalizing place stop with
  | empty =>
    rw [run, List.mem_singleton]
    constructor
    · rintro rfl
      exact ⟨[], rfl, rfl, rfl⟩
    · rintro ⟨_, split, before, rfl⟩
      exact Prod.ext before split.symm
  | letter accepts =>
    obtain ⟨before, behind⟩ := place
    rw [run]
    cases behind with
    | nil =>
      refine iff_of_false List.not_mem_nil ?_
      rintro ⟨_, split, -, letter, -, rfl⟩
      cases split
    | cons next rest =>
      dsimp only
      constructor
      · intro member
        split_ifs at member with accepted
        · rw [List.mem_singleton.mp member]
          exact ⟨[next], rfl, rfl, next, accepted, rfl⟩
        · cases member
      · rintro ⟨_, split, before', letter, accepted, rfl⟩
        obtain ⟨rfl, rfl⟩ := List.cons.inj split
        rw [if_pos accepted, List.mem_singleton]
        exact Prod.ext before' rfl
  | assertion holds =>
    rw [run]
    constructor
    · intro member
      split_ifs at member with held
      · rw [List.mem_singleton.mp member]
        exact ⟨[], rfl, rfl, rfl, held⟩
      · cases member
    · rintro ⟨_, split, before, rfl, held⟩
      have same : stop = place := Prod.ext before split.symm
      rw [← same] at held ⊢
      rw [if_pos held]
      exact List.mem_singleton_self _
  | sequence first second ihFirst ihSecond =>
    rw [run, List.mem_flatMap]
    constructor
    · rintro ⟨next, taken, later⟩
      obtain ⟨front, split, before, here⟩ := (ihFirst place next).mp taken
      obtain ⟨back, split', before', there⟩ := (ihSecond next stop).mp later
      refine ⟨front ++ back, by rw [split, split', List.append_assoc], ?_, front, back, rfl,
        split' ▸ here, before ▸ there⟩
      rw [before', before, List.reverse_append, List.append_assoc]
    · rintro ⟨_, split, before, front, back, rfl, here, there⟩
      rw [List.append_assoc] at split
      refine ⟨(front.reverse ++ place.1, back ++ stop.2), (ihFirst _ _).mpr
        ⟨front, split, rfl, here⟩, (ihSecond _ _).mpr ⟨back, rfl, ?_, there⟩⟩
      rw [before, List.reverse_append, List.append_assoc]
  | either first second ihFirst ihSecond =>
    rw [run, List.mem_append, ihFirst, ihSecond, ← exists_or]
    refine exists_congr fun text => ?_
    rw [← and_or_left, ← and_or_left]
    rfl
  | many greedy body ih =>
    rw [run, mem_rounds_iff ih (Nat.le_refl _)]
    rfl

end Running

/-! ## Expressions -/

/-- The letters of a word, one after the other. -/
def word (letters : List (α → Bool)) : RegExp α :=
  letters.foldr (fun accepts rest => sequence (letter accepts) rest) empty

def optional (body : RegExp α) : RegExp α := either body empty

def times : ℕ → RegExp α → RegExp α
  | 0, _ => empty
  | count + 1, body => sequence body (times count body)

/-- So many, and more. -/
def atLeast (count : ℕ) (body : RegExp α) : RegExp α := sequence (times count body) (many true body)

def upTo : ℕ → RegExp α → RegExp α
  | 0, _ => empty
  | count + 1, body => optional (sequence body (upTo count body))

def between (least most : ℕ) (body : RegExp α) : RegExp α :=
  sequence (times least body) (upTo (most - least) body)

def alternatives (expressions : List (RegExp α)) : RegExp α :=
  expressions.foldr either (assertion fun _ _ => false)

/-- `\b` -/
def isBoundary (isWord : α → Bool) (before behind : List α) : Bool :=
  before.head?.any isWord != behind.head?.any isWord

def boundary (isWord : α → Bool) : RegExp α := assertion (isBoundary isWord)

/-! ### What they match -/

section Chunks

variable {body : RegExp α} {chunks : List (List α)}

theorem matches_times (each : ∀ chunk ∈ chunks, ∀ before behind, body.Matches before chunk behind)
    (before behind : List α) :
    (times chunks.length body).Matches before chunks.flatten behind := by
  induction chunks generalizing before with
  | nil => rfl
  | cons chunk chunks ih =>
    obtain ⟨here, later⟩ := List.forall_mem_cons.mp each
    exact ⟨chunk, chunks.flatten, List.flatten_cons, here _ _, ih later _⟩

theorem matches_many (filled : ∀ chunk ∈ chunks, chunk ≠ [])
    (each : ∀ chunk ∈ chunks, ∀ before behind, body.Matches before chunk behind)
    (greedy : Bool) (before behind : List α) :
    (many greedy body).Matches before chunks.flatten behind := by
  change Repeated body.Matches before chunks.flatten behind
  induction chunks generalizing before with
  | nil => exact .none
  | cons chunk chunks ih =>
    obtain ⟨here, later⟩ := List.forall_mem_cons.mp each
    obtain ⟨some, filled⟩ := List.forall_mem_cons.mp filled
    exact .more some (here _ _) (ih filled later _)

theorem matches_upTo {count : ℕ} (few : chunks.length ≤ count)
    (each : ∀ chunk ∈ chunks, ∀ before behind, body.Matches before chunk behind)
    (before behind : List α) : (upTo count body).Matches before chunks.flatten behind := by
  induction chunks generalizing before count with
  | nil =>
    cases count with
    | zero => rfl
    | succ count => exact .inr rfl
  | cons chunk chunks ih =>
    obtain ⟨here, later⟩ := List.forall_mem_cons.mp each
    cases count with
    | zero => cases few
    | succ count =>
      exact .inl ⟨chunk, chunks.flatten, List.flatten_cons, here _ _,
        ih (Nat.le_of_succ_le_succ few) later _⟩

/-- The first chunks, and the others. -/
theorem matches_sequence_times {rest : RegExp α} {count : ℕ} (enough : count ≤ chunks.length)
    (each : ∀ chunk ∈ chunks, ∀ before behind, body.Matches before chunk behind)
    (others : ∀ before behind, rest.Matches before (chunks.drop count).flatten behind)
    (before behind : List α) :
    (sequence (times count body) rest).Matches before chunks.flatten behind := by
  refine ⟨(chunks.take count).flatten, (chunks.drop count).flatten, ?_, ?_, others _ _⟩
  · rw [← List.flatten_append, List.take_append_drop]
  · have taken : ∀ chunk ∈ chunks.take count, ∀ before behind, body.Matches before chunk behind :=
      fun chunk member => each chunk (List.mem_of_mem_take member)
    have first := matches_times taken before ((chunks.drop count).flatten ++ behind)
    rwa [List.length_take, Nat.min_eq_left enough] at first

theorem matches_atLeast {count : ℕ} (enough : count ≤ chunks.length)
    (filled : ∀ chunk ∈ chunks, chunk ≠ [])
    (each : ∀ chunk ∈ chunks, ∀ before behind, body.Matches before chunk behind) :
    ∀ before behind, (atLeast count body).Matches before chunks.flatten behind :=
  matches_sequence_times enough each
    (matches_many (fun chunk member => filled chunk (List.mem_of_mem_drop member))
      (fun chunk member => each chunk (List.mem_of_mem_drop member)) true)

theorem matches_between {fewest most : ℕ} (enough : fewest ≤ chunks.length)
    (few : chunks.length ≤ most)
    (each : ∀ chunk ∈ chunks, ∀ before behind, body.Matches before chunk behind) :
    ∀ before behind, (between fewest most body).Matches before chunks.flatten behind := by
  refine matches_sequence_times enough each (matches_upTo ?_ fun chunk member =>
    each chunk (List.mem_of_mem_drop member))
  rw [List.length_drop]
  exact Nat.sub_le_sub_right few fewest

end Chunks

/-- The letters of a text, one by one. -/
def units (text : List α) : List (List α) := text.map ([·])

theorem length_units (text : List α) : (units text).length = text.length := List.length_map _

theorem flatten_units (text : List α) : (units text).flatten = text := by
  induction text with
  | nil => rfl
  | cons letter text ih => exact congrArg (letter :: ·) ih

theorem filled_units (text : List α) : ∀ unit ∈ units text, unit ≠ [] := by
  intro unit member
  obtain ⟨letter, -, rfl⟩ := List.mem_map.mp member
  exact List.cons_ne_nil _ _

theorem matches_units {accepts : α → Bool} {text : List α}
    (accepted : ∀ letter ∈ text, accepts letter = true) :
    ∀ unit ∈ units text, ∀ before behind, (letter accepts).Matches before unit behind := by
  intro unit member before behind
  obtain ⟨letter, inText, rfl⟩ := List.mem_map.mp member
  exact ⟨letter, accepted letter inText, rfl⟩

/-! ## Searching -/

inductive Piece (α : Type) where
  | kept (letter : α)
  | found (text : List α)

/-- What the piece is in the text that is searched. -/
def Piece.source : Piece α → List α
  | kept unit => [unit]
  | found text => text

/-- The first match at a place. -/
def firstMatch (expression : RegExp α) (before behind : List α) : Option (List α × List α) :=
  (expression.run (before, behind)).head?

/-- The pieces of a text; behind a match of nothing the search goes on one letter further. -/
def scanFrom (expression : RegExp α) : ℕ → List α → List α → List (Piece α)
  | 0, _, behind => behind.map .kept
  | fuel + 1, before, behind =>
    match expression.firstMatch before behind with
    | some (before', behind') =>
      let text := behind.take (behind.length - behind'.length)
      .found text ::
        if text = [] then
          match behind with
          | [] => []
          | next :: rest => .kept next :: scanFrom expression fuel (next :: before) rest
        else scanFrom expression fuel before' behind'
    | none =>
      match behind with
      | [] => []
      | next :: rest => .kept next :: scanFrom expression fuel (next :: before) rest

def scan (expression : RegExp α) (text : List α) : List (Piece α) :=
  scanFrom expression (text.length + 1) [] text

/-- What the piece is in the text that is written. -/
def Piece.written (replacement : List α) : Piece α → List α
  | kept unit => [unit]
  | found _ => replacement

/-- `text.replace(expression, replacement)` of a global expression. -/
def replaceAll (expression : RegExp α) (replacement text : List α) : List α :=
  (expression.scan text).flatMap (Piece.written replacement)

/-- What the part in the middle matches where the whole matches first. -/
def captureAt (front group back : RegExp α) (place : List α × List α) : Option (List α) :=
  ((front.run place).flatMap fun start => (group.run start).flatMap fun stop =>
    (back.run stop).map fun _ => start.2.take (start.2.length - stop.2.length)).head?

/-- The part in the middle of the first match in a text. -/
def captureFrom (front group back : RegExp α) : List α → List α → Option (List α)
  | before, [] => captureAt front group back (before, [])
  | before, next :: rest =>
    (captureAt front group back (before, next :: rest)).orElse fun _ =>
      captureFrom front group back (next :: before) rest

def capture (front group back : RegExp α) (text : List α) : Option (List α) :=
  captureFrom front group back [] text

/-! ### What a search finds -/

section Scanning

variable {expression : RegExp α}

theorem firstMatch_eq_none_iff {before behind : List α} :
    expression.firstMatch before behind = none ↔
      ∀ text rest, behind = text ++ rest → ¬ expression.Matches before text rest := by
  rw [firstMatch, List.head?_eq_none_iff, List.eq_nil_iff_forall_not_mem]
  constructor
  · intro nowhere text rest split matched
    exact nowhere (text.reverse ++ before, rest)
      ((mem_run_iff _ _ _).mpr ⟨text, split, rfl, matched⟩)
  · intro unmatched stop member
    obtain ⟨text, split, -, matched⟩ := (mem_run_iff _ _ _).mp member
    exact unmatched text stop.2 split matched

theorem matches_of_firstMatch {before behind before' behind' : List α}
    (first : expression.firstMatch before behind = some (before', behind')) :
    ∃ text, behind = text ++ behind' ∧ before' = text.reverse ++ before ∧
      expression.Matches before text behind' :=
  (mem_run_iff expression (before, behind) (before', behind')).mp (List.mem_of_head? first)

/-- The expression never matches nothing. -/
def Filled (expression : RegExp α) : Prop :=
  ∀ before behind, ¬ expression.Matches before [] behind

/-- The pieces are matches, and no match starts with a letter that is kept. -/
inductive Scanned (expression : RegExp α) : List α → List α → List (Piece α) → Prop where
  | done {before : List α} : Scanned expression before [] []
  | kept {before behind : List α} {pieces : List (Piece α)} {next : α}
    (nowhere : ∀ text rest, next :: behind = text ++ rest → ¬ expression.Matches before text rest)
    (later : Scanned expression (next :: before) behind pieces) :
    Scanned expression before (next :: behind) (.kept next :: pieces)
  | found {before text behind : List α} {pieces : List (Piece α)} (filled : text ≠ [])
    (here : expression.Matches before text behind)
    (later : Scanned expression (text.reverse ++ before) behind pieces) :
    Scanned expression before (text ++ behind) (.found text :: pieces)

theorem scanned_scanFrom (filled : expression.Filled) {fuel : ℕ} {before behind : List α}
    (enough : behind.length < fuel) :
    Scanned expression before behind (scanFrom expression fuel before behind) := by
  induction fuel generalizing before behind with
  | zero => exact absurd enough (Nat.not_lt_zero _)
  | succ fuel ih =>
    rw [scanFrom.eq_def]
    dsimp only
    cases first : expression.firstMatch before behind with
    | none =>
      dsimp only
      cases behind with
      | nil => exact .done
      | cons next rest =>
        refine .kept (firstMatch_eq_none_iff.mp first) (ih ?_)
        rw [List.length_cons] at enough
        omega
    | some place =>
      obtain ⟨text, rfl, before', matched⟩ := matches_of_firstMatch first
      have some : text ≠ [] := by
        rintro rfl
        exact filled _ _ matched
      have length := List.length_pos_of_ne_nil some
      have taken : (text ++ place.2).take ((text ++ place.2).length - place.2.length) = text := by
        rw [List.length_append, Nat.add_sub_cancel, List.take_left']
        rfl
      dsimp only
      rw [taken, if_neg some, before']
      rw [List.length_append] at enough
      exact .found some matched (ih (by omega))

/-- A text is searched from its start to its end. -/
theorem scanned_scan (filled : expression.Filled) (text : List α) :
    Scanned expression [] text (expression.scan text) :=
  scanned_scanFrom filled (Nat.lt_succ_self _)

end Scanning

end RegExp

end Ancore.Library
