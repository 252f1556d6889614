import Mathlib

/-! # Comma-separated values

The format of RFC 4180 over letters of any type: what a text of records is, with the line at which
each of them starts, and a reader of such texts.
-/

namespace Ancore.Library.Csv

/-- The letters that the format gives a meaning. -/
structure Dialect (α : Type) where
  comma : α
  quote : α
  lineFeed : α
  carriageReturn : α
  distinct : [comma, quote, lineFeed, carriageReturn].Nodup

variable {α : Type} [DecidableEq α] (dialect : Dialect α)

namespace Dialect

/-- A letter that is written only in quotes. -/
def isSpecial (letter : α) : Bool :=
  letter ∈ [dialect.comma, dialect.quote, dialect.lineFeed, dialect.carriageReturn]

/-- A cell in quotes: its quotation marks are doubled. -/
def doubled (cell : List α) : List α :=
  cell.flatMap fun letter => if letter = dialect.quote then [letter, letter] else [letter]

/-! ## The format -/

inductive IsField : List α → List α → Prop where
  | bare {cell : List α} (plain : ∀ letter ∈ cell, dialect.isSpecial letter = false) :
    IsField cell cell
  | quoted (cell : List α) :
    IsField (dialect.quote :: (dialect.doubled cell ++ [dialect.quote])) cell

inductive IsRecord : List α → List (List α) → Prop where
  | last {text cell : List α} (field : dialect.IsField text cell) : IsRecord text [cell]
  | cons {text text' cell : List α} {cells : List (List α)} (field : dialect.IsField text cell)
    (rest : IsRecord text' cells) : IsRecord (text ++ dialect.comma :: text') (cell :: cells)

inductive IsLineBreak : List α → Prop where
  | lineFeed : IsLineBreak [dialect.lineFeed]
  | carriageReturn : IsLineBreak [dialect.carriageReturn]
  | both : IsLineBreak [dialect.carriageReturn, dialect.lineFeed]

/-- The line breaks in a text; a carriage return and the line feed behind it are one. -/
def lineBreaks : List α → ℕ
  | [] => 0
  | letter :: rest =>
    if letter = dialect.lineFeed then lineBreaks rest + 1
    else if letter = dialect.carriageReturn ∧ rest.head? ≠ some dialect.lineFeed then
      lineBreaks rest + 1
    else lineBreaks rest

/-- A text of records, each with the number of the line at which it starts. -/
inductive IsTable : ℕ → List α → List (ℕ × List (List α)) → Prop where
  | last {line : ℕ} {text : List α} {cells : List (List α)}
    (isRecord : dialect.IsRecord text cells) :
    IsTable line text [(line, cells)]
  | cons {line : ℕ} {text between rest : List α} {cells : List (List α)}
    {records : List (ℕ × List (List α))} (isRecord : dialect.IsRecord text cells)
    (isBreak : dialect.IsLineBreak between)
    (whole : between = [dialect.carriageReturn] → rest.head? ≠ some dialect.lineFeed)
    (later : IsTable (line + dialect.lineBreaks text + 1) rest records) :
    IsTable line (text ++ between ++ rest) ((line, cells) :: records)

/-! ## The reader -/

/-- Where the reader is: before a field, behind a carriage return, in a field without quotes, in
quotes, or behind the quotation mark that may be the last one. -/
inductive Place where
  | start
  | returned
  | bare
  | quoted
  | closed
  deriving DecidableEq

/-- The records of a text, the reader being in a cell of a record; `none` where the text is of no
records. -/
def scan : Place → List α → List (List α) → List α → Option (List (List (List α)))
  | place, cell, record, [] => if place = .quoted then none else some [record ++ [cell]]
  | place, cell, record, letter :: rest =>
    if place = .quoted then
      if letter = dialect.quote then scan .closed cell record rest
      else scan .quoted (cell ++ [letter]) record rest
    else if place = .returned ∧ letter = dialect.lineFeed then scan .start cell record rest
    else if letter = dialect.quote then
      if place = .start ∨ place = .returned then scan .quoted cell record rest
      else if place = .closed then scan .quoted (cell ++ [letter]) record rest
      else none
    else if letter = dialect.comma then scan .start [] (record ++ [cell]) rest
    else if letter = dialect.lineFeed then
      (scan .start [] [] rest).map ((record ++ [cell]) :: ·)
    else if letter = dialect.carriageReturn then
      (scan .returned [] [] rest).map ((record ++ [cell]) :: ·)
    else if place = .closed then none
    else scan .bare (cell ++ [letter]) record rest

/-- The records of a text.  A line break behind the last record starts no record. -/
def read (text : List α) : Option (List (List (List α))) :=
  (dialect.scan .start [] [] text).map fun records =>
    if 1 < records.length ∧ records.getLast? = some [[]] then records.dropLast else records

/-- The end of a field. -/
def Ends (rest : List α) : Prop :=
  ∀ letter ∈ rest.head?, letter = dialect.comma ∨ letter = dialect.lineFeed ∨
    letter = dialect.carriageReturn

/-- The end of a record. -/
def EndsRecord (rest : List α) : Prop :=
  ∀ letter ∈ rest.head?, letter = dialect.lineFeed ∨ letter = dialect.carriageReturn

/-! ## What the reader makes of the format -/

section Reading

variable {dialect} {text rest cell : List α} {cells record : List (List α)}
  {letter : α}

omit [DecidableEq α] in
theorem distinct_letters (dialect : Dialect α) :
    (dialect.comma ≠ dialect.quote ∧ dialect.comma ≠ dialect.lineFeed ∧
      dialect.comma ≠ dialect.carriageReturn) ∧ (dialect.quote ≠ dialect.lineFeed ∧
      dialect.quote ≠ dialect.carriageReturn) ∧ dialect.lineFeed ≠ dialect.carriageReturn := by
  simpa using dialect.distinct

theorem isSpecial_eq_false_iff : dialect.isSpecial letter = false ↔
    letter ≠ dialect.comma ∧ letter ≠ dialect.quote ∧ letter ≠ dialect.lineFeed ∧
      letter ≠ dialect.carriageReturn := by
  simp [isSpecial]

omit [DecidableEq α] in
theorem Ends.ne_quote (ends : dialect.Ends (letter :: rest)) : letter ≠ dialect.quote := by
  obtain ⟨⟨comma, -, -⟩, ⟨lineFeed, carriageReturn⟩, -⟩ := distinct_letters dialect
  rcases ends letter rfl with rfl | rfl | rfl
  · exact comma
  · exact lineFeed.symm
  · exact carriageReturn.symm

/-- A letter outside of quotes, but for a line feed behind a carriage return. -/
theorem scan_outside (place : Place) (outside : place ≠ .quoted)
    (apart : ¬ (place = .returned ∧ letter = dialect.lineFeed)) :
    dialect.scan place cell record (letter :: rest) =
      if letter = dialect.quote then
        if place = .start ∨ place = .returned then dialect.scan .quoted cell record rest
        else if place = .closed then dialect.scan .quoted (cell ++ [letter]) record rest
        else none
      else if letter = dialect.comma then dialect.scan .start [] (record ++ [cell]) rest
      else if letter = dialect.lineFeed then
        (dialect.scan .start [] [] rest).map ((record ++ [cell]) :: ·)
      else if letter = dialect.carriageReturn then
        (dialect.scan .returned [] [] rest).map ((record ++ [cell]) :: ·)
      else if place = .closed then none
      else dialect.scan .bare (cell ++ [letter]) record rest := by
  rw [scan, if_neg outside, if_neg apart]

theorem scan_letter (place : Place) (outside : place ≠ .quoted)
    (apart : ¬ (place = .returned ∧ letter = dialect.lineFeed))
    (plain : dialect.isSpecial letter = false) (unclosed : place ≠ .closed) :
    dialect.scan place cell record (letter :: rest) =
      dialect.scan .bare (cell ++ [letter]) record rest := by
  obtain ⟨comma, quote, lineFeed, carriageReturn⟩ := isSpecial_eq_false_iff.mp plain
  rw [scan_outside place outside apart, if_neg quote, if_neg comma, if_neg lineFeed,
    if_neg carriageReturn, if_neg unclosed]

/-- At the end of a field all places but one in quotes are the same. -/
theorem scan_of_ends (ends : dialect.Ends rest) (place : Place) (outside : place ≠ .quoted)
    (apart : place ≠ .returned) :
    dialect.scan place cell record rest = dialect.scan .bare cell record rest := by
  cases rest with
  | nil => rw [scan, scan, if_neg outside, if_neg nofun]
  | cons letter rest =>
    rw [scan_outside place outside fun both => apart both.1, scan_outside .bare nofun nofun,
      if_neg ends.ne_quote, if_neg ends.ne_quote]
    rcases ends letter rfl with rfl | rfl | rfl
    · rw [if_pos rfl, if_pos rfl]
    · simp only [if_true]
    · simp only [if_true]

theorem scan_plain (plain : ∀ letter ∈ text, dialect.isSpecial letter = false) :
    dialect.scan .bare cell record (text ++ rest) =
      dialect.scan .bare (cell ++ text) record rest := by
  induction text generalizing cell with
  | nil => rw [List.nil_append, List.append_nil]
  | cons letter text ih =>
    obtain ⟨first, others⟩ := List.forall_mem_cons.mp plain
    rw [List.cons_append, scan_letter .bare nofun nofun first nofun, ih others, List.append_assoc,
      List.singleton_append]

theorem scan_bare (plain : ∀ letter ∈ cell, dialect.isSpecial letter = false)
    (ends : dialect.Ends rest) :
    dialect.scan .start [] record (cell ++ rest) = dialect.scan .bare cell record rest := by
  cases cell with
  | nil => exact scan_of_ends ends .start nofun nofun
  | cons letter cell =>
    obtain ⟨first, others⟩ := List.forall_mem_cons.mp plain
    rw [List.cons_append, scan_letter .start nofun nofun first nofun, scan_plain others,
      List.nil_append, List.singleton_append]

theorem scan_quoted : dialect.scan .quoted cell record (letter :: rest) =
    if letter = dialect.quote then dialect.scan .closed cell record rest
    else dialect.scan .quoted (cell ++ [letter]) record rest := by
  rw [scan, if_pos rfl]

theorem scan_doubled (cell done : List α) (ends : dialect.Ends rest) :
    dialect.scan .quoted done record (dialect.doubled cell ++ dialect.quote :: rest) =
      dialect.scan .bare (done ++ cell) record rest := by
  induction cell generalizing done with
  | nil =>
    rw [doubled, List.flatMap_nil, List.nil_append, scan_quoted, if_pos rfl, List.append_nil,
      scan_of_ends ends .closed nofun nofun]
  | cons letter cell ih =>
    rw [doubled, List.flatMap_cons]
    change dialect.scan .quoted done record
      ((_ ++ dialect.doubled cell) ++ dialect.quote :: rest) = _
    split
    · rename_i isQuote
      rw [List.append_assoc, List.cons_append, List.cons_append, List.nil_append, scan_quoted,
        if_pos isQuote, scan_outside .closed nofun nofun, if_pos isQuote, if_neg (by simp),
        if_pos rfl, ih, List.append_assoc, List.singleton_append]
    · rename_i other
      rw [List.append_assoc, List.cons_append, List.nil_append, scan_quoted, if_neg other, ih,
        List.append_assoc, List.singleton_append]

/-- The reader behind a field. -/
theorem scan_field (field : dialect.IsField text cell) (ends : dialect.Ends rest) :
    dialect.scan .start [] record (text ++ rest) = dialect.scan .bare cell record rest := by
  cases field with
  | bare plain => exact scan_bare plain ends
  | quoted =>
    rw [List.cons_append, List.append_assoc, scan_outside .start nofun nofun, if_pos rfl,
      if_pos (.inl rfl), List.singleton_append, scan_doubled cell [] ends, List.nil_append]

/-- The reader behind a record. -/
theorem scan_record (isRecord : dialect.IsRecord text cells) (ends : dialect.EndsRecord rest) :
    ∃ cell before, cells = before ++ [cell] ∧
      dialect.scan .start [] record (text ++ rest) =
        dialect.scan .bare cell (record ++ before) rest := by
  induction isRecord generalizing record with
  | last field =>
    refine ⟨_, [], rfl, ?_⟩
    rw [scan_field field fun letter first => .inr (ends letter first), List.append_nil]
  | @cons text text' cell cells field others ih =>
    obtain ⟨final, before, rfl, read⟩ := @ih (record ++ [cell])
    obtain ⟨⟨comma, -, -⟩, -, -⟩ := distinct_letters dialect
    have isComma : dialect.Ends (dialect.comma :: (text' ++ rest)) :=
      fun letter first => .inl (Option.some.inj first).symm
    refine ⟨final, cell :: before, rfl, ?_⟩
    rw [List.append_assoc, List.cons_append, scan_field field isComma,
      scan_outside .bare nofun nofun, if_neg comma, if_pos rfl, read, List.append_assoc,
      List.singleton_append]

theorem scan_returned (other : rest.head? ≠ some dialect.lineFeed) :
    dialect.scan .returned [] [] rest = dialect.scan .start [] [] rest := by
  cases rest with
  | nil => rfl
  | cons letter rest =>
    have apart : letter ≠ dialect.lineFeed := fun same => other (congrArg some same)
    rw [scan_outside .returned nofun fun both => apart both.2,
      scan_outside .start nofun fun both => apart both.2]
    simp

/-- The reader behind a line break. -/
theorem scan_lineBreak {between : List α} (isBreak : dialect.IsLineBreak between)
    (whole : between = [dialect.carriageReturn] → rest.head? ≠ some dialect.lineFeed) :
    dialect.scan .bare cell record (between ++ rest) =
      (dialect.scan .start [] [] rest).map ((record ++ [cell]) :: ·) := by
  obtain ⟨⟨-, comma, comma'⟩, ⟨quote, quote'⟩, lineFeed⟩ := distinct_letters dialect
  cases isBreak with
  | lineFeed =>
    rw [List.singleton_append, scan_outside .bare nofun nofun, if_neg quote.symm, if_neg comma.symm,
      if_pos rfl]
  | carriageReturn =>
    rw [List.singleton_append, scan_outside .bare nofun nofun, if_neg quote'.symm,
      if_neg comma'.symm, if_neg lineFeed.symm, if_pos rfl, scan_returned (whole rfl)]
  | both =>
    rw [List.cons_append, List.singleton_append, scan_outside .bare nofun nofun, if_neg quote'.symm,
      if_neg comma'.symm, if_neg lineFeed.symm, if_pos rfl, scan, if_neg nofun,
      if_pos ⟨rfl, rfl⟩]

omit [DecidableEq α] in
theorem endsRecord_lineBreak {between : List α} (isBreak : dialect.IsLineBreak between) :
    dialect.EndsRecord (between ++ rest) := by
  intro letter first
  cases isBreak with
  | lineFeed => exact .inl (Option.some.inj first).symm
  | carriageReturn | both => exact .inr (Option.some.inj first).symm

/-- A text of records is read as these records. -/
theorem scan_table {line : ℕ} {records : List (ℕ × List (List α))}
    (isTable : dialect.IsTable line text records) :
    dialect.scan .start [] [] text = some (records.map Prod.snd) := by
  induction isTable with
  | @last line text cells isRecord =>
    obtain ⟨cell, before, rfl, read⟩ := @scan_record _ _ dialect text [] cells [] isRecord nofun
    rw [List.append_nil] at read
    rw [read, scan, if_neg nofun]
    rfl
  | @cons line text between rest cells records isRecord isBreak whole later ih =>
    obtain ⟨cell, before, rfl, read⟩ := @scan_record _ _ dialect text (between ++ rest) cells []
      isRecord (endsRecord_lineBreak isBreak)
    rw [List.append_assoc, read, scan_lineBreak isBreak whole, ih]
    rfl

theorem read_table {line : ℕ} {records : List (ℕ × List (List α))}
    (isTable : dialect.IsTable line text records) (filled : ∀ record ∈ records, record.2 ≠ [[]]) :
    dialect.read text = some (records.map Prod.snd) := by
  rw [read, scan_table isTable, Option.map_some, if_neg]
  rintro ⟨-, last⟩
  obtain ⟨record, member, same⟩ := List.mem_map.mp (List.mem_of_getLast? last)
  exact filled record member same

end Reading

/-! ## Lines -/

section Lines

variable {dialect} {text rest cell : List α} {cells : List (List α)}

theorem lineBreaks_append (apart : rest.head? ≠ some dialect.lineFeed) :
    dialect.lineBreaks (text ++ rest) = dialect.lineBreaks text + dialect.lineBreaks rest := by
  induction text with
  | nil => rw [List.nil_append, lineBreaks, Nat.zero_add]
  | cons letter text ih =>
    have heads : (text ++ rest).head? ≠ some dialect.lineFeed ↔
        text.head? ≠ some dialect.lineFeed := by
      cases text with
      | nil => exact iff_of_true apart nofun
      | cons next text => exact Iff.rfl
    rw [List.cons_append, lineBreaks, lineBreaks, ih]
    simp only [heads]
    split_ifs <;> omega

theorem lineBreaks_plain_cons {letter : α} (noFeed : letter ≠ dialect.lineFeed)
    (noReturn : letter ≠ dialect.carriageReturn) :
    dialect.lineBreaks (letter :: text) = dialect.lineBreaks text := by
  rw [lineBreaks, if_neg noFeed, if_neg fun both => noReturn both.1]

theorem head?_doubled : (dialect.doubled cell).head? = cell.head? := by
  cases cell with
  | nil => rfl
  | cons letter cell =>
    rw [doubled, List.flatMap_cons]
    split <;> rfl

theorem lineBreaks_doubled :
    dialect.lineBreaks (dialect.doubled cell) = dialect.lineBreaks cell := by
  obtain ⟨-, ⟨noFeed, noReturn⟩, -⟩ := distinct_letters dialect
  induction cell with
  | nil => rfl
  | cons letter cell ih =>
    rw [doubled, List.flatMap_cons]
    change dialect.lineBreaks (_ ++ dialect.doubled cell) = _
    split
    · rename_i isQuote
      rw [isQuote, List.cons_append, List.cons_append, List.nil_append,
        lineBreaks_plain_cons noFeed noReturn, lineBreaks_plain_cons noFeed noReturn,
        lineBreaks_plain_cons noFeed noReturn, ih]
    · rw [List.singleton_append, lineBreaks, lineBreaks, ih, head?_doubled]

theorem lineBreaks_field (field : dialect.IsField text cell) :
    dialect.lineBreaks text = dialect.lineBreaks cell := by
  obtain ⟨-, ⟨noFeed, noReturn⟩, -⟩ := distinct_letters dialect
  cases field with
  | bare plain => rfl
  | quoted =>
    have apart : [dialect.quote].head? ≠ some dialect.lineFeed :=
      fun same => noFeed (Option.some.inj same)
    rw [lineBreaks_plain_cons noFeed noReturn, lineBreaks_append apart, lineBreaks_doubled,
      lineBreaks_plain_cons noFeed noReturn]
    rfl

/-- The line breaks of a record are those of its cells. -/
theorem lineBreaks_record (isRecord : dialect.IsRecord text cells) :
    dialect.lineBreaks text = (cells.map dialect.lineBreaks).sum := by
  obtain ⟨⟨-, noFeed, noReturn⟩, -, -⟩ := distinct_letters dialect
  induction isRecord with
  | last field => rw [lineBreaks_field field, List.map_singleton, List.sum_singleton]
  | @cons text text' cell cells field others ih =>
    have apart : (dialect.comma :: text').head? ≠ some dialect.lineFeed :=
      fun same => noFeed (Option.some.inj same)
    rw [lineBreaks_append apart, lineBreaks_plain_cons noFeed noReturn, lineBreaks_field field, ih,
      List.map_cons, List.sum_cons]

theorem lineBreaks_eq_zero_iff : dialect.lineBreaks cell = 0 ↔
    dialect.lineFeed ∉ cell ∧ dialect.carriageReturn ∉ cell := by
  induction cell with
  | nil => simp [lineBreaks]
  | cons letter cell ih =>
    rw [lineBreaks, List.mem_cons, List.mem_cons]
    split_ifs with feed back
    · simp [feed]
    · simp [back.1]
    · rw [ih]
      by_cases same : letter = dialect.carriageReturn
      · -- a line feed follows the carriage return
        have next := not_not.mp fun other => back ⟨same, other⟩
        have member := List.mem_of_mem_head? next
        simp [member]
      · simp [Ne.symm feed, Ne.symm same]

/-- A record starts behind the lines of the records before it. -/
theorem line_eq {line : ℕ} {records : List (ℕ × List (List α))}
    (isTable : dialect.IsTable line text records) :
    ∀ earlier record later, records = earlier ++ record :: later →
      record.1 =
        line + (earlier.map fun record => (record.2.map dialect.lineBreaks).sum + 1).sum := by
  induction isTable with
  | last isRecord =>
    intro earlier record later split
    cases earlier with
    | nil =>
      obtain ⟨rfl, -⟩ := List.cons.inj split
      rfl
    | cons first earlier =>
      have := congrArg List.length split
      simp at this
  | cons isRecord isBreak whole behind ih =>
    intro earlier record later split
    cases earlier with
    | nil =>
      obtain ⟨rfl, -⟩ := List.cons.inj split
      rfl
    | cons first earlier =>
      obtain ⟨rfl, others⟩ := List.cons.inj split
      rw [ih earlier record later others, lineBreaks_record isRecord, List.map_cons, List.sum_cons]
      dsimp only
      omega

end Lines

/-! ## Writing -/

section Writing

variable {dialect} {texts : List (List α)}

theorem isRecord_intercalate {cells : List (List α)}
    (fields : List.Forall₂ dialect.IsField texts cells) (filled : texts ≠ []) :
    dialect.IsRecord ([dialect.comma].intercalate texts) cells := by
  induction fields with
  | nil => exact absurd rfl filled
  | @cons text cell texts cells field others ih =>
    cases others with
    | nil =>
      rw [List.intercalate_singleton]
      exact .last field
    | cons next others =>
      rw [List.intercalate_cons_cons, List.append_assoc, List.singleton_append]
      exact .cons field (ih (List.cons_ne_nil _ _))

/-- Records with line feeds between them. -/
theorem exists_isTable {records : List (List (List α))}
    (areRecords : List.Forall₂ dialect.IsRecord texts records) (filled : texts ≠ []) (line : ℕ) :
    ∃ numbered, dialect.IsTable line ([dialect.lineFeed].intercalate texts) numbered ∧
      numbered.map Prod.snd = records := by
  induction areRecords generalizing line with
  | nil => exact absurd rfl filled
  | @cons text cells texts records isRecord others ih =>
    cases others with
    | nil =>
      rw [List.intercalate_singleton]
      exact ⟨_, .last isRecord, rfl⟩
    | cons next others =>
      obtain ⟨numbered, isTable, same⟩ :=
        ih (List.cons_ne_nil _ _) (line + dialect.lineBreaks text + 1)
      obtain ⟨-, -, different⟩ := distinct_letters dialect
      rw [List.intercalate_cons_cons]
      refine ⟨_, .cons isRecord .lineFeed (fun single => ?_) isTable, ?_⟩
      · exact absurd (List.cons.inj single).1 different
      · rw [List.map_cons, same]

end Writing

end Dialect

end Ancore.Library.Csv
