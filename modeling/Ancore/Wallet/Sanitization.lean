import Ancore.Library.Deletions
import Ancore.Library.UnitClasses

/-! # Sanitization of texts

`sanitizeText` of what a dApp says of itself: ten deletions, each done once, and `trim`.  What a
deletion puts together is only looked at by the deletions that follow.
-/

namespace Ancore.Wallet.Sanitization

open Ancore.Library Ancore.Library.EcmaScript Ancore.Library.EcmaScript.JsString
open Ancore.Library.RegExp

/-! ## Expressions -/

/-- `/\0/g` -/
def nullRe : RegExp ℕ := .letter fun unit => unit = 0

/-- `[^<]*` -/
def notOpenings : RegExp ℕ := .many true (.letter fun unit => unit ≠ 0x3C)

/-- `(?!…)` -/
def notAhead (expression : RegExp ℕ) : RegExp ℕ :=
  .assertion fun before behind => (expression.run (before, behind)).isEmpty

/-- `/<tag\b[^<]*(?:(?!<\/tag>)<[^<]*)*<\/tag>/gi` -/
def elementRe (tag : String) : RegExp ℕ :=
  let closing := spelled ("</" ++ tag ++ ">") .empty
  spelled ("<" ++ tag) (.sequence (.boundary isWord) (.sequence notOpenings
    (.sequence (.many true (.sequence (notAhead closing)
      (.sequence (.letter fun unit => unit = 0x3C) notOpenings))) closing)))

def spaces : RegExp ℕ := .many true (.letter isWhiteSpace)

/-- `\bon\w+\s*=\s*` -/
def assignment : RegExp ℕ :=
  .sequence (.boundary isWord) (spelled "on" (.sequence (.atLeast 1 (.letter isWord))
    (.sequence spaces (.sequence (.letter fun unit => unit = 0x3D) spaces))))

/-- `.` -/
def notLineTerminator (unit : ℕ) : Bool := unit ∉ [0xA, 0xD, 0x2028, 0x2029]

/-- A text between two of these marks, as short as it can be. -/
def quotedBy (mark : ℕ) : RegExp ℕ :=
  .sequence (.letter fun unit => unit = mark) (.sequence (.many false (.letter notLineTerminator))
    (.letter fun unit => unit = mark))

/-- `/(\bon\w+\s*=\s*(['"]).*?\2)/gi` -/
def quotedHandlerRe : RegExp ℕ :=
  .sequence assignment (.either (quotedBy 0x27) (quotedBy 0x22))

/-- `/(\bon\w+\s*=\s*[^\s>]+)/gi` -/
def handlerRe : RegExp ℕ :=
  .sequence assignment (.atLeast 1 (.letter fun unit => !isWhiteSpace unit && unit ≠ 0x3E))

/-- `/javascript\s*:/gi` and `/vbscript\s*:/gi` -/
def protocolRe (name : String) : RegExp ℕ :=
  spelled name (.sequence spaces (.letter fun unit => unit = 0x3A))

def javascriptRe : RegExp ℕ := protocolRe "javascript"

def vbscriptRe : RegExp ℕ := protocolRe "vbscript"

/-- `/data\s*:\s*text\/html/gi` -/
def dataHtmlRe : RegExp ℕ :=
  spelled "data" (.sequence spaces (.sequence (.letter fun unit => unit = 0x3A)
    (.sequence spaces (spelled "text/html" .empty))))

/-- `/<[^>]*>?/gm` -/
def tagRe : RegExp ℕ :=
  .sequence (.letter fun unit => unit = 0x3C) (.sequence
    (.many true (.letter fun unit => unit ≠ 0x3E)) (.optional (.letter fun unit => unit = 0x3E)))

/-- `sanitizeText` of a string. -/
def sanitizeText (input : JsString) : JsString :=
  let text := nullRe.replaceAll [] input
  let text := (elementRe "script").replaceAll [] text
  let text := (elementRe "style").replaceAll [] text
  let text := (elementRe "iframe").replaceAll [] text
  let text := quotedHandlerRe.replaceAll [] text
  let text := handlerRe.replaceAll [] text
  let text := javascriptRe.replaceAll [] text
  let text := vbscriptRe.replaceAll [] text
  let text := dataHtmlRe.replaceAll [] text
  let text := tagRe.replaceAll [] text
  JsString.trim text

/-- What comes before the deletions that are to leave nothing. -/
def prepared (input : JsString) : JsString :=
  deleteEach [nullRe, elementRe "script", elementRe "style", elementRe "iframe", quotedHandlerRe]
    input

/-- The deletions that are to leave nothing. -/
def deletions : List (RegExp ℕ) := [handlerRe, javascriptRe, vbscriptRe, dataHtmlRe, tagRe]

theorem sanitizeText_eq (input : JsString) :
    sanitizeText input = JsString.trim (deleteEach deletions (prepared input)) := by
  simp only [sanitizeText, prepared, deletions, deleteEach, List.foldl_cons, List.foldl_nil]

/-- There is nothing to sanitize. -/
structure Sanitized (text : JsString) : Prop where
  noTag : 0x3C ∉ text
  noQuotedHandler : Absent quotedHandlerRe text
  noHandler : Absent handlerRe text
  noJavascript : Absent javascriptRe text
  noVbscript : Absent vbscriptRe text
  noDataHtml : Absent dataHtmlRe text

/-! ## The expressions -/

theorem filled_of_mem_deletions : ∀ expression ∈ deletions, expression.Filled := by
  intro expression member
  simp only [deletions, List.mem_cons, List.not_mem_nil, or_false] at member
  rcases member with rfl | rfl | rfl | rfl | rfl <;> exact filled_of_least (by decide)

theorem local_of_mem_deletions : ∀ expression ∈ deletions, expression.Local isWord := by
  intro expression member
  simp only [deletions, List.mem_cons, List.not_mem_nil, or_false] at member
  rcases member with rfl | rfl | rfl | rfl | rfl
  · exact ⟨⟨local_boundary isWord, local_of_plain (by decide) isWord⟩,
      local_of_plain (by decide) isWord⟩
  all_goals exact local_of_plain (by decide) isWord

theorem filled_nullRe : nullRe.Filled := filled_of_least (by decide)

/-- An element starts with its bracket. -/
theorem exists_elementRe (tag : String) :
    ∃ rest, elementRe tag = .sequence (.letter (isUnitOf '<')) rest := by
  have letters : ("<" ++ tag).toList = '<' :: tag.toList := by rw [String.toList_append]; rfl
  rw [elementRe, spelled, letters]
  exact ⟨_, rfl⟩

theorem least_elementRe (tag : String) : 0 < (elementRe tag).least := by
  obtain ⟨rest, same⟩ := exists_elementRe tag
  rw [same, least, least]
  omega

theorem opensWith_elementRe (tag : String) : (elementRe tag).OpensWith (· = 0x3C) := by
  obtain ⟨rest, same⟩ := exists_elementRe tag
  rw [same]
  refine ⟨fun unit isBracket => ?_, nofun⟩
  exact (Bool.or_eq_true_iff.mp isBracket).elim of_decide_eq_true of_decide_eq_true

theorem isWord_of_isWhiteSpace {unit : ℕ} (blank : isWhiteSpace unit = true) :
    isWord unit = false := by
  simp only [JsString.isWhiteSpace, List.mem_cons, List.not_mem_nil, or_false, Bool.or_eq_true,
    Bool.and_eq_true, decide_eq_true_eq] at blank
  simp only [isWord, isAlphanumeric, isLetter, isUpper, isLower, isDigit, Bool.or_eq_false_iff,
    Bool.and_eq_false_iff, decide_eq_false_iff_not]
  omega

theorem wordAt_of_isWhiteSpace {side : JsString} (blank : ∀ unit ∈ side, isWhiteSpace unit = true) :
    wordAt isWord side = false := by
  cases side with
  | nil => rfl
  | cons unit rest => exact isWord_of_isWhiteSpace (blank unit List.mem_cons_self)

/-- A quoted handler is a handler up to its mark. -/
theorem absent_quotedHandlerRe {text : JsString} (absent : Absent handlerRe text) :
    Absent quotedHandlerRe text := by
  rintro front _ back rfl ⟨start, value, rfl, assigned, quoted⟩
  have marked : ∃ mark rest, value = mark :: rest ∧ (mark = 0x27 ∨ mark = 0x22) := by
    rcases quoted with
      ⟨_, rest, rfl, ⟨mark, isMark, rfl⟩, -⟩ | ⟨_, rest, rfl, ⟨mark, isMark, rfl⟩, -⟩
    · exact ⟨mark, rest, rfl, .inl (of_decide_eq_true isMark)⟩
    · exact ⟨mark, rest, rfl, .inr (of_decide_eq_true isMark)⟩
  obtain ⟨mark, rest, rfl, isMark⟩ := marked
  refine absent front (start ++ [mark]) (rest ++ back) (by simp) ?_
  refine ⟨start, [mark], rfl, assigned, ?_⟩
  have accepted : ∀ unit ∈ [mark], (!isWhiteSpace unit && unit ≠ 0x3E) = true := by
    rintro unit (_ | ⟨_, ⟨⟩⟩)
    rcases isMark with rfl | rfl <;> decide
  exact matches_atLeast (Nat.le_refl 1) (filled_units [mark]) (matches_units accepted) _ _

theorem not_mem_of_absent_tagRe {text : JsString} (absent : Absent tagRe text) : 0x3C ∉ text := by
  intro member
  obtain ⟨front, back, rfl⟩ := List.append_of_mem member
  refine absent front [0x3C] back (by simp) ?_
  exact ⟨[0x3C], [], rfl, ⟨0x3C, rfl, rfl⟩, [], [], rfl, .none, .inr rfl⟩

theorem absent_trim {expression : RegExp ℕ} (isLocal : expression.Local isWord) {text : JsString}
    (absent : Absent expression text) : Absent expression (JsString.trim text) := by
  obtain ⟨front, back, whole, blankFront, blankBack⟩ := exists_trim text
  rw [whole] at absent
  refine absent.of_append isLocal (wordAt_of_isWhiteSpace ?_) (wordAt_of_isWhiteSpace blankBack)
  exact fun unit member => blankFront unit (List.mem_reverse.mp member)

/-! ## Nothing to sanitize -/

theorem filled_quotedHandlerRe : quotedHandlerRe.Filled := filled_of_least (by decide)

theorem filled_of_mem_prepared : ∀ expression ∈ [elementRe "script", elementRe "style",
    elementRe "iframe", quotedHandlerRe], expression.Filled := by
  intro expression member
  simp only [List.mem_cons, List.not_mem_nil, or_false] at member
  rcases member with rfl | rfl | rfl | rfl
  · exact filled_of_least (least_elementRe _)
  · exact filled_of_least (least_elementRe _)
  · exact filled_of_least (least_elementRe _)
  · exact filled_quotedHandlerRe

theorem zero_not_mem_sanitizeText (input : JsString) : 0 ∉ sanitizeText input := by
  have removed : 0 ∉ nullRe.replaceAll [] input :=
    not_mem_replaceAll_of_matches filled_nullRe (fun _ _ => ⟨0, rfl, rfl⟩) input
  have before : 0 ∉ prepared input := by
    rw [prepared, deleteEach, List.foldl_cons]
    exact not_mem_deleteEach filled_of_mem_prepared removed
  have left : 0 ∉ deleteEach deletions (prepared input) :=
    not_mem_deleteEach filled_of_mem_deletions before
  obtain ⟨front, back, whole, -, -⟩ := exists_trim (deleteEach deletions (prepared input))
  rw [sanitizeText_eq]
  intro member
  rw [whole] at left
  exact left (by simp [member])

/-- A text in which there is nothing to sanitize stays as it is. -/
theorem Sanitized.sanitizeText_eq_self {text : JsString} (sanitized : Sanitized text)
    (trimmed : text.Trimmed) (noNull : 0 ∉ text) : sanitizeText text = text := by
  have nullGone : Absent nullRe text := by
    refine absent_of_not_mem (by decide) (fun unit isNull => ?_) noNull
    exact of_decide_eq_true isNull
  have elementGone : ∀ tag, Absent (elementRe tag) text := fun tag =>
    absent_of_not_mem (least_elementRe tag) (opensWith_elementRe tag) sanitized.noTag
  have tagGone : Absent tagRe text := by
    refine absent_of_not_mem (by decide) ⟨fun unit isBracket => ?_, nofun⟩ sanitized.noTag
    exact of_decide_eq_true isBracket
  have unprepared : prepared text = text := by
    refine deleteEach_of_absent
      (List.forall_mem_cons.mpr ⟨filled_nullRe, filled_of_mem_prepared⟩) ?_
    simp only [List.forall_mem_cons]
    exact ⟨nullGone, elementGone _, elementGone _, elementGone _, sanitized.noQuotedHandler,
      List.forall_mem_nil _⟩
  have unchanged : deleteEach deletions text = text := by
    refine deleteEach_of_absent filled_of_mem_deletions ?_
    simp only [deletions, List.forall_mem_cons]
    exact ⟨sanitized.noHandler, sanitized.noJavascript, sanitized.noVbscript,
      sanitized.noDataHtml, tagGone, List.forall_mem_nil _⟩
  rw [sanitizeText_eq, unprepared, unchanged, trim_eq_self trimmed]

theorem sanitized_of_seamless (input : JsString)
    (seamless : Seamless [] deletions (prepared input)) :
    sanitizeText (sanitizeText input) = sanitizeText input ∧ Sanitized (sanitizeText input) := by
  have stays := (seamless_iff_staysAbsent filled_of_mem_deletions local_of_mem_deletions
    (List.forall_mem_nil _)).mp seamless
  have absent := stays.absent (List.forall_mem_nil _)
  have gone : ∀ expression ∈ deletions, Absent expression (sanitizeText input) := by
    intro expression member
    rw [sanitizeText_eq]
    exact absent_trim (local_of_mem_deletions expression member) (absent expression member)
  simp only [deletions, List.forall_mem_cons] at gone
  obtain ⟨handler, javascript, vbscript, dataHtml, tag, -⟩ := gone
  have sanitized : Sanitized (sanitizeText input) :=
    ⟨not_mem_of_absent_tagRe tag, absent_quotedHandlerRe handler, handler, javascript, vbscript,
      dataHtml⟩
  have trimmed : JsString.Trimmed (sanitizeText input) := sanitizeText_eq input ▸ trimmed_trim _
  exact ⟨sanitized.sanitizeText_eq_self trimmed (zero_not_mem_sanitizeText input), sanitized⟩

/-- A deletion can be looked through for places that come back. -/
theorem seamless_iff_isSeamless (text : JsString) :
    Seamless [] deletions text ↔ isSeamless [] deletions text = true := by
  rw [seamless_iff_staysAbsent filled_of_mem_deletions local_of_mem_deletions
    (List.forall_mem_nil _), isSeamless_iff_staysAbsent filled_of_mem_deletions]

theorem image_with_a_handler_is_sanitized :
    sanitizeText (ascii "<img src=x onerror=alert(1)>Malicious Exchange") =
        ascii "Malicious Exchange" ∧
      Sanitized (sanitizeText (ascii "<img src=x onerror=alert(1)>Malicious Exchange")) := by
  have seamless : isSeamless [] deletions
      (prepared (ascii "<img src=x onerror=alert(1)>Malicious Exchange")) = true := by
    decide +kernel
  exact ⟨by decide +kernel,
    (sanitized_of_seamless _ ((seamless_iff_isSeamless _).mpr seamless)).2⟩

/-- What is left around a deleted protocol is a protocol again. -/
theorem protocol_within_a_protocol :
    ¬ ∀ input, sanitizeText (sanitizeText input) = sanitizeText input ∧
      Sanitized (sanitizeText input) := by
  intro always
  obtain ⟨again, -⟩ := always (ascii "javajavascript:script:alert(1)")
  exact absurd again (by decide +kernel)

end Ancore.Wallet.Sanitization
