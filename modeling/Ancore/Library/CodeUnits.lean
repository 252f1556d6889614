import Mathlib

/-! # Strings of code units

The strings of ECMAScript, lone surrogates among them, and what `trim` takes off them.
-/

namespace Ancore.Library.EcmaScript

/-- A string by its code units; that they are below `2 ^ 16` is not used. -/
abbrev JsString : Type := List ℕ

instance : LawfulBEq JsString := inferInstance

/-- The code units of letters of ASCII. -/
def ascii (letters : String) : JsString := letters.toList.map Char.toNat

namespace JsString

/-- `WhiteSpace` and `LineTerminator`. -/
def isWhiteSpace (unit : ℕ) : Bool :=
  (0x9 ≤ unit && unit ≤ 0xD) || (0x2000 ≤ unit && unit ≤ 0x200A) ||
    unit ∈ [0x20, 0xA0, 0x1680, 0x2028, 0x2029, 0x202F, 0x205F, 0x3000, 0xFEFF]

/-- `\d` -/
def isDigit (unit : ℕ) : Bool := 0x30 ≤ unit && unit ≤ 0x39

/-- `text.trimStart()` -/
def trimStart (text : JsString) : JsString := text.dropWhile isWhiteSpace

/-- `text.trim()` -/
def trim (text : JsString) : JsString := text.trimStart.rdropWhile isWhiteSpace

/-- There is no white space at either end. -/
def Trimmed (text : JsString) : Prop :=
  (∀ unit ∈ text.head?, isWhiteSpace unit = false) ∧
    ∀ unit ∈ text.getLast?, isWhiteSpace unit = false

theorem isDigit_iff {unit : ℕ} : isDigit unit = true ↔ 0x30 ≤ unit ∧ unit ≤ 0x39 := by
  simp [isDigit]

theorem isWhiteSpace_of_isDigit {unit : ℕ} (digit : isDigit unit = true) :
    isWhiteSpace unit = false := by
  obtain ⟨low, high⟩ := isDigit_iff.mp digit
  interval_cases unit <;> rfl

theorem trim_eq_self {text : JsString} (trimmed : text.Trimmed) : text.trim = text := by
  obtain ⟨first, last⟩ := trimmed
  have start : text.trimStart = text := by
    cases text with
    | nil => rfl
    | cons unit text => exact List.dropWhile_cons_of_neg (Bool.eq_false_iff.mp (first unit rfl))
  rw [trim, start, List.rdropWhile_eq_self_iff]
  intro filled
  exact Bool.eq_false_iff.mp (last _ (List.getLast?_eq_getLast_of_ne_nil filled))

theorem trimmed_trim (text : JsString) : text.trim.Trimmed := by
  have isPrefix : text.trim <+: text.trimStart := List.rdropWhile_prefix isWhiteSpace text.trimStart
  constructor
  · intro unit head
    have ofStart : text.trimStart.head? = some unit := by
      obtain ⟨rest, split⟩ := isPrefix
      rw [← split, List.head?_append, Option.mem_def.mp head]
      rfl
    have notBlank := List.head?_dropWhile_not isWhiteSpace text
    rw [← trimStart, ofStart] at notBlank
    exact Bool.eq_false_iff.mpr (by simpa using notBlank)
  · intro unit last
    obtain ⟨filled, rfl⟩ := List.mem_getLast?_eq_getLast last
    exact Bool.eq_false_iff.mpr (List.rdropWhile_last_not isWhiteSpace text.trimStart filled)

/-- White space around a text that has none at its ends is taken off. -/
theorem trim_append {front body back : JsString}
    (blankFront : ∀ unit ∈ front, isWhiteSpace unit = true)
    (blankBack : ∀ unit ∈ back, isWhiteSpace unit = true) (trimmed : body.Trimmed) :
    trim (front ++ body ++ back) = body := by
  have start : trimStart (front ++ body ++ back) = (body ++ back).dropWhile isWhiteSpace := by
    rw [trimStart, List.append_assoc, List.dropWhile_append_of_pos blankFront]
  cases body with
  | nil =>
    have empty : back.dropWhile isWhiteSpace = [] := List.dropWhile_eq_nil_iff.mpr blankBack
    rw [trim, start, List.nil_append, empty]
    rfl
  | cons unit body =>
    have solid := Bool.eq_false_iff.mp (trimmed.1 unit rfl)
    have ended : ((unit :: body) ++ back).rdropWhile isWhiteSpace =
        (unit :: body).rdropWhile isWhiteSpace := by
      rw [List.rdropWhile, List.rdropWhile, List.reverse_append,
        List.dropWhile_append_of_pos fun unit member => blankBack unit (List.mem_reverse.mp member)]
    rw [trim, start, List.cons_append, List.dropWhile_cons_of_neg solid, ← List.cons_append, ended,
      List.rdropWhile_eq_self_iff]
    intro filled
    exact Bool.eq_false_iff.mp (trimmed.2 _ (List.getLast?_eq_getLast_of_ne_nil filled))

/-- A text is what is left of it when it is trimmed, with white space around. -/
theorem exists_trim (text : JsString) : ∃ front back, text = front ++ text.trim ++ back ∧
    (∀ unit ∈ front, isWhiteSpace unit = true) ∧ ∀ unit ∈ back, isWhiteSpace unit = true := by
  refine ⟨text.takeWhile isWhiteSpace, text.trimStart.rtakeWhile isWhiteSpace, ?_,
    fun unit => List.mem_takeWhile_imp, fun unit => List.mem_rtakeWhile_imp⟩
  rw [trim, List.append_assoc, List.rdropWhile_append_rtakeWhile, trimStart,
    List.takeWhile_append_dropWhile]

theorem trim_ne_nil {text : JsString} {unit : ℕ} (member : unit ∈ text)
    (solid : isWhiteSpace unit = false) : text.trim ≠ [] := by
  intro empty
  have blankRest := List.rdropWhile_eq_nil_iff.mp empty
  rw [← List.takeWhile_append_dropWhile (p := isWhiteSpace) (l := text)] at member
  have blank : isWhiteSpace unit = true := by
    rcases List.mem_append.mp member with start | rest
    · exact List.mem_takeWhile_imp start
    · exact blankRest unit rest
  rw [blank] at solid
  cases solid

/-- A text without white space is as it is when it is trimmed. -/
theorem trimmed_of_forall {text : JsString} (solid : ∀ unit ∈ text, isWhiteSpace unit = false) :
    text.Trimmed :=
  ⟨fun _ head => solid _ (List.mem_of_mem_head? head),
    fun _ last => solid _ (List.mem_of_mem_getLast? last)⟩

end JsString

end Ancore.Library.EcmaScript
