import Ancore.Library.CodeUnits
import Ancore.Library.RegExp

/-! # Classes of code units

The classes of expressions that are searched for in strings of code units.
-/

namespace Ancore.Library.EcmaScript.JsString

def isUpper (unit : ℕ) : Bool := 0x41 ≤ unit && unit ≤ 0x5A

def isLower (unit : ℕ) : Bool := 0x61 ≤ unit && unit ≤ 0x7A

/-- `[a-z]` in any case. -/
def isLetter (unit : ℕ) : Bool := isUpper unit || isLower unit

def isAlphanumeric (unit : ℕ) : Bool := isLetter unit || isDigit unit

/-- `\w` -/
def isWord (unit : ℕ) : Bool := isAlphanumeric unit || unit = 0x5F

theorem isWord_of_isLetter {unit : ℕ} (letter : isLetter unit = true) : isWord unit = true := by
  rw [isWord, isAlphanumeric, letter, Bool.true_or, Bool.true_or]

/-- The letter, a small one in any case. -/
def isUnitOf (letter : Char) (unit : ℕ) : Bool := unit = letter.toNat || unit = letter.toUpper.toNat

/-- The letters of a word in any case, and what follows. -/
def spelled (letters : String) (rest : RegExp ℕ) : RegExp ℕ :=
  letters.toList.foldr (fun letter rest => .sequence (.letter (isUnitOf letter)) rest) rest

def oneOf (letters : String) : RegExp ℕ :=
  .letter fun unit => letters.toList.any fun letter => isUnitOf letter unit

end Ancore.Library.EcmaScript.JsString
