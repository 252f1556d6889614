import Ancore.Library.FixedPoint
import Ancore.Library.JsonNumbers

/-! # Numbers of texts

`Number(text)`, the sum of numbers, and `toFixed` of them.  What is not a number is `none`.
-/

namespace Ancore.Library.EcmaScript

/-! ## Reading -/

def isDecimalLiteral (text : List Char) : Bool :=
  let rest := text.dropWhile Char.isDigit
  let (fractional, behind) :=
    if rest.head? = some '.' then
      (rest.tail.takeWhile Char.isDigit, rest.tail.dropWhile Char.isDigit)
    else ([], rest)
  (text.takeWhile Char.isDigit ≠ [] || fractional ≠ []) &&
    (behind = [] || (behind.head?.any isExponentMark && isExponent behind))

/-- The value of a literal without a sign. -/
def decimalLiteral (text : List Char) : ℚ :=
  let mantissa := text.takeWhile (!isExponentMark ·)
  mantissaValue mantissa * 10 ^ exponentOf (text.dropWhile (!isExponentMark ·))

def radixOf (mark : Char) : Option ℕ :=
  if mark = 'x' ∨ mark = 'X' then some 16
  else if mark = 'o' ∨ mark = 'O' then some 8
  else if mark = 'b' ∨ mark = 'B' then some 2
  else none

def digitOf (letter : Char) : Option ℕ :=
  if letter.isDigit then some (letter.toNat - '0'.toNat)
  else if 'a' ≤ letter ∧ letter ≤ 'f' then some (letter.toNat - 'a'.toNat + 10)
  else if 'A' ≤ letter ∧ letter ≤ 'F' then some (letter.toNat - 'A'.toNat + 10)
  else none

/-- The number of digits in a base. -/
def radixLiteral (base : ℕ) (letters : List Char) : Option ℕ :=
  if letters = [] then none
  else (letters.mapM fun letter => (digitOf letter).filter (· < base)).map fun digits =>
    digits.foldl (fun number digit => base * number + digit) 0

/-- A literal of another base than ten. -/
def radixNumber : List Char → Option (Option JsNumber)
  | '0' :: mark :: letters => (radixOf mark).map fun base =>
    (radixLiteral base letters).map fun number => .nearest false number
  | _ => none

def signedNumber (negative : Bool) (letters : List Char) : Option JsNumber :=
  if letters = "Infinity".toList then some (.infinite negative)
  else if isDecimalLiteral letters then some (.nearest negative (decimalLiteral letters))
  else none

/-- `Number(text)` -/
def numberOfText (text : String) : Option JsNumber :=
  let letters := (trim text).toList
  match radixNumber letters with
  | some number => number
  | none =>
    match letters with
    | [] => some (.finite false .zero)
    | '-' :: rest => signedNumber true rest
    | '+' :: rest => signedNumber false rest
    | rest => signedNumber false rest

/-! ## Sums -/

def JsNumber.signedValue (negative : Bool) (magnitude : Magnitude) : ℚ :=
  if negative then -magnitude.value else magnitude.value

/-- `a + b` -/
def addNumbers : Option JsNumber → Option JsNumber → Option JsNumber
  | some (.finite negative magnitude), some (.finite negative' magnitude') =>
    let sum := JsNumber.signedValue negative magnitude + JsNumber.signedValue negative' magnitude'
    some (.nearest (sum < 0) |sum|)
  | some (.infinite negative), some (.infinite negative') =>
    if negative = negative' then some (.infinite negative) else none
  | some (.infinite negative), some (.finite _ _) => some (.infinite negative)
  | some (.finite _ _), some (.infinite negative) => some (.infinite negative)
  | _, _ => none

/-! ## Writing -/

/-- `value.toFixed(places)` -/
def numberToFixed (places : ℕ) : Option JsNumber → String
  | none => "NaN"
  | some (.infinite negative) => if negative then "-Infinity" else "Infinity"
  | some (.finite negative magnitude) =>
    -- from here on, all digits are written
    if 10 ^ 21 ≤ magnitude.value then
      (if negative then "-" else "") ++ String.ofList magnitude.text
    else toFixed places (JsNumber.signedValue negative magnitude)

end Ancore.Library.EcmaScript
