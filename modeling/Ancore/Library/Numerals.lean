import Ancore.Library.Decimals
import Ancore.Library.EcmaScript

/-! # Plain decimal numerals

Digits with an optional sign and an optional fraction, and no exponent: their texts, their
values, and what becomes of the digits of a fraction that is cut off or filled up with zeros.
-/

namespace Ancore.Library.EcmaScript

structure Numeral where
  negative : Bool
  whole : List Char
  fractional : List Char
  nonempty : whole ≠ []
  wholeDigits : ∀ letter ∈ whole, letter.isDigit = true
  fractionalDigits : ∀ letter ∈ fractional, letter.isDigit = true

/-- A natural number with a sign. -/
def signed (negative : Bool) (magnitude : Nat) : Int :=
  if negative then -magnitude else magnitude

/-- `/^-?\d+(\.\d+)?$/` -/
def isNumeral (text : List Char) : Bool :=
  let digits := if text.head? = some '-' then text.tail else text
  let rest := digits.dropWhile Char.isDigit
  digits.takeWhile Char.isDigit ≠ [] &&
    (rest = [] || (rest.head? = some '.' && rest.tail ≠ [] && rest.tail.all Char.isDigit))

/-- The first two parts of `text.split('.')`. -/
def beforePoint (text : List Char) : List Char := text.takeWhile (· ≠ '.')

def behindPoint (text : List Char) : List Char :=
  ((text.dropWhile (· ≠ '.')).drop 1).takeWhile (· ≠ '.')

/-- `BigInt(text)` of a text without white space and of no other base than ten. -/
def bigInt : List Char → Option Int
  | [] => some 0
  | '-' :: digits =>
    if digits ≠ [] ∧ digits.all Char.isDigit then some (signed true (Nat.ofDigitChars 10 digits 0))
    else none
  | '+' :: digits =>
    if digits ≠ [] ∧ digits.all Char.isDigit then some (signed false (Nat.ofDigitChars 10 digits 0))
    else none
  | digits =>
    if digits.all Char.isDigit then some (signed false (Nat.ofDigitChars 10 digits 0)) else none

/-! ## Digits -/

theorem digit_lt {letter : Char} (digit : letter.isDigit = true) :
    letter.toNat - '0'.toNat < 10 := by
  have bounds : 48 ≤ letter.toNat ∧ letter.toNat ≤ 57 := by
    simp only [Char.isDigit, Bool.and_eq_true, decide_eq_true_iff] at digit
    exact ⟨digit.1, digit.2⟩
  change letter.toNat - 48 < 10
  omega

theorem ofDigitChars_lt {digits : List Char} (all : ∀ letter ∈ digits, letter.isDigit = true) :
    Nat.ofDigitChars 10 digits 0 < 10 ^ digits.length := by
  induction digits with
  | nil => simp
  | cons letter digits inductionHypothesis =>
    obtain ⟨digit, rest⟩ := List.forall_mem_cons.mp all
    have below := inductionHypothesis rest
    have value := digit_lt digit
    rw [Nat.ofDigitChars_cons, Nat.ofDigitChars_eq_ofDigitChars_zero, List.length_cons,
      Nat.pow_succ]
    calc 10 ^ digits.length * (10 * 0 + (letter.toNat - '0'.toNat)) + Nat.ofDigitChars 10 digits 0
        < 10 ^ digits.length * (10 * 0 + (letter.toNat - '0'.toNat)) + 10 ^ digits.length := by
            omega
      _ = 10 ^ digits.length * (letter.toNat - '0'.toNat + 1) := by ring
      _ ≤ 10 ^ digits.length * 10 := Nat.mul_le_mul_left _ value

theorem ofDigitChars_eq_zero {digits : List Char} (zeros : ∀ letter ∈ digits, letter = '0') :
    Nat.ofDigitChars 10 digits 0 = 0 := by
  rw [List.eq_replicate_of_mem zeros, Nat.ofDigitChars_replicate_zero, Nat.mul_zero]

theorem ofDigitChars_split (whole fractional : List Char) (places : Nat) :
    Nat.ofDigitChars 10 (whole ++ fractional) 0 =
      10 ^ (fractional.length - places) * Nat.ofDigitChars 10 (whole ++ fractional.take places) 0 +
        Nat.ofDigitChars 10 (fractional.drop places) 0 := by
  rw [← List.length_drop, ← Nat.ofDigitChars_eq_ofDigitChars_zero, ← Nat.ofDigitChars_append,
    List.append_assoc, List.take_append_drop]

/-- Digits are cut off a number by division. -/
theorem ofDigitChars_take {whole fractional : List Char} {places : Nat}
    (digits : ∀ letter ∈ fractional, letter.isDigit = true) :
    Nat.ofDigitChars 10
        (whole ++ (fractional ++ List.replicate (places - fractional.length) '0').take places) 0 =
      Nat.ofDigitChars 10 (whole ++ fractional) 0 * 10 ^ places / 10 ^ fractional.length := by
  rcases Nat.le_total places fractional.length with fewer | more
  · have cut : (fractional ++ List.replicate (places - fractional.length) '0').take places =
        fractional.take places := List.take_append_of_le_length fewer
    have below : Nat.ofDigitChars 10 (fractional.drop places) 0 <
        10 ^ (fractional.length - places) := by
      rw [← List.length_drop]
      exact ofDigitChars_lt fun letter member => digits letter (List.mem_of_mem_drop member)
    have powers : 10 ^ fractional.length = 10 ^ (fractional.length - places) * 10 ^ places := by
      rw [← Nat.pow_add, Nat.sub_add_cancel fewer]
    rw [cut, ofDigitChars_split whole fractional places, powers,
      Nat.mul_div_mul_right _ _ (by positivity),
      Nat.mul_add_div (by positivity), Nat.div_eq_of_lt below, Nat.add_zero]
  · have filled : (fractional ++ List.replicate (places - fractional.length) '0').take places =
        fractional ++ List.replicate (places - fractional.length) '0' :=
      List.take_of_length_le (by rw [List.length_append, List.length_replicate]; omega)
    have powers : 10 ^ places = 10 ^ (places - fractional.length) * 10 ^ fractional.length := by
      rw [← Nat.pow_add, Nat.sub_add_cancel more]
    rw [filled, ← List.append_assoc, Nat.ofDigitChars_append, Nat.ofDigitChars_replicate_zero,
      powers, ← Nat.mul_assoc, Nat.mul_div_cancel _ (by positivity), Nat.mul_comm]

/-- Where only zeros are cut off, the division leaves no rest. -/
theorem pow_length_dvd {whole fractional : List Char} {places : Nat}
    (zeros : ∀ letter ∈ fractional.drop places, letter = '0') :
    10 ^ fractional.length ∣ Nat.ofDigitChars 10 (whole ++ fractional) 0 * 10 ^ places := by
  rcases Nat.le_total places fractional.length with fewer | more
  · have powers : 10 ^ fractional.length = 10 ^ (fractional.length - places) * 10 ^ places := by
      rw [← Nat.pow_add, Nat.sub_add_cancel fewer]
    rw [ofDigitChars_split whole fractional places, ofDigitChars_eq_zero zeros, Nat.add_zero,
      powers]
    exact Nat.mul_dvd_mul_right (Nat.dvd_mul_right _ _) _
  · exact (Nat.pow_dvd_pow 10 more).trans (Nat.dvd_mul_left _ _)

/-- Zeros behind a fraction change nothing. -/
theorem digitsValue_append_zeros (whole fractional : List Char) (count : Nat) :
    digitsValue whole (fractional ++ List.replicate count '0') = digitsValue whole fractional := by
  have power : (10 : ℚ) ^ count ≠ 0 := pow_ne_zero _ (by norm_num)
  rw [digitsValue, digitsValue, ← List.append_assoc, Nat.ofDigitChars_append,
    Nat.ofDigitChars_replicate_zero, List.length_append, List.length_replicate, pow_add,
    Nat.cast_mul, Nat.cast_pow, Nat.cast_ofNat, mul_comm (10 ^ fractional.length),
    mul_div_mul_left _ _ power]

/-- Only zero is printed with a zero before all. -/
theorem eq_zero_of_head_toDigits {number : Nat}
    (head : (Nat.toDigits 10 number).head? = some '0') : number = 0 := by
  induction number using Nat.strongRecOn with
  | ind number inductionHypothesis =>
    rw [Nat.toDigits_eq_if (by decide)] at head
    split at head
    · rw [List.head?_cons, Option.some.injEq, Nat.digitChar_eq_zero] at head
      exact head
    · rename_i large
      rw [List.head?_append_of_ne_nil _ Nat.toDigits_ne_nil] at head
      have := inductionHypothesis (number / 10) (by omega) head
      omega

/-- Digits without a zero in front are the ones that their number is printed with. -/
theorem toDigits_ofDigitChars {digits : List Char} (filled : digits ≠ [])
    (all : ∀ letter ∈ digits, letter.isDigit = true)
    (leading : digits.head? = some '0' → digits = ['0']) :
    Nat.toDigits 10 (Nat.ofDigitChars 10 digits 0) = digits := by
  induction digits using List.reverseRecOn with
  | nil => exact absurd rfl filled
  | append_singleton front last ih =>
    obtain ⟨frontDigits, lastDigit⟩ := List.forall_mem_append.mp all
    have digit := lastDigit last List.mem_cons_self
    have small := digit_lt digit
    have back : Nat.digitChar (last.toNat - '0'.toNat) = last := by
      have bounds : 48 ≤ last.toNat ∧ last.toNat ≤ 57 := by
        simp only [Char.isDigit, Bool.and_eq_true, decide_eq_true_iff] at digit
        exact ⟨digit.1, digit.2⟩
      have printed : ∀ code ≤ 57, 48 ≤ code →
          (Nat.digitChar (code - 48)).toNat = code := by decide
      exact Char.toNat_inj.mp (printed last.toNat bounds.2 bounds.1)
    rw [Nat.ofDigitChars_append, Nat.ofDigitChars_cons, Nat.ofDigitChars_nil]
    by_cases empty : front = []
    · subst empty
      rw [Nat.ofDigitChars_nil, Nat.mul_zero, Nat.zero_add, Nat.toDigits_of_lt_base small, back]
      rfl
    · have noZero : front.head? ≠ some '0' := by
        intro head
        have single := leading (by rw [List.head?_append_of_ne_nil _ empty, head])
        have length := congrArg List.length single
        rw [List.length_append] at length
        exact empty (List.length_eq_zero_iff.mp (Nat.succ.inj length))
      have printed := ih empty frontDigits fun head => absurd head noZero
      have positive : 0 < Nat.ofDigitChars 10 front 0 := by
        refine Nat.pos_of_ne_zero fun zero => noZero ?_
        rw [zero, Nat.toDigits_zero] at printed
        rw [← printed]
        rfl
      rw [← Nat.toDigits_append_toDigits (by decide) positive small, printed,
        Nat.toDigits_of_lt_base small, back]

theorem isWhiteSpace_of_isDigit {letter : Char} (digit : letter.isDigit = true) :
    isWhiteSpace letter = false :=
  isWhiteSpace_of_isAlphanum (by rw [Char.isAlphanum, digit, Bool.or_true])

/-! ## Texts of numerals -/

namespace Numeral

variable (numeral : Numeral)

def sign : List Char := if numeral.negative then ['-'] else []

def text : List Char :=
  numeral.sign ++ numeral.whole ++
    (if numeral.fractional = [] then [] else '.' :: numeral.fractional)

def magnitude : ℚ := digitsValue numeral.whole numeral.fractional

def value : ℚ := if numeral.negative then -numeral.magnitude else numeral.magnitude

theorem not_mem_whole {mark : Char} (other : mark.isDigit = false) : mark ∉ numeral.whole :=
  Decimal.not_mem_of_digits numeral.wholeDigits other

theorem not_mem_fractional {mark : Char} (other : mark.isDigit = false) :
    mark ∉ numeral.fractional := Decimal.not_mem_of_digits numeral.fractionalDigits other

theorem point_not_mem : '.' ∉ numeral.sign ++ numeral.whole := by
  intro member
  rcases List.mem_append.mp member with member | member
  · rw [sign] at member
    split at member
    · cases List.mem_singleton.mp member
    · cases member
  · exact numeral.not_mem_whole rfl member

theorem beforePoint_text : beforePoint numeral.text = numeral.sign ++ numeral.whole := by
  have free := numeral.point_not_mem
  rw [beforePoint, text]
  split
  · rw [List.append_nil]
    exact (takeWhile_ne_self free).1
  · exact (takeWhile_ne free).1

theorem behindPoint_text : behindPoint numeral.text = numeral.fractional := by
  have free := numeral.point_not_mem
  rw [behindPoint, text]
  split
  · rename_i empty
    rw [List.append_nil, (takeWhile_ne_self free).2, empty]
    rfl
  · rw [(takeWhile_ne free).2, List.drop_one, List.tail_cons]
    exact (takeWhile_ne_self (numeral.not_mem_fractional rfl)).1

theorem head_whole : ∃ first rest, numeral.whole = first :: rest ∧ first.isDigit = true := by
  obtain ⟨first, rest, split⟩ := List.exists_cons_of_ne_nil numeral.nonempty
  exact ⟨first, rest, split, numeral.wholeDigits first (split ▸ List.mem_cons_self)⟩

/-- The digits after the sign. -/
theorem unsigned_text :
    (if numeral.text.head? = some '-' then numeral.text.tail else numeral.text) =
      numeral.whole ++ (if numeral.fractional = [] then [] else '.' :: numeral.fractional) := by
  obtain ⟨first, rest, split, digit⟩ := numeral.head_whole
  rw [text, sign]
  cases numeral.negative with
  | true => rfl
  | false =>
    have other : first ≠ '-' := by
      rintro rfl
      cases digit
    simp [split, other]

theorem isNumeral_text : isNumeral numeral.text = true := by
  rw [isNumeral]
  simp only [unsigned_text]
  have rest : List.dropWhile Char.isDigit
      (if numeral.fractional = [] then [] else '.' :: numeral.fractional) =
        if numeral.fractional = [] then [] else '.' :: numeral.fractional := by
    split <;> rfl
  rw [List.takeWhile_append_of_pos numeral.wholeDigits,
    List.dropWhile_append_of_pos numeral.wholeDigits, rest]
  have whole := numeral.nonempty
  by_cases empty : numeral.fractional = []
  · simp [empty, whole]
  · simp [empty, whole]
    exact numeral.fractionalDigits

/-- What matches is the text of a numeral. -/
theorem exists_of_isNumeral {text : List Char} (matching : isNumeral text = true) :
    ∃ numeral : Numeral, numeral.text = text := by
  obtain ⟨digits, negative, split⟩ : ∃ digits, ∃ negative : Bool,
      digits = (if text.head? = some '-' then text.tail else text) ∧
        text = (if negative then ['-'] else []) ++ digits := by
    by_cases minus : text.head? = some '-'
    · refine ⟨text.tail, true, by rw [if_pos minus], ?_⟩
      obtain ⟨rest, rfl⟩ := List.head?_eq_some_iff.mp minus
      rfl
    · exact ⟨text, false, by rw [if_neg minus], rfl⟩
  rw [isNumeral] at matching
  simp only [← split.1, Bool.and_eq_true, Bool.or_eq_true, decide_eq_true_iff] at matching
  obtain ⟨whole, rest⟩ := matching
  have wholeDigits : ∀ letter ∈ digits.takeWhile Char.isDigit, letter.isDigit = true :=
    fun _ => List.mem_takeWhile_imp
  have parts := List.takeWhile_append_dropWhile (p := Char.isDigit) (l := digits)
  rcases rest with empty | ⟨⟨point, some⟩, fractionalDigits⟩
  · refine ⟨⟨negative, digits.takeWhile Char.isDigit, [], whole, wholeDigits, nofun⟩, ?_⟩
    rw [empty, List.append_nil] at parts
    simp only [Numeral.text, sign, parts, if_true, List.append_nil]
    exact split.2.symm
  · obtain ⟨fractional, split'⟩ := List.head?_eq_some_iff.mp point
    rw [split', List.tail_cons] at some fractionalDigits
    refine ⟨⟨negative, digits.takeWhile Char.isDigit, fractional, whole, wholeDigits,
      List.all_eq_true.mp fractionalDigits⟩, ?_⟩
    rw [split'] at parts
    rw [split.2, Numeral.text, sign]
    simp only [if_neg some]
    rw [List.append_assoc, parts]

theorem isNumeral_iff {text : List Char} :
    isNumeral text = true ↔ ∃ numeral : Numeral, numeral.text = text := by
  refine ⟨exists_of_isNumeral, ?_⟩
  rintro ⟨numeral, rfl⟩
  exact numeral.isNumeral_text

/-- A numeral is told by its text. -/
theorem eq_of_text_eq {numeral numeral' : Numeral} (same : numeral.text = numeral'.text) :
    numeral = numeral' := by
  have fractional := congrArg behindPoint same
  have before := congrArg beforePoint same
  rw [behindPoint_text, behindPoint_text] at fractional
  rw [beforePoint_text, beforePoint_text] at before
  have minus {numeral numeral' : Numeral} (plus : numeral.negative = false)
      (minus : numeral'.negative = true) :
      numeral.sign ++ numeral.whole ≠ numeral'.sign ++ numeral'.whole := by
    obtain ⟨first, rest, split, digit⟩ := numeral.head_whole
    rw [sign, sign, plus, minus, split]
    intro same
    rw [(List.cons.inj same).1] at digit
    cases digit
  obtain ⟨negative, whole, fractions, _, _, _⟩ := numeral
  obtain ⟨negative', whole', fractions', _, _, _⟩ := numeral'
  cases negative with
  | true =>
    cases negative' with
    | true =>
      have tails := (List.cons.inj before).2
      simp only at tails fractional
      subst tails
      subst fractional
      rfl
    | false => exact absurd before.symm (minus rfl rfl)
  | false =>
    cases negative' with
    | true => exact absurd before (minus rfl rfl)
    | false =>
      simp only at fractional
      have wholes : whole = whole' := before
      subst wholes
      subst fractional
      rfl

theorem text_ne_nil : numeral.text ≠ [] := by
  obtain ⟨first, rest, split, -⟩ := numeral.head_whole
  rw [text, split]
  simp

/-- The letters of a numeral. -/
theorem letter_of_mem_text {letter : Char} (member : letter ∈ numeral.text) :
    letter = '-' ∨ letter = '.' ∨ letter.isDigit = true := by
  rw [text, List.mem_append, List.mem_append, sign] at member
  rcases member with (member | member) | member
  · split at member
    · exact .inl (List.mem_singleton.mp member)
    · cases member
  · exact .inr (.inr (numeral.wholeDigits letter member))
  · split at member
    · cases member
    · rcases List.mem_cons.mp member with same | member
      · exact .inr (.inl same)
      · exact .inr (.inr (numeral.fractionalDigits letter member))

/-- There is nothing to trim. -/
theorem trim_text : trim (String.ofList numeral.text) = String.ofList numeral.text := by
  have solid : ∀ letter ∈ numeral.text, isWhiteSpace letter = false := by
    intro letter member
    rcases numeral.letter_of_mem_text member with rfl | rfl | digit
    · rfl
    · rfl
    · exact isWhiteSpace_of_isDigit digit
  apply trim_of_solid
  rwa [String.toList_ofList]

/-! ### Values -/

theorem magnitude_nonneg : 0 ≤ numeral.magnitude := by
  rw [magnitude, digitsValue]
  positivity

theorem abs_value : |numeral.value| = numeral.magnitude := by
  have nonneg := numeral.magnitude_nonneg
  rw [value]
  split
  · rw [abs_neg, abs_of_nonneg nonneg]
  · exact abs_of_nonneg nonneg

/-- The whole digits are the whole part. -/
theorem ofDigitChars_whole : Nat.ofDigitChars 10 numeral.whole 0 = ⌊numeral.magnitude⌋₊ := by
  have cut := @ofDigitChars_take numeral.whole numeral.fractional 0 numeral.fractionalDigits
  have floor := Nat.floor_div_eq_div (K := ℚ)
    (Nat.ofDigitChars 10 (numeral.whole ++ numeral.fractional) 0) (10 ^ numeral.fractional.length)
  rw [List.take_zero, List.append_nil, Nat.pow_zero, Nat.mul_one] at cut
  rw [cut, magnitude, digitsValue, ← floor, Nat.cast_pow, Nat.cast_ofNat]

theorem literalValue_unsigned :
    literalValue (numeral.whole ++
      (if numeral.fractional = [] then [] else '.' :: numeral.fractional)) =
        numeral.magnitude := by
  have noPoint : '.' ∉ numeral.whole := numeral.not_mem_whole rfl
  have noExponent : 'e' ∉ numeral.whole ++
      (if numeral.fractional = [] then [] else '.' :: numeral.fractional) := by
    intro member
    rcases List.mem_append.mp member with member | member
    · exact numeral.not_mem_whole rfl member
    · split at member
      · cases member
      · rcases List.mem_cons.mp member with same | member
        · cases same
        · exact numeral.not_mem_fractional rfl member
  rw [literalValue_mantissa noExponent, magnitude]
  split
  · rename_i empty
    rw [List.append_nil, mantissaValue_whole noPoint, empty, digitsValue]
    simp
  · exact mantissaValue_point noPoint

/-- No superfluous zeros, and no sign on zero. -/
structure Canonical : Prop where
  leading : numeral.whole.head? = some '0' → numeral.whole = ['0']
  trailing : numeral.fractional.getLast? ≠ some '0'
  sign : numeral.negative = true → numeral.value ≠ 0

end Numeral

/-! ## Texts of numbers -/

namespace Decimal

/-- A number whose text has an exponent. -/
def IsScientific (decimal : Decimal) : Prop := decimal.point ≤ -6 ∨ 21 < decimal.point

instance (decimal : Decimal) : Decidable decimal.IsScientific :=
  inferInstanceAs (Decidable (_ ∨ _))

variable {decimal : Decimal}

def exponentPart (decimal : Decimal) : List Char :=
  'e' :: (if decimal.point < 1 then '-' else '+') :: Nat.toDigits 10 (decimal.point - 1).natAbs

theorem point_not_mem_exponentPart : '.' ∉ decimal.exponentPart := by
  intro member
  rw [exponentPart] at member
  rcases List.mem_cons.mp member with same | member
  · cases same
  rcases List.mem_cons.mp member with same | member
  · split at same <;> cases same
  · cases Nat.isDigit_of_mem_toDigits (b := 10) (by decide) (by decide) member

theorem text_of_scientific (scientific : decimal.IsScientific) :
    decimal.text = decimal.digits.take 1 ++
      (if decimal.digits.length = 1 then [] else '.' :: decimal.digits.drop 1) ++
        decimal.exponentPart := by
  have length := decimal.length_digits_pos
  rw [IsScientific] at scientific
  have point : decimal.point = decimal.digits.length + decimal.exponent := rfl
  rw [text, if_neg (by omega), if_neg (by omega), if_neg (by omega), exponentPart]

/-- Without an exponent the text is that of a numeral. -/
theorem exists_numeral (negative : Bool) (plain : ¬ decimal.IsScientific) :
    ∃ numeral : Numeral, numeral.negative = negative ∧
      decimal.text = numeral.whole ++
        (if numeral.fractional = [] then [] else '.' :: numeral.fractional) := by
  have length := decimal.length_digits_pos
  have point : decimal.point = decimal.digits.length + decimal.exponent := rfl
  have nonempty : decimal.digits ≠ [] := List.ne_nil_of_length_pos length
  have digits : ∀ letter ∈ decimal.digits, letter.isDigit = true :=
    fun _ => decimal.isDigit_of_mem_digits
  have zeros (count : Nat) : ∀ letter ∈ List.replicate count '0', letter.isDigit = true := by
    intro letter member
    rw [List.eq_of_mem_replicate member]
    rfl
  rw [IsScientific] at plain
  rw [text]
  split
  · refine ⟨⟨negative, decimal.digits ++ List.replicate decimal.exponent.toNat '0', [],
      List.append_ne_nil_of_left_ne_nil nonempty _, ?_, List.forall_mem_nil _⟩, rfl, ?_⟩
    · exact List.forall_mem_append.mpr ⟨digits, zeros _⟩
    · rw [if_pos rfl, List.append_nil]
  · split
    · have inside : decimal.digits.drop decimal.point.toNat ≠ [] := by
        rw [Ne, List.drop_eq_nil_iff]
        omega
      refine ⟨⟨negative, decimal.digits.take decimal.point.toNat,
        decimal.digits.drop decimal.point.toNat, ?_, ?_, ?_⟩, rfl, ?_⟩
      · rw [Ne, List.take_eq_nil_iff]
        intro empty
        rcases empty with empty | empty
        · omega
        · exact nonempty empty
      · exact fun letter member => digits letter (List.mem_of_mem_take member)
      · exact fun letter member => digits letter (List.mem_of_mem_drop member)
      · rw [if_neg inside]
    · split
      · refine ⟨⟨negative, ['0'], List.replicate (-decimal.point).toNat '0' ++ decimal.digits,
          List.cons_ne_nil _ _, zeros 1, List.forall_mem_append.mpr ⟨zeros _, digits⟩⟩, rfl, ?_⟩
        rw [if_neg (List.append_ne_nil_of_right_ne_nil _ nonempty)]
        rfl
      · omega

end Decimal

/-! ## Whole numbers -/

theorem bigInt_sign (negative : Bool) {digits : List Char} (nonempty : digits ≠ [])
    (all : ∀ letter ∈ digits, letter.isDigit = true) :
    bigInt ((if negative then ['-'] else []) ++ digits) =
      some (signed negative (Nat.ofDigitChars 10 digits 0)) := by
  have every : digits.all Char.isDigit = true := List.all_eq_true.mpr all
  cases negative with
  | true =>
    change (if digits ≠ [] ∧ digits.all Char.isDigit then _ else _) = _
    rw [if_pos ⟨nonempty, every⟩]
    rfl
  | false =>
    obtain ⟨first, rest, rfl⟩ := List.exists_cons_of_ne_nil nonempty
    have digit := all first List.mem_cons_self
    rw [if_neg Bool.false_ne_true, List.nil_append, bigInt, if_pos every]
    · nofun
    · rintro _ same
      rw [(List.cons.inj same).1] at digit
      cases digit
    · rintro _ same
      rw [(List.cons.inj same).1] at digit
      cases digit

theorem bigInt_eq_none {text : List Char} {letter : Char} (member : letter ∈ text)
    (other : letter.isDigit = false ∧ letter ≠ '-' ∧ letter ≠ '+') : bigInt text = none := by
  have notAll {digits : List Char} (member : letter ∈ digits) :
      ¬ digits.all Char.isDigit = true := by
    intro all
    have digit := List.all_eq_true.mp all letter member
    rw [other.1] at digit
    cases digit
  rw [bigInt.eq_def]
  split
  · cases member
  · have inside := (List.mem_cons.mp member).resolve_left other.2.1
    rw [if_neg fun both => notAll inside both.2]
  · have inside := (List.mem_cons.mp member).resolve_left other.2.2
    rw [if_neg fun both => notAll inside both.2]
  · rw [if_neg (notAll member)]

/-! ## `parseFloat` -/

/-- What a text begins with. -/
inductive ParsedFloat where
  | nan
  | infinite (negative : Bool)
  | finite (value : ℚ)

/-- The exponent part that a text begins with, if any. -/
def leadingExponent : List Char → Int
  | [] => 0
  | letter :: rest =>
    if letter ≠ 'e' ∧ letter ≠ 'E' then 0
    else
      match rest with
      | '-' :: digits => -Nat.ofDigitChars 10 (digits.takeWhile Char.isDigit) 0
      | '+' :: digits => Nat.ofDigitChars 10 (digits.takeWhile Char.isDigit) 0
      | digits => Nat.ofDigitChars 10 (digits.takeWhile Char.isDigit) 0

def parseUnsigned (negative : Bool) (text : List Char) : ParsedFloat :=
  let rest := text.dropWhile Char.isDigit
  let (fractional, behind) :=
    if rest.head? = some '.' then
      (rest.tail.takeWhile Char.isDigit, rest.tail.dropWhile Char.isDigit)
    else ([], rest)
  if "Infinity".toList <+: text then .infinite negative
  else if text.takeWhile Char.isDigit = [] ∧ fractional = [] then .nan
  else
    let value := digitsValue (text.takeWhile Char.isDigit) fractional * 10 ^ leadingExponent behind
    .finite (if negative then -value else value)

/-- `parseFloat(text)`, before it is rounded. -/
def parseFloat (text : String) : ParsedFloat :=
  match text.toList.dropWhile isWhiteSpace with
  | '-' :: rest => parseUnsigned true rest
  | '+' :: rest => parseUnsigned false rest
  | rest => parseUnsigned false rest

/-- `parsed > 0`: up to half of the least double, a number is rounded to zero. -/
def ParsedFloat.isPositive : ParsedFloat → Bool
  | nan => false
  | infinite negative => !negative
  | finite value => decide (1 / 2 ^ 1075 < value)

end Ancore.Library.EcmaScript
