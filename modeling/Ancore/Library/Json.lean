import Ancore.Library.Decimals
import Ancore.Library.EcmaScript

/-! # JSON texts

Values of ECMAScript without functions, and what `JSON.stringify` makes of them with a
list of keys: at every depth only the members that the list names are written.  What is
written is a tree, and no two trees have the same text.
-/

namespace Ancore.Library.EcmaScript

/-! ## Values -/

inductive Numeric where
  | nan
  | infinite (negative : Bool)
  | zero (negative : Bool)
  | nonzero (negative : Bool) (decimal : Decimal)
  deriving DecidableEq

/-- A field that an object does not have is undefined. -/
inductive Value where
  | undefined
  | null
  | bool (value : Bool)
  | number (value : Numeric)
  | string (value : String)
  | array (items : List Value)
  | object (fields : String → Value)

namespace Value

/-- The property of a value; primitive values and arrays have none of those asked for here. -/
def get : Value → String → Value
  | object fields, name => fields name
  | _, _ => undefined

def isTruthy : Value → Bool
  | undefined => false
  | null => false
  | bool value => value
  | number .nan => false
  | number (.zero _) => false
  | string value => value ≠ ""
  | _ => true

/-- `typeof value === 'object'` -/
def isTypeofObject : Value → Bool
  | null => true
  | array _ => true
  | object _ => true
  | _ => false

end Value

/-! ## Trees -/

/-- A number that is written in a text. -/
inductive FiniteNumber where
  | zero
  | nonzero (negative : Bool) (decimal : Decimal)
  deriving DecidableEq

inductive Json where
  | null
  | bool (value : Bool)
  | number (value : FiniteNumber)
  | string (value : String)
  | array (items : List Json)
  | object (members : List (String × Json))

def FiniteNumber.text : FiniteNumber → List Char
  | zero => ['0']
  | nonzero false decimal => decimal.text
  | nonzero true decimal => '-' :: decimal.text

mutual

def Json.print : Json → List Char
  | .null => "null".toList
  | .bool true => "true".toList
  | .bool false => "false".toList
  | .number value => value.text
  | .string value => quote value
  | .array items => '[' :: (printItems items ++ [']'])
  | .object members => '\x7b' :: (printMembers members ++ ['\x7d'])

def printItems : List Json → List Char
  | [] => []
  | [item] => item.print
  | item :: items => item.print ++ ',' :: printItems items

def printMembers : List (String × Json) → List Char
  | [] => []
  | [(key, value)] => quote key ++ ':' :: value.print
  | (key, value) :: members => quote key ++ ':' :: (value.print ++ ',' :: printMembers members)

end

mutual

/-- The value that `JSON.parse` makes of a text. -/
def Json.value : Json → Value
  | .null => .null
  | .bool value => .bool value
  | .number .zero => .number (.zero false)
  | .number (.nonzero negative decimal) => .number (.nonzero negative decimal)
  | .string value => .string value
  | .array items => .array (valueItems items)
  | .object members => .object (valueMembers members)

def valueItems : List Json → List Value
  | [] => []
  | item :: items => item.value :: valueItems items

/-- An object has one member of a name. -/
def valueMembers : List (String × Json) → String → Value
  | [], _ => .undefined
  | (key, value) :: members, name => if key = name then value.value else valueMembers members name

end

/-! ## What is written of a value -/

def Numeric.written : Numeric → Json
  | .nan => .null
  | .infinite _ => .null
  | .zero _ => .number .zero
  | .nonzero negative decimal => .number (.nonzero negative decimal)

section

variable (keys : List String)

mutual

/-- What `JSON.stringify(value, keys)` writes; nothing where it returns `undefined`. -/
def visible : Value → Option Json
  | .undefined => none
  | .null => some .null
  | .bool value => some (.bool value)
  | .number value => some value.written
  | .string value => some (.string value)
  | .array items => some (.array (visibleItems items))
  | .object fields =>
    some (.object (keys.filterMap fun key => (visible (fields key)).map fun value => (key, value)))

def visibleItems : List Value → List Json
  | [] => []
  | item :: items => (visible item).getD .null :: visibleItems items

end

/-- `JSON.stringify(value, keys)` -/
def stringify (value : Value) : Option (List Char) := (visible keys value).map Json.print

end

/-! ## Texts are told apart -/

namespace FiniteNumber

/-- The value of the text of a number. -/
def signedValue : List Char → ℚ
  | '-' :: text => -literalValue text
  | text => literalValue text

def value : FiniteNumber → ℚ
  | zero => 0
  | nonzero false decimal => decimal.value
  | nonzero true decimal => -decimal.value

theorem signedValue_text (number : FiniteNumber) : signedValue number.text = number.value := by
  cases number with
  | zero => decide +kernel
  | nonzero negative decimal =>
    cases negative with
    | true => exact congrArg Neg.neg decimal.literalValue_text
    | false =>
      obtain ⟨first, rest, split, digit⟩ := decimal.text_head
      have read : signedValue decimal.text = literalValue decimal.text := by
        rw [split, signedValue]
        rintro tail same
        cases same
        cases digit
      exact read.trans decimal.literalValue_text

theorem value_inj {number number' : FiniteNumber} (same : number.value = number'.value) :
    number = number' := by
  cases number with
  | zero =>
    cases number' with
    | zero => rfl
    | nonzero negative decimal =>
      have positive := decimal.value_pos
      cases negative <;> simp only [value] at same <;> linarith
  | nonzero negative decimal =>
    have positive := decimal.value_pos
    cases number' with
    | zero => cases negative <;> simp only [value] at same <;> linarith
    | nonzero negative' decimal' =>
      have positive' := decimal'.value_pos
      cases negative <;> cases negative' <;> simp only [value] at same
      · rw [Decimal.eq_of_value_eq same]
      · linarith
      · linarith
      · rw [Decimal.eq_of_value_eq (neg_inj.mp same)]

theorem text_inj {number number' : FiniteNumber} (same : number.text = number'.text) :
    number = number' := by
  refine value_inj ?_
  rw [← signedValue_text, ← signedValue_text, same]

theorem isNumeralLetter_of_mem_text {number : FiniteNumber} {letter : Char}
    (member : letter ∈ number.text) : isNumeralLetter letter = true := by
  cases number with
  | zero =>
    rw [List.mem_singleton.mp member]
    rfl
  | nonzero negative decimal =>
    cases negative with
    | false => exact decimal.isNumeralLetter_of_mem_text member
    | true =>
      rcases List.mem_cons.mp member with rfl | member
      · rfl
      · exact decimal.isNumeralLetter_of_mem_text member

theorem text_head (number : FiniteNumber) :
    ∃ first rest, number.text = first :: rest ∧ isNumeralLetter first = true := by
  cases number with
  | zero => exact ⟨'0', [], rfl, rfl⟩
  | nonzero negative decimal =>
    cases negative with
    | true => exact ⟨'-', decimal.text, rfl, rfl⟩
    | false =>
      obtain ⟨first, rest, split, -⟩ := decimal.text_head
      exact ⟨first, rest, split, decimal.isNumeralLetter_of_mem_text (split ▸ List.mem_cons_self)⟩

end FiniteNumber

/-- What follows a value: nothing that a number could go on with. -/
def Terminated (rest : List Char) : Prop := rest.takeWhile isNumeralLetter = []

theorem FiniteNumber.text_append_inj {number number' : FiniteNumber} {rest rest' : List Char}
    (ends : Terminated rest) (ends' : Terminated rest')
    (equal : number.text ++ rest = number'.text ++ rest') : number = number' ∧ rest = rest' := by
  have all (number : FiniteNumber) : ∀ letter ∈ number.text, isNumeralLetter letter = true :=
    fun _ => isNumeralLetter_of_mem_text
  have same := congrArg (List.takeWhile isNumeralLetter) equal
  rw [List.takeWhile_append_of_pos (all number), List.takeWhile_append_of_pos (all number'),
    ends, ends', List.append_nil, List.append_nil] at same
  rw [same] at equal
  exact ⟨FiniteNumber.text_inj same, List.append_cancel_left equal⟩

/-- The sort of a value, and that of the letter it starts with. -/
def Json.sort : Json → Nat
  | .null => 0
  | .bool true => 1
  | .bool false => 2
  | .number _ => 3
  | .string _ => 4
  | .array _ => 5
  | .object _ => 6

def sortOfLetter (letter : Char) : Nat :=
  if letter = 'n' then 0
  else if letter = 't' then 1
  else if letter = 'f' then 2
  else if isNumeralLetter letter then 3
  else if letter = '"' then 4
  else if letter = '[' then 5
  else if letter = '\x7b' then 6
  else 7

theorem sortOfLetter_numeral {letter : Char} (numeral : isNumeralLetter letter = true) :
    sortOfLetter letter = 3 := by
  rw [sortOfLetter]
  split_ifs <;> simp_all [isNumeralLetter]

theorem Json.print_head (tree : Json) :
    ∃ first rest, tree.print = first :: rest ∧ sortOfLetter first = tree.sort := by
  cases tree with
  | null => exact ⟨'n', _, rfl, rfl⟩
  | bool value => cases value <;> exact ⟨_, _, rfl, rfl⟩
  | number value =>
    obtain ⟨first, rest, split, numeral⟩ := value.text_head
    exact ⟨first, rest, split, sortOfLetter_numeral numeral⟩
  | string value => exact ⟨'"', _, rfl, rfl⟩
  | array items => exact ⟨'[', _, rfl, rfl⟩
  | object members => exact ⟨'\x7b', _, rfl, rfl⟩

/-- Values that start alike are of one sort. -/
theorem Json.sort_eq {tree tree' : Json} {rest rest' : List Char}
    (equal : tree.print ++ rest = tree'.print ++ rest') : tree.sort = tree'.sort := by
  obtain ⟨first, tail, split, sort⟩ := tree.print_head
  obtain ⟨first', tail', split', sort'⟩ := tree'.print_head
  rw [split, split', List.cons_append, List.cons_append] at equal
  rw [← sort, ← sort', (List.cons.inj equal).1]

theorem Json.print_ne_close {tree : Json} {rest rest' : List Char} {letter : Char}
    (close : sortOfLetter letter = 7) : tree.print ++ rest ≠ letter :: rest' := by
  intro equal
  obtain ⟨first, tail, split, sort⟩ := tree.print_head
  rw [split, List.cons_append] at equal
  rw [(List.cons.inj equal).1, close] at sort
  cases tree with
  | bool value => cases value <;> cases sort
  | null => cases sort
  | number value => cases sort
  | string value => cases sort
  | array items => cases sort
  | object members => cases sort

/-- A list of items from its second one on, with the bracket behind it. -/
theorem printItems_cons (item : Json) (items : List Json) :
    ∃ tail, printItems (item :: items) ++ [']'] = item.print ++ tail ∧
      (items = [] ∧ tail = [']'] ∨ items ≠ [] ∧ tail = ',' :: (printItems items ++ [']'])) := by
  cases items with
  | nil => exact ⟨[']'], by rw [printItems], .inl ⟨rfl, rfl⟩⟩
  | cons next items =>
    refine ⟨_, ?_, .inr ⟨List.cons_ne_nil _ _, rfl⟩⟩
    rw [printItems, List.append_assoc, List.cons_append]
    exact List.cons_ne_nil _ _

theorem printMembers_cons (key : String) (value : Json) (members : List (String × Json)) :
    ∃ tail, printMembers ((key, value) :: members) ++ ['\x7d'] =
        quote key ++ ':' :: (value.print ++ tail) ∧
      (members = [] ∧ tail = ['\x7d'] ∨
        members ≠ [] ∧ tail = ',' :: (printMembers members ++ ['\x7d'])) := by
  cases members with
  | nil =>
    refine ⟨['\x7d'], ?_, .inl ⟨rfl, rfl⟩⟩
    rw [printMembers, List.append_assoc, List.cons_append]
  | cons next members =>
    refine ⟨_, ?_, .inr ⟨List.cons_ne_nil _ _, rfl⟩⟩
    rw [printMembers, List.append_assoc, List.cons_append, List.append_assoc, List.cons_append]
    exact List.cons_ne_nil _ _

mutual

/-- A value is read off the front of a text. -/
theorem Json.print_append_inj (tree tree' : Json) {rest rest' : List Char}
    (ends : Terminated rest) (ends' : Terminated rest')
    (equal : tree.print ++ rest = tree'.print ++ rest') : tree = tree' ∧ rest = rest' := by
  have sorts := Json.sort_eq equal
  cases tree with
  | null =>
    cases tree' with
    | null => exact ⟨rfl, List.append_cancel_left equal⟩
    | bool value => cases value <;> cases sorts
    | _ => cases sorts
  | bool value =>
    cases tree' with
    | bool value' =>
      cases value <;> cases value' <;>
        first | exact ⟨rfl, List.append_cancel_left equal⟩ | cases sorts
    | _ => cases value <;> cases sorts
  | number number =>
    cases tree' with
    | number number' =>
      obtain ⟨same, rests⟩ := FiniteNumber.text_append_inj ends ends' equal
      exact ⟨by rw [same], rests⟩
    | bool value => cases value <;> cases sorts
    | _ => cases sorts
  | string text =>
    cases tree' with
    | string text' =>
      obtain ⟨same, rests⟩ := delimits_quote text rfl rfl equal
      exact ⟨by rw [same], rests⟩
    | bool value => cases value <;> cases sorts
    | _ => cases sorts
  | array items =>
    cases tree' with
    | array items' =>
      obtain ⟨same, rests⟩ := printItems_append_inj items items' (List.cons.inj equal).2
      exact ⟨by rw [same], rests⟩
    | bool value => cases value <;> cases sorts
    | _ => cases sorts
  | object members =>
    cases tree' with
    | object members' =>
      obtain ⟨same, rests⟩ := printMembers_append_inj members members' (List.cons.inj equal).2
      exact ⟨by rw [same], rests⟩
    | bool value => cases value <;> cases sorts
    | _ => cases sorts

theorem printItems_append_inj : ∀ (items items' : List Json) {rest rest' : List Char},
    (printItems items ++ [']']) ++ rest = (printItems items' ++ [']']) ++ rest' →
      items = items' ∧ rest = rest'
  | [], [], rest, rest', equal => ⟨rfl, (List.cons.inj equal).2⟩
  | [], item' :: items', rest, rest', equal => by
    obtain ⟨tail, split, -⟩ := printItems_cons item' items'
    have close : item'.print ++ (tail ++ rest') = ']' :: rest := by
      rw [← List.append_assoc, ← split]
      exact equal.symm
    exact absurd close (Json.print_ne_close (by decide))
  | item :: items, [], rest, rest', equal => by
    obtain ⟨tail, split, -⟩ := printItems_cons item items
    have close : item.print ++ (tail ++ rest) = ']' :: rest' := by
      rw [← List.append_assoc, ← split]
      exact equal
    exact absurd close (Json.print_ne_close (by decide))
  | item :: items, item' :: items', rest, rest', equal => by
    obtain ⟨tail, split, ended⟩ := printItems_cons item items
    obtain ⟨tail', split', ended'⟩ := printItems_cons item' items'
    rw [split, split', List.append_assoc, List.append_assoc] at equal
    have terminated {items : List Json} {tail rest : List Char}
        (ended : items = [] ∧ tail = [']'] ∨
          items ≠ [] ∧ tail = ',' :: (printItems items ++ [']'])) :
        Terminated (tail ++ rest) := by
      rcases ended with ⟨-, rfl⟩ | ⟨-, rfl⟩ <;> rfl
    obtain ⟨same, tails⟩ :=
      Json.print_append_inj item item' (terminated ended) (terminated ended') equal
    rcases ended with ⟨rfl, rfl⟩ | ⟨-, rfl⟩
    · rcases ended' with ⟨rfl, rfl⟩ | ⟨-, rfl⟩
      · exact ⟨by rw [same], (List.cons.inj tails).2⟩
      · cases (List.cons.inj tails).1
    · rcases ended' with ⟨rfl, rfl⟩ | ⟨-, rfl⟩
      · cases (List.cons.inj tails).1
      · obtain ⟨others, rests⟩ := printItems_append_inj items items' (List.cons.inj tails).2
        exact ⟨by rw [same, others], rests⟩

theorem printMembers_append_inj : ∀ (members members' : List (String × Json))
    {rest rest' : List Char},
    (printMembers members ++ ['\x7d']) ++ rest = (printMembers members' ++ ['\x7d']) ++ rest' →
      members = members' ∧ rest = rest'
  | [], [], rest, rest', equal => ⟨rfl, (List.cons.inj equal).2⟩
  | [], (key', value') :: members', rest, rest', equal => by
    obtain ⟨tail, split, -⟩ := printMembers_cons key' value' members'
    rw [split] at equal
    cases (List.cons.inj equal).1
  | (key, value) :: members, [], rest, rest', equal => by
    obtain ⟨tail, split, -⟩ := printMembers_cons key value members
    rw [split] at equal
    cases (List.cons.inj equal).1
  | (key, value) :: members, (key', value') :: members', rest, rest', equal => by
    obtain ⟨tail, split, ended⟩ := printMembers_cons key value members
    obtain ⟨tail', split', ended'⟩ := printMembers_cons key' value' members'
    rw [split, split', List.append_assoc, List.append_assoc] at equal
    obtain ⟨rfl, values⟩ := delimits_quote key rfl rfl equal
    have tails : (value.print ++ tail) ++ rest = (value'.print ++ tail') ++ rest' :=
      (List.cons.inj values).2
    rw [List.append_assoc, List.append_assoc] at tails
    have terminated {members : List (String × Json)} {tail rest : List Char}
        (ended : members = [] ∧ tail = ['\x7d'] ∨
          members ≠ [] ∧ tail = ',' :: (printMembers members ++ ['\x7d'])) :
        Terminated (tail ++ rest) := by
      rcases ended with ⟨-, rfl⟩ | ⟨-, rfl⟩ <;> rfl
    obtain ⟨same, tails⟩ :=
      Json.print_append_inj value value' (terminated ended) (terminated ended') tails
    rcases ended with ⟨rfl, rfl⟩ | ⟨-, rfl⟩
    · rcases ended' with ⟨rfl, rfl⟩ | ⟨-, rfl⟩
      · exact ⟨by rw [same], (List.cons.inj tails).2⟩
      · cases (List.cons.inj tails).1
    · rcases ended' with ⟨rfl, rfl⟩ | ⟨-, rfl⟩
      · cases (List.cons.inj tails).1
      · obtain ⟨others, rests⟩ := printMembers_append_inj members members' (List.cons.inj tails).2
        exact ⟨by rw [same, others], rests⟩

end

/-- No two trees have the same text. -/
theorem Json.print_inj {tree tree' : Json} (equal : tree.print = tree'.print) : tree = tree' :=
  (Json.print_append_inj tree tree' (show Terminated [] from rfl) (show Terminated [] from rfl)
    (by rw [equal])).1

theorem stringify_inj {keys : List String} {value value' : Value}
    (equal : stringify keys value = stringify keys value') :
    visible keys value = visible keys value' :=
  Option.map_injective (fun _ _ => Json.print_inj) equal

end Ancore.Library.EcmaScript
