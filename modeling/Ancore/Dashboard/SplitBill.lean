import Ancore.Library.FixedPoint
import Ancore.Library.KeyedTable

/-! # Split bills

`validateShares` of the dashboard, where numbers are exact.  Every share is rounded to whole
stroops; a valid split adds up as long as the shares are large enough for that, and what they are
rounded by cancels out (`valid_split_adds_up_iff`).
-/

namespace Ancore.Dashboard

open Ancore.Library Ancore.Library.EcmaScript

/-- How participant shares are entered. -/
inductive SplitMode where
  | amount
  | percentage
deriving DecidableEq

def amountDecimals : ℕ := 7

def tolerance : ℚ := 1 / 2 / 10 ^ amountDecimals

def percentageTotal : ℚ := 100

structure ShareInput where
  key : String
  share : String
deriving DecidableEq

structure ShareValidationError where
  key : Option String
  message : String
deriving DecidableEq

structure ValidateSharesResult where
  valid : Bool
  errors : List ShareValidationError
  sum : ℚ
  amounts : List (String × String)
deriving DecidableEq

/-- `/^-?\d*\.?\d+$/` -/
def isDecimalText (text : List Char) : Bool :=
  let digits := if text.head? = some '-' then text.tail else text
  let rest := digits.dropWhile Char.isDigit
  (rest = [] && digits.takeWhile Char.isDigit ≠ []) ||
    (rest.head? = some '.' && rest.tail ≠ [] && rest.tail.all Char.isDigit)

/-- `Number(text)` of a text that matches. -/
def decimalValue (text : List Char) : ℚ :=
  if text.head? = some '-' then -mantissaValue text.tail else mantissaValue text

def parseDecimal (raw : String) : Option ℚ :=
  let trimmed := trim raw
  if trimmed = "" then none
  else if isDecimalText trimmed.toList then some (decimalValue trimmed.toList)
  else none

/-- `fixed.replace(/\.?0+$/, '')` -/
def withoutZeros (fixed : List Char) : List Char :=
  let stripped := fixed.rdropWhile (· = '0')
  if stripped.length < fixed.length ∧ stripped.getLast? = some '.' then stripped.dropLast
  else stripped

def formatAmount (value : ℚ) : String :=
  let fixed := toFixed amountDecimals value
  if '.' ∈ fixed.toList then String.ofList (withoutZeros fixed.toList) else fixed

def amountsEqual (a b : ℚ) : Bool := |a - b| < tolerance

def roundToPrecision (value : ℚ) : ℚ := roundTo amountDecimals value

def allocate (total : ℚ) (weights : List ℚ) : List ℚ :=
  if weights = [] then []
  else
    let parts := weights.dropLast.map fun weight =>
      roundToPrecision (total * weight / percentageTotal)
    let allocated := parts.foldl (fun acc part => acc + part) 0
    parts ++ [roundToPrecision (total - allocated)]

/-- A share and its errors; a share with errors counts as zero. -/
def checkShare (mode : SplitMode) (participant : ShareInput) : ℚ × List ShareValidationError :=
  match parseDecimal participant.share with
  | none => (0, [⟨some participant.key,
      if mode = .percentage then "Enter a percentage share."
      else "Enter an amount for this participant."⟩])
  | some value =>
    if value ≤ 0 then (0, [⟨some participant.key, "Share must be greater than zero (" ++
      (if mode = .percentage then "%" else "amount") ++ ")."⟩])
    else if mode = .percentage ∧ percentageTotal < value then
      (0, [⟨some participant.key, "Share cannot exceed 100%."⟩])
    else (value, [])

def totalErrors (mode : SplitMode) (totalAmount : Option String) : List ShareValidationError :=
  let parsedTotal := totalAmount.bind parseDecimal
  let totalProvided : Bool := totalAmount.any fun text => trim text ≠ ""
  (if totalProvided ∧ parsedTotal = none then [⟨none, "Total amount must be a number."⟩]
    else if parsedTotal.any (· ≤ 0) then [⟨none, "Total amount must be greater than zero."⟩]
    else []) ++
  if mode = .percentage ∧ !totalProvided then
    [⟨none, "Enter the bill total so percentage shares can be converted to amounts."⟩]
  else []

/-- The error of shares that do not add up to what they should. -/
def sumErrors (mode : SplitMode) (parsedTotal : Option ℚ) (sum : ℚ) : List ShareValidationError :=
  match mode with
  | .percentage =>
    if amountsEqual sum percentageTotal then []
    else
      let delta := roundToPrecision (percentageTotal - sum)
      [⟨none, "Shares total " ++ formatAmount sum ++ "% — " ++
        if 0 < delta then formatAmount delta ++ "% short of 100%."
        else formatAmount (-delta) ++ "% over 100%."⟩]
  | .amount =>
    match parsedTotal with
    | none => []
    | some total =>
      if total ≤ 0 ∨ amountsEqual sum total then []
      else
        let delta := roundToPrecision (total - sum)
        [⟨none, "Participant amounts total " ++ formatAmount sum ++ " — " ++
          (if 0 < delta then formatAmount delta ++ " short of the "
            else formatAmount (-delta) ++ " over the ") ++ formatAmount total ++ " total."⟩]

/-- `amounts[key] = amount` of a plain object, where `__proto__` is no key. -/
def assign (amounts : List (String × String)) (key amount : String) : List (String × String) :=
  if key = "__proto__" then amounts else upsert amounts key amount

def shareErrors (mode : SplitMode) (participants : List ShareInput) : List ShareValidationError :=
  participants.flatMap fun participant => (checkShare mode participant).2

def shareValues (mode : SplitMode) (participants : List ShareInput) : List ℚ :=
  participants.map fun participant => (checkShare mode participant).1

def shareSum (mode : SplitMode) (participants : List ShareInput) : ℚ :=
  roundToPrecision ((shareValues mode participants).foldl (fun acc value => acc + value) 0)

def splitErrors (mode : SplitMode) (participants : List ShareInput) (totalAmount : Option String) :
    List ShareValidationError :=
  totalErrors mode totalAmount ++ shareErrors mode participants ++
    -- shares are added up once every one of them is right
    if shareErrors mode participants = [] then
      sumErrors mode (totalAmount.bind parseDecimal) (shareSum mode participants)
    else []

def validateShares (mode : SplitMode) (participants : List ShareInput)
    (totalAmount : Option String) : ValidateSharesResult :=
  if participants = [] then
    { valid := false, errors := [⟨none, "Add at least one participant."⟩], sum := 0, amounts := [] }
  else
    let errors := splitErrors mode participants totalAmount
    let sum := shareSum mode participants
    if errors ≠ [] then { valid := false, errors, sum, amounts := [] }
    else
      let resolved := match mode, totalAmount.bind parseDecimal with
        | .percentage, some total => allocate total (shareValues mode participants)
        | _, _ => shareValues mode participants
      let amounts := (participants.zip resolved).foldl
        (fun amounts pair => assign amounts pair.1.key (formatAmount pair.2)) []
      { valid := true, errors := [], sum, amounts }

/-! ## Rendered amounts -/

section Rendering

variable {value : ℚ}

theorem rdropWhile_append {p : Char → Bool} (front digits : List Char) :
    (front ++ digits).rdropWhile p =
      if digits.rdropWhile p = [] then front.rdropWhile p else front ++ digits.rdropWhile p := by
  rw [List.rdropWhile, List.reverse_append, List.dropWhile_append]
  simp only [List.isEmpty_iff, List.rdropWhile, List.reverse_eq_nil_iff]
  split_ifs with empty
  · rfl
  · rw [List.reverse_append, List.reverse_reverse]

theorem withoutZeros_point {front digits : List Char} (filled : digits ≠ [])
    (all : ∀ letter ∈ digits, letter.isDigit = true) :
    withoutZeros (front ++ '.' :: digits) = front ++
      if digits.rdropWhile (· = '0') = [] then [] else '.' :: digits.rdropWhile (· = '0') := by
  have point : (front ++ ['.']).rdropWhile (· = '0') = front ++ ['.'] := by
    rw [List.rdropWhile_concat]
    rfl
  have split : (front ++ '.' :: digits).rdropWhile (· = '0') =
      if digits.rdropWhile (· = '0') = [] then front ++ ['.']
      else front ++ '.' :: digits.rdropWhile (· = '0') := by
    rw [← List.singleton_append, ← List.append_assoc, rdropWhile_append, point]
    simp only [List.append_assoc, List.singleton_append]
  unfold withoutZeros
  dsimp only
  rw [split]
  by_cases empty : digits.rdropWhile (· = '0') = []
  · have shorter : (front ++ ['.']).length < (front ++ '.' :: digits).length := by
      have length := List.length_pos_of_ne_nil filled
      simp only [List.length_append, List.length_cons, List.length_nil]
      omega
    rw [if_pos empty, if_pos empty, if_pos ⟨shorter, List.getLast?_concat⟩,
      List.dropLast_concat, List.append_nil]
  · rw [if_neg empty, if_neg empty, if_neg]
    rintro ⟨-, last⟩
    rw [List.getLast?_append_of_ne_nil _ (List.cons_ne_nil _ _),
      List.getLast?_cons_of_ne_nil empty] at last
    have digit := all '.' ((List.rdropWhile_prefix _ _).subset (List.mem_of_getLast? last))
    cases digit

theorem withoutZeros_toFixed :
    withoutZeros (toFixed amountDecimals value).toList = (roundedNumeral 7 value).text := by
  have length : (paddedDigits 7 (fixedUnits 7 value % 10 ^ 7)).length = 7 :=
    length_paddedDigits (by decide) (Nat.mod_lt _ (by decide))
  rw [amountDecimals, toList_toFixed, withoutZeros_point
    (List.ne_nil_of_length_pos (by rw [length]; decide))
    fun letter member => isDigit_of_mem_paddedDigits member]
  rfl

/-- A rendered amount is the rounded one. -/
theorem formatAmount_eq (value : ℚ) :
    formatAmount value = String.ofList (roundedNumeral 7 value).text := by
  have point : '.' ∈ (toFixed amountDecimals value).toList := by
    rw [toList_toFixed]
    exact List.mem_append_right _ List.mem_cons_self
  unfold formatAmount
  dsimp only
  rw [if_pos point, withoutZeros_toFixed]

theorem roundToPrecision_pos_iff : 0 < roundToPrecision value ↔ tolerance ≤ value := by
  have positive : (0 : ℚ) < 10 ^ amountDecimals := by positivity
  rw [roundToPrecision, roundTo_pos_iff, tolerance]
  exact (div_le_iff₀ positive).symm

/-- An amount within half a stroop of a whole number of them is rounded to it. -/
theorem roundToPrecision_eq_of_near {units : ℕ} (nonneg : 0 ≤ value)
    (near : amountsEqual (units / 10 ^ amountDecimals) value = true) :
    roundToPrecision value = units / 10 ^ amountDecimals := by
  have positive : (0 : ℚ) < 10 ^ amountDecimals := by positivity
  rw [amountsEqual, decide_eq_true_eq, tolerance, abs_lt, lt_div_iff₀ positive, sub_mul,
    div_mul_cancel₀ _ positive.ne', ← neg_div, div_lt_iff₀ positive, sub_mul,
    div_mul_cancel₀ _ positive.ne'] at near
  have nearestUnits : nearest (value * 10 ^ amountDecimals) = units :=
    (nearest_eq_iff (by positivity)).mpr ⟨by linarith, by linarith⟩
  rw [roundToPrecision, roundTo_of_nonneg nonneg, nearestUnits]

/-- Half a stroop is rounded up. -/
theorem tolerance_le_roundToPrecision_iff :
    tolerance ≤ roundToPrecision value ↔ tolerance ≤ value := by
  rcases lt_or_ge value 0 with negative | nonneg
  · have below : roundToPrecision value ≤ 0 := roundTo_nonpos negative
    have positive : (0 : ℚ) < tolerance := by decide +kernel
    exact iff_of_false (below.trans_lt positive).not_ge (negative.trans positive).not_ge
  · rw [← roundToPrecision_pos_iff, ← roundToPrecision_pos_iff, roundToPrecision,
      roundToPrecision, roundTo_of_nonneg nonneg, roundTo_units]

end Rendering

/-! ## The record of amounts -/

section Record

variable {pairs : List (ShareInput × ℚ)} {amounts : List (String × String)} {key : String}

def assignAll (pairs : List (ShareInput × ℚ)) (amounts : List (String × String)) :
    List (String × String) :=
  pairs.foldl (fun amounts pair => assign amounts pair.1.key (formatAmount pair.2)) amounts

theorem lookup_assign_of_ne {other amount : String} (different : other ≠ key) :
    (assign amounts key amount).lookup other = amounts.lookup other := by
  unfold assign
  split
  · rfl
  · rw [lookup_upsert, if_neg different]

theorem lookup_assignAll_of_not_mem (absent : ∀ pair ∈ pairs, pair.1.key ≠ key) :
    (assignAll pairs amounts).lookup key = amounts.lookup key := by
  induction pairs generalizing amounts with
  | nil => rfl
  | cons pair pairs ih =>
    obtain ⟨first, others⟩ := List.forall_mem_cons.mp absent
    exact (ih others).trans (lookup_assign_of_ne first.symm)

/-- A participant with a key of its own keeps what it is assigned. -/
theorem lookup_assignAll (distinct : (pairs.map fun pair => pair.1.key).Nodup) :
    ∀ pair ∈ pairs, (assignAll pairs amounts).lookup pair.1.key =
      if pair.1.key = "__proto__" then amounts.lookup pair.1.key
      else some (formatAmount pair.2) := by
  induction pairs generalizing amounts with
  | nil => exact List.forall_mem_nil _
  | cons pair pairs ih =>
    obtain ⟨first, others⟩ := List.nodup_cons.mp distinct
    have different : ∀ other ∈ pairs, other.1.key ≠ pair.1.key := fun other member same =>
      first (List.mem_map.mpr ⟨other, member, same⟩)
    refine List.forall_mem_cons.mpr ⟨?_, fun other member => ?_⟩
    · refine (lookup_assignAll_of_not_mem different).trans ?_
      dsimp only [assign]
      split
      · rfl
      · rw [lookup_upsert, if_pos rfl]
    · refine (ih others other member).trans ?_
      rw [lookup_assign_of_ne (different other member)]

end Record

/-! ## Splits that add up -/

section Splits

/-- What a participant gave, where it is a number. -/
def shareValue (participant : ShareInput) : ℚ := (parseDecimal participant.share).getD 0

/-- Every participant has an amount that can be paid, and together they are the total. -/
structure AddsUp (participants : List ShareInput) (total : ℚ) (amounts : List (String × String)) :
    Prop where
  only : ∀ key, (∀ participant ∈ participants, participant.key ≠ key) → amounts.lookup key = none
  sums : ∃ numerals : List Numeral, List.Forall₂ (fun participant numeral =>
      amounts.lookup participant.key = some (String.ofList numeral.text) ∧ 0 < numeral.value ∧
        numeral.fractional.length ≤ 7) participants numerals ∧
    (numerals.map Numeral.value).sum = roundToPrecision total

/-- The shares are half a stroop at least, as is what they leave of the total to the last one, or
what they are rounded by is less than half a stroop. -/
def SharesRoundable (mode : SplitMode) (participants : List ShareInput) (total : ℚ) : Prop :=
  match mode with
  | .amount => (∀ participant ∈ participants, tolerance ≤ shareValue participant) ∧
      -tolerance ≤ (participants.map fun participant =>
        shareValue participant - roundToPrecision (shareValue participant)).sum ∧
      (participants.map fun participant =>
        shareValue participant - roundToPrecision (shareValue participant)).sum < tolerance
  | .percentage => (∀ participant ∈ participants.dropLast,
      tolerance ≤ total * shareValue participant / percentageTotal) ∧
      tolerance ≤ total - (participants.dropLast.map fun participant =>
        roundToPrecision (total * shareValue participant / percentageTotal)).sum

variable {mode : SplitMode} {participants : List ShareInput} {totalAmount : String} {total : ℚ}
  {result : ValidateSharesResult}

/-- What the participants are given in a valid split. -/
def resolvedShares (mode : SplitMode) (participants : List ShareInput) (total : ℚ) : List ℚ :=
  match mode with
  | .amount => participants.map shareValue
  | .percentage => allocate total (participants.map shareValue)

theorem checkShare_of_valid {participant : ShareInput}
    (valid : (checkShare mode participant).2 = []) :
    0 < shareValue participant ∧ (checkShare mode participant).1 = shareValue participant := by
  unfold checkShare at valid ⊢
  unfold shareValue
  cases parsed : parseDecimal participant.share with
  | none =>
    rw [parsed] at valid
    cases valid
  | some value =>
    rw [parsed] at valid
    dsimp only at valid ⊢
    split_ifs at valid ⊢ with least most
    exact ⟨not_le.mp least, rfl⟩

/-- What is known of a valid split with a total. -/
structure ValidSplit (mode : SplitMode) (participants : List ShareInput) (total : ℚ)
    (result : ValidateSharesResult) : Prop where
  filled : participants ≠ []
  positive : 0 < total
  shares : ∀ participant ∈ participants, 0 < shareValue participant
  near : mode = .amount →
    amountsEqual (roundToPrecision (participants.map shareValue).sum) total = true
  amounts : result.amounts =
    assignAll (participants.zip (resolvedShares mode participants total)) []

theorem shareValues_of_valid (valid : shareErrors mode participants = []) :
    (∀ participant ∈ participants, 0 < shareValue participant) ∧
      shareValues mode participants = participants.map shareValue := by
  have checked := fun participant member =>
    checkShare_of_valid (List.flatMap_eq_nil_iff.mp valid participant member)
  exact ⟨fun participant member => (checked participant member).1,
    List.map_congr_left fun participant member => (checked participant member).2⟩

theorem exists_total (given : trim totalAmount ≠ "")
    (valid : totalErrors mode (some totalAmount) = []) :
    ∃ total, parseDecimal totalAmount = some total ∧ 0 < total := by
  rw [totalErrors, List.append_eq_nil_iff] at valid
  have totalError := valid.1
  rw [Option.any_some, Option.bind_some] at totalError
  cases parsed : parseDecimal totalAmount with
  | none =>
    rw [parsed, if_pos ⟨decide_eq_true given, rfl⟩] at totalError
    cases totalError
  | some total =>
    refine ⟨total, rfl, not_le.mp fun nonpos => ?_⟩
    rw [parsed, if_neg (nomatch ·.2), Option.any_some, if_pos (decide_eq_true nonpos)] at totalError
    cases totalError

theorem exists_validSplit (given : trim totalAmount ≠ "")
    (valid : (validateShares mode participants (some totalAmount)).valid = true) :
    ∃ total, parseDecimal totalAmount = some total ∧
      ValidSplit mode participants total (validateShares mode participants (some totalAmount)) := by
  unfold validateShares at valid ⊢
  by_cases filled : participants = []
  · rw [if_pos filled] at valid
    cases valid
  rw [if_neg filled] at valid ⊢
  dsimp only at valid ⊢
  by_cases noErrors : splitErrors mode participants (some totalAmount) = []
  · rw [if_neg (not_not.mpr noErrors)]
    rw [splitErrors, List.append_eq_nil_iff, List.append_eq_nil_iff] at noErrors
    obtain ⟨⟨noTotalError, noShareError⟩, noSumError⟩ := noErrors
    obtain ⟨total, parsed, positive⟩ := exists_total given noTotalError
    obtain ⟨shares, values⟩ := shareValues_of_valid noShareError
    rw [if_pos noShareError, shareSum, values, ← List.sum_eq_foldl, Option.bind_some, parsed]
      at noSumError
    rw [values, Option.bind_some, parsed]
    refine ⟨total, rfl, filled, positive, shares, ?_, ?_⟩
    · rintro rfl
      by_contra apart
      rw [sumErrors, if_neg (not_or.mpr ⟨positive.not_ge, apart⟩)] at noSumError
      cases noSumError
    · cases mode with
      | amount => rfl
      | percentage => rfl
  · rw [if_pos noErrors] at valid
    cases valid

/-- The amounts are those of the participants, rounded. -/
theorem addsUp_assignAll_iff {pairs : List (ShareInput × ℚ)}
    (distinct : (pairs.map fun pair => pair.1.key).Nodup) :
    AddsUp (pairs.map Prod.fst) total (assignAll pairs []) ↔
      (∀ pair ∈ pairs, pair.1.key ≠ "__proto__") ∧
        (∀ pair ∈ pairs, 0 < roundToPrecision pair.2) ∧
        (pairs.map fun pair => roundToPrecision pair.2).sum = roundToPrecision total := by
  have found := @lookup_assignAll pairs [] distinct
  have rendered {pair : ShareInput × ℚ} {numeral : Numeral} (member : pair ∈ pairs)
      (same : (assignAll pairs []).lookup pair.1.key = some (String.ofList numeral.text)) :
      pair.1.key ≠ "__proto__" ∧ numeral.value = roundToPrecision pair.2 := by
    rw [found pair member] at same
    split_ifs at same with proto
    · cases same
    refine ⟨proto, ?_⟩
    rw [formatAmount_eq, Option.some.injEq, String.ofList_inj] at same
    rw [← Numeral.eq_of_text_eq same, value_roundedNumeral (by decide)]
    rfl
  constructor
  · rintro ⟨-, numerals, each, sum⟩
    rw [List.forall₂_map_left_iff] at each
    have inside := (List.forall₂_and_left _ _).mpr ⟨fun pair member => member, each⟩
    have known : List.Forall₂ (fun (pair : ShareInput × ℚ) (numeral : Numeral) =>
        pair.1.key ≠ "__proto__" ∧ 0 < roundToPrecision pair.2 ∧
          roundToPrecision pair.2 = numeral.value) pairs numerals := by
      refine inside.imp fun pair numeral ⟨member, same, positive, _⟩ => ?_
      obtain ⟨key, value⟩ := rendered member same
      exact ⟨key, value ▸ positive, value.symm⟩
    obtain ⟨keys, rest⟩ := (List.forall₂_and_left _ _).mp known
    obtain ⟨positive, values⟩ := (List.forall₂_and_left _ _).mp rest
    have same : (pairs.map fun pair => roundToPrecision pair.2) = numerals.map Numeral.value := by
      rw [← List.forall₂_eq_eq_eq, List.forall₂_map_left_iff, List.forall₂_map_right_iff]
      exact values
    exact ⟨keys, positive, same ▸ sum⟩
  · rintro ⟨keys, positive, sum⟩
    refine ⟨fun key absent => lookup_assignAll_of_not_mem fun pair member =>
        absent pair.1 (List.mem_map_of_mem member),
      pairs.map fun pair => roundedNumeral 7 pair.2, ?_, ?_⟩
    · rw [List.forall₂_map_left_iff, List.forall₂_map_right_iff, List.forall₂_same]
      intro pair member
      refine ⟨?_, ?_, length_fractional_roundedNumeral (by decide)⟩
      · rw [found pair member, if_neg (keys pair member), formatAmount_eq]
      · rw [value_roundedNumeral (by decide)]
        exact positive pair member
    · rw [List.map_map, ← sum]
      congr 1
      exact List.map_congr_left fun pair _ => value_roundedNumeral (by decide)

/-! ### Shares that are amounts -/

theorem sum_roundToPrecision_eq {values : List ℚ} (nonneg : ∀ value ∈ values, 0 ≤ value) :
    (values.map roundToPrecision).sum =
      ((values.map fun value => nearest (value * 10 ^ amountDecimals)).sum : ℕ) /
        10 ^ amountDecimals := by
  induction values with
  | nil => simp
  | cons value values ih =>
    obtain ⟨first, others⟩ := List.forall_mem_cons.mp nonneg
    rw [List.map_cons, List.sum_cons, ih others, List.map_cons, List.sum_cons, Nat.cast_add,
      add_div, roundToPrecision, roundTo_of_nonneg first]

/-- Shares are rounded to the rounded sum just where their rests stay below half a stroop. -/
theorem sum_roundToPrecision_eq_iff {values : List ℚ} (nonneg : ∀ value ∈ values, 0 ≤ value) :
    (values.map roundToPrecision).sum = roundToPrecision values.sum ↔
      -tolerance ≤ (values.map fun value => value - roundToPrecision value).sum ∧
        (values.map fun value => value - roundToPrecision value).sum < tolerance := by
  have positive : (0 : ℚ) < 10 ^ amountDecimals := by positivity
  have scaled : ∀ value ∈ values.map (· * 10 ^ amountDecimals), (0 : ℚ) ≤ value := by
    rw [List.forall_mem_map]
    exact fun value member => mul_nonneg (nonneg value member) positive.le
  have rests : ((values.map (· * 10 ^ amountDecimals)).map fun value =>
      value - (nearest value : ℚ)).sum =
        (values.map fun value => value - roundToPrecision value).sum * 10 ^ amountDecimals := by
    rw [List.map_map, ← List.sum_map_mul_right]
    congr 1
    refine List.map_congr_left fun value member => ?_
    rw [Function.comp_apply, roundToPrecision, roundTo_of_nonneg (nonneg value member), sub_mul,
      div_mul_cancel₀ _ positive.ne']
  have sums := sum_nearest_eq_iff scaled
  rw [rests, List.map_map, List.sum_map_mul_right, List.map_id'] at sums
  rw [sum_roundToPrecision_eq nonneg, roundToPrecision,
    roundTo_of_nonneg (List.sum_nonneg nonneg), div_left_inj' positive.ne', Nat.cast_inj,
    tolerance, ← neg_div, div_le_iff₀ positive, lt_div_iff₀ positive]
  exact sums

theorem amounts_add_up_iff (split : ValidSplit .amount participants total result) :
    ((∀ value ∈ participants.map shareValue, 0 < roundToPrecision value) ∧
        ((participants.map shareValue).map roundToPrecision).sum = roundToPrecision total) ↔
      SharesRoundable .amount participants total := by
  have nonneg : ∀ value ∈ participants.map shareValue, 0 ≤ value := by
    rw [List.forall_mem_map]
    exact fun participant member => (split.shares participant member).le
  have rounded := @roundTo_of_nonneg amountDecimals _ (List.sum_nonneg nonneg)
  have near := split.near rfl
  rw [roundToPrecision, rounded] at near
  rw [roundToPrecision_eq_of_near split.positive.le near, ← rounded,
    ← roundToPrecision, sum_roundToPrecision_eq_iff nonneg, SharesRoundable, List.forall_mem_map,
    List.map_map]
  simp only [roundToPrecision_pos_iff, Function.comp_def]

/-! ### Shares that are percentages -/

theorem roundToPrecision_idem {value : ℚ} (nonneg : 0 ≤ value) :
    roundToPrecision (roundToPrecision value) = roundToPrecision value := by
  rw [roundToPrecision, roundToPrecision, roundTo_of_nonneg nonneg, roundTo_units]

/-- The last part is what the others leave, and takes up what they are rounded by. -/
theorem sum_and_rest {parts : List ℚ} (nonneg : ∀ part ∈ parts, 0 ≤ part)
    (left : 0 ≤ total - (parts.map roundToPrecision).sum) :
    (parts.map roundToPrecision).sum +
        roundToPrecision (total - (parts.map roundToPrecision).sum) = roundToPrecision total := by
  have positive : (0 : ℚ) < 10 ^ amountDecimals := by positivity
  have sum := sum_roundToPrecision_eq nonneg
  generalize (parts.map fun part => nearest (part * 10 ^ amountDecimals)).sum = units at sum
  rw [sum] at left ⊢
  have nonnegTotal : 0 ≤ total :=
    (div_nonneg units.cast_nonneg positive.le).trans (sub_nonneg.mp left)
  have few : (units : ℚ) ≤ total * 10 ^ amountDecimals :=
    (div_le_iff₀ positive).mp (sub_nonneg.mp left)
  rw [roundToPrecision, roundToPrecision, roundTo_of_nonneg left, roundTo_of_nonneg nonnegTotal,
    sub_mul, div_mul_cancel₀ _ positive.ne', nearest_sub, Nat.cast_sub (le_nearest few), ← add_div,
    add_sub_cancel]

theorem percentages_add_up_iff (split : ValidSplit .percentage participants total result) :
    ((∀ value ∈ allocate total (participants.map shareValue), 0 < roundToPrecision value) ∧
        ((allocate total (participants.map shareValue)).map roundToPrecision).sum =
          roundToPrecision total) ↔
      SharesRoundable .percentage participants total := by
  have filled : participants.map shareValue ≠ [] := mt List.map_eq_nil_iff.mp split.filled
  have nonneg : ∀ part ∈ participants.dropLast.map fun participant =>
      total * shareValue participant / percentageTotal, 0 ≤ part := by
    rw [List.forall_mem_map]
    intro participant member
    have share := split.shares participant (List.mem_of_mem_dropLast member)
    exact div_nonneg (mul_nonneg split.positive.le share.le) (by decide)
  have parts : (participants.map shareValue).dropLast.map (fun weight =>
      roundToPrecision (total * weight / percentageTotal)) =
        (participants.dropLast.map fun participant =>
          total * shareValue participant / percentageTotal).map roundToPrecision := by
    rw [← List.map_dropLast, List.map_map, List.map_map]
    rfl
  have allocated : allocate total (participants.map shareValue) =
      (participants.dropLast.map fun participant =>
          total * shareValue participant / percentageTotal).map roundToPrecision ++
        [roundToPrecision (total - ((participants.dropLast.map fun participant =>
          total * shareValue participant / percentageTotal).map roundToPrecision).sum)] := by
    unfold allocate
    rw [if_neg filled, parts, List.sum_eq_foldl]
  have large : SharesRoundable .percentage participants total ↔
      (∀ part ∈ participants.dropLast.map fun participant =>
        total * shareValue participant / percentageTotal, tolerance ≤ part) ∧
      tolerance ≤ total - ((participants.dropLast.map fun participant =>
        total * shareValue participant / percentageTotal).map roundToPrecision).sum := by
    rw [SharesRoundable, List.forall_mem_map, List.map_map]
    rfl
  rw [allocated, large]
  generalize participants.dropLast.map (fun participant =>
    total * shareValue participant / percentageTotal) = parts at nonneg
  rw [List.forall_mem_append, List.forall_mem_map, List.forall_mem_singleton,
    roundToPrecision_pos_iff, tolerance_le_roundToPrecision_iff]
  simp only [roundToPrecision_pos_iff, tolerance_le_roundToPrecision_iff]
  refine and_iff_left_of_imp fun ⟨_, left⟩ => ?_
  have rest : 0 ≤ total - (parts.map roundToPrecision).sum :=
    (show (0 : ℚ) ≤ tolerance by decide +kernel).trans left
  have same : (parts.map roundToPrecision).map roundToPrecision = parts.map roundToPrecision := by
    rw [List.map_map]
    exact List.map_congr_left fun part member => roundToPrecision_idem (nonneg part member)
  rw [List.map_append, List.sum_append, same, List.map_singleton, List.sum_singleton,
    roundToPrecision_idem rest, sum_and_rest nonneg rest]

theorem length_resolvedShares (filled : participants ≠ []) :
    (resolvedShares mode participants total).length = participants.length := by
  cases mode with
  | amount => exact List.length_map _
  | percentage =>
    have some : participants.map shareValue ≠ [] := mt List.map_eq_nil_iff.mp filled
    have length := List.length_pos_of_ne_nil filled
    rw [resolvedShares, allocate, if_neg some]
    simp only [List.length_append, List.length_map, List.length_dropLast, List.length_singleton]
    omega

/-- A valid split with a total adds up if and only if no participant has the key that records do
not take, and the shares can be rounded: as amounts, each is half a stroop at least and their rests
stay below half a stroop; as percentages, each but the last is half a stroop at least, and so is
what the rounded ones leave of the total. -/
theorem valid_split_adds_up_iff {mode : SplitMode} {participants : List ShareInput}
    {totalAmount : String} (distinct : (participants.map ShareInput.key).Nodup)
    (given : trim totalAmount ≠ "")
    (valid : (validateShares mode participants (some totalAmount)).valid = true) :
    ∃ total, parseDecimal totalAmount = some total ∧
      (AddsUp participants total (validateShares mode participants (some totalAmount)).amounts ↔
        (∀ participant ∈ participants, participant.key ≠ "__proto__") ∧
          SharesRoundable mode participants total) := by
  obtain ⟨total, parsed, split⟩ := exists_validSplit given valid
  refine ⟨total, parsed, ?_⟩
  have length := @length_resolvedShares mode participants total split.filled
  have rounded : ((∀ value ∈ resolvedShares mode participants total, 0 < roundToPrecision value) ∧
      ((resolvedShares mode participants total).map roundToPrecision).sum =
        roundToPrecision total) ↔ SharesRoundable mode participants total := by
    cases mode with
    | amount => exact amounts_add_up_iff split
    | percentage => exact percentages_add_up_iff split
  rw [split.amounts, ← rounded]
  generalize resolvedShares mode participants total = shares at length
  have firsts : (participants.zip shares).map Prod.fst = participants :=
    List.map_fst_zip length.ge
  have seconds : (participants.zip shares).map Prod.snd = shares := List.map_snd_zip length.le
  have keys : ((participants.zip shares).map fun pair => pair.1.key).Nodup := by
    rw [← firsts, List.map_map] at distinct
    exact distinct
  have result := @addsUp_assignAll_iff total _ keys
  rw [firsts] at result
  rw [result]
  refine and_congr ?_ (and_congr ?_ ?_)
  · conv_rhs => rw [← firsts, List.forall_mem_map]
  · conv_rhs => rw [← seconds, List.forall_mem_map]
  · conv_rhs => rw [← seconds, List.map_map]
    rfl

/-- Ten in halves. -/
theorem halves_of_ten_add_up :
    ∃ total, parseDecimal "10" = some total ∧ AddsUp [⟨"a", "50"⟩, ⟨"b", "50"⟩] total
      (validateShares .percentage [⟨"a", "50"⟩, ⟨"b", "50"⟩] (some "10")).amounts := by
  obtain ⟨total, parsed, addsUp⟩ :=
    @valid_split_adds_up_iff .percentage [⟨"a", "50"⟩, ⟨"b", "50"⟩] "10" (by decide)
      (by decide +kernel) (by decide +kernel)
  have ten : parseDecimal "10" = some 10 := by decide +kernel
  have same : total = 10 := Option.some.inj (parsed.symm.trans ten)
  refine ⟨total, parsed, addsUp.mpr ⟨by decide, ?_⟩⟩
  rw [same, SharesRoundable]
  decide +kernel

/-- The halves of one stroop: the first is rounded up, and nothing is left to the other. -/
theorem halves_of_a_stroop :
    (validateShares .percentage [⟨"a", "50"⟩, ⟨"b", "50"⟩] (some "0.0000001")).valid = true ∧
      ∀ total, ¬ AddsUp [⟨"a", "50"⟩, ⟨"b", "50"⟩] total
        (validateShares .percentage [⟨"a", "50"⟩, ⟨"b", "50"⟩] (some "0.0000001")).amounts := by
  refine ⟨by decide +kernel, fun total addsUp => ?_⟩
  have amounts : (validateShares .percentage [⟨"a", "50"⟩, ⟨"b", "50"⟩]
      (some "0.0000001")).amounts.lookup "b" = some "0" := by decide +kernel
  obtain ⟨numerals, each, -⟩ := addsUp.sums
  cases each with
  | cons first others =>
    cases others with
    | cons second _ =>
      obtain ⟨rendered, positive, -⟩ := second
      rw [amounts, Option.some.injEq] at rendered
      have text : (⟨false, ['0'], [], by decide, by simp, nofun⟩ : Numeral).text =
          _ := (congrArg String.toList rendered).trans String.toList_ofList
      rw [← Numeral.eq_of_text_eq text] at positive
      exact absurd positive (by decide +kernel)

end Splits

end Ancore.Dashboard
