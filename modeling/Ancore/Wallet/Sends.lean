import Ancore.Library.Doubles
import Ancore.Library.Numerals
import Ancore.Library.Runs

/-! # Sends

`SendScreen` with the hook `useSendTransaction`, and the transfer policy that the hook checks
when a form is reviewed.  The screen gives the hook neither the policy of the settings nor
what was sent that day, so that each amount is compared with the default policy alone.
-/

namespace Ancore.Wallet.Sends

open Ancore.Library Ancore.Library.EcmaScript

/-! ## Transfer policies -/

inductive TransferPolicyAction where
  | allow
  | stepUp
  | block
  deriving DecidableEq

structure TransferPolicy where
  dailyLimit : ℚ
  stepUpThreshold : ℚ

/-- A policy as the settings store it, by `TransferPolicySchema`. -/
structure StoredPolicy extends TransferPolicy where
  nonnegative : 0 ≤ stepUpThreshold
  ordered : stepUpThreshold ≤ dailyLimit

def defaultTransferPolicy : TransferPolicy where
  dailyLimit := 1000
  stepUpThreshold := 250

/-- The messages of a policy, by what they tell. -/
inductive PolicyMessage where
  | notPositive
  | invalidTotal
  | exceedsDailyLimit (limit : ℚ) (unit : String)
  | exceedsThreshold (threshold : ℚ) (unit : String)
  | withinLimits

structure TransferPolicyResult where
  action : TransferPolicyAction
  message : PolicyMessage

/-- A number that is infinite is `none`. -/
def validateTransferPolicy (amount todayTotal : Option ℚ) (policy : TransferPolicy)
    (assetCode : String) : TransferPolicyResult :=
  let unit := if trim assetCode = "" then "XLM" else trim assetCode
  match amount.filter (0 < ·), todayTotal.filter (0 ≤ ·) with
  | none, _ => ⟨.block, .notPositive⟩
  | _, none => ⟨.block, .invalidTotal⟩
  | some amount, some todayTotal =>
    if policy.dailyLimit < Double.nearest (todayTotal + amount) then
      ⟨.block, .exceedsDailyLimit policy.dailyLimit unit⟩
    else if policy.stepUpThreshold < amount then
      ⟨.stepUp, .exceedsThreshold policy.stepUpThreshold unit⟩
    else ⟨.allow, .withinLimits⟩

/-! ## Amounts -/

/-- `/^\d+(\.\d{1,7})?$/` -/
def isAmount (text : List Char) : Bool :=
  let rest := text.dropWhile Char.isDigit
  text.takeWhile Char.isDigit ≠ [] &&
    (rest = [] || (rest.head? = some '.' && rest.tail.all Char.isDigit &&
      rest.tail ≠ [] && rest.tail.length ≤ 7))

/-- `Number(text)` of an amount; `none` is infinite. -/
def toNumber (amount : String) : Option ℚ :=
  let double := Double.nearest (mantissaValue amount.toList)
  if double < Double.limit then some double else none

inductive AmountError where
  | required
  | notANumber
  | notPositive
  | moreThanSevenPlaces
  | morePlaces (decimals : ℚ)
  | insufficientBalance

def amountSchema (value : String) : Option AmountError :=
  if value = "" then some .required
  else
    match parseFloat value with
    | .nan => some .notANumber
    | parsed =>
      if ¬ parsed.isPositive then some .notPositive
      else if ¬ isAmount value.toList then some .moreThanSevenPlaces
      else none

/-- The digits behind the last point, where there are only digits. -/
def getDecimalPlaces (value : List Char) : Nat :=
  if (value.rdropWhile Char.isDigit).getLast? = some '.' then
    (value.rtakeWhile Char.isDigit).length
  else 0

def validateAmountPrecision (value : String) (decimals : ℚ) : Option AmountError :=
  match parseFloat value with
  | .nan => none
  | _ => if decimals < getDecimalPlaces value.toList then some (.morePlaces decimals) else none

def validateAmount (value : String) (balance assetDecimals : ℚ) : Option AmountError :=
  match amountSchema value with
  | some error => some error
  | none =>
    match validateAmountPrecision value assetDecimals with
    | some error => some error
    | none =>
      if (toNumber value).all (balance < ·) then some .insufficientBalance else none

/-! ## Forms -/

/-- `/^G[A-Z2-7]{55}$/` -/
def isStellarAddress (value : String) : Bool :=
  let text := value.toList
  text.head? = some 'G' && text.tail.length = 55 &&
    text.tail.all fun letter => letter.isUpper || ('2' ≤ letter && letter ≤ '7')

/-- `/^@[a-zA-Z0-9][a-zA-Z0-9_.-]{0,30}$/` -/
def isUsernameHandle (value : String) : Bool :=
  match (trim value).toList with
  | '@' :: first :: rest =>
    first.isAlphanum && rest.length ≤ 30 &&
      rest.all fun letter => letter.isAlphanum || letter ∈ ['_', '.', '-']
  | _ => false

def isHandleInput (value : String) : Bool := (trim value).toList.head? = some '@'

inductive RecipientError where
  | required
  | invalidHandle
  | invalidAddress

def validateRecipientAddress (value : String) : Option RecipientError :=
  let trimmed := trim value
  if trimmed = "" then some .required
  else if isHandleInput trimmed then
    if isUsernameHandle trimmed then none else some .invalidHandle
  else if isStellarAddress trimmed then none
  else some .invalidAddress

def maxNoteLength : Nat := 140

inductive NoteError where
  | tooLong

def validateTransferNote (note : String) : Option NoteError :=
  if maxNoteLength < note.toList.length then some .tooLong else none

inductive TransferTiming where
  | immediate
  | scheduled
  deriving DecidableEq

structure SendFormValues (Schedule : Type) where
  recipient : String
  amount : String
  note : String
  timing : TransferTiming
  schedule : Option Schedule

/-- What the screen gives the hook; `none` is undefined. -/
structure UseSendTransactionOptions where
  balance : Option ℚ
  assetDecimals : Option ℚ
  dailyTransferLimit : Option ℚ := none
  transferStepUpThreshold : Option ℚ := none
  todayTransferTotal : Option ℚ := none

structure SendScreenProps where
  balance : Option ℚ := none
  assetDecimals : Option ℚ := none

/-- `SendScreen` reads no policy and no total. -/
def SendScreenProps.options (props : SendScreenProps) : UseSendTransactionOptions where
  balance := props.balance
  assetDecimals := some (props.assetDecimals.getD 7)

/-- What the hook makes of an amount by its policy. -/
def UseSendTransactionOptions.policyResult (options : UseSendTransactionOptions)
    (numeric : Option ℚ) : TransferPolicyResult :=
  validateTransferPolicy numeric (some (options.todayTransferTotal.getD 0))
    ⟨options.dailyTransferLimit.getD 1000, options.transferStepUpThreshold.getD 250⟩ "XLM"

structure ValidationErrors (ScheduleError : Type) where
  recipient : Option RecipientError
  amount : Option AmountError
  note : Option NoteError
  policy : Option PolicyMessage
  simulation : Option ScheduleError

section Hook

variable {Schedule ScheduleError : Type}

def ValidationErrors.isEmpty (errors : ValidationErrors ScheduleError) : Bool :=
  errors.recipient.isNone && errors.amount.isNone && errors.note.isNone &&
    errors.policy.isNone && errors.simulation.isNone

variable (validateSchedule : Nat → Option Schedule → Option ScheduleError)

def validateForm (options : UseSendTransactionOptions) (now : Nat)
    (values : SendFormValues Schedule) : ValidationErrors ScheduleError where
  recipient := validateRecipientAddress values.recipient
  amount :=
    validateAmount values.amount (options.balance.getD 250) (options.assetDecimals.getD 7)
  note := if values.note = "" then none else validateTransferNote values.note
  policy :=
    if (validateAmount values.amount (options.balance.getD 250)
        (options.assetDecimals.getD 7)).isNone ∧
        ((toNumber values.amount).any (0 < ·)) then
      let policyResult := options.policyResult (toNumber values.amount)
      if policyResult.action = .block then some policyResult.message else none
    else none
  simulation := if values.timing = .scheduled then validateSchedule now values.schedule else none

/-! ## The hook -/

inductive SendStep where
  | form
  | review
  | confirm
  | status
  | scheduled
  deriving DecidableEq

structure SendTransactionDraft (Schedule : Type) extends SendFormValues Schedule where
  policyAction : TransferPolicyAction
  policyMessage : PolicyMessage

/-- What a call of `confirmAndSubmit` awaits. -/
inductive Phase (Schedule : Type) where
  | authenticating (tx : Option (SendTransactionDraft Schedule)) (timing : TransferTiming)
      (schedule : Option Schedule)
  | scheduling
  | signing (tx : SendTransactionDraft Schedule)
  | submitting

/-- A call, and whether the screen that it was made on is still there. -/
structure Call (Schedule : Type) where
  mounted : Bool
  phase : Phase Schedule

structure SendState (Schedule : Type) where
  step : SendStep := .form
  tx : Option (SendTransactionDraft Schedule) := none
  hasTxId : Bool := false
  hasScheduledTransfer : Bool := false
  timing : TransferTiming := .immediate
  schedule : Option Schedule := none
  submitting : Bool := false
  /-- The forms that `goToReview` let through and awaits the fee of. -/
  reviewing : List (UseSendTransactionOptions × SendFormValues Schedule) := []
  calls : List (Call Schedule) := []

/-- The screen that is rendered. -/
def SendState.screen (state : SendState Schedule) : SendStep :=
  match state.step with
  | .review => if state.tx.isSome then .review else .form
  | .confirm => if state.tx.isSome then .confirm else .form
  | .scheduled => if state.hasScheduledTransfer then .scheduled else .form
  | .status => if state.hasTxId then .status else .form
  | .form => .form

/-- A draft that is handed to `submitTransaction`, and the day of it. -/
structure Submission (Schedule : Type) where
  day : Nat
  draft : SendTransactionDraft Schedule

/-- The amount that is paid, by the text of it. -/
def Submission.amount (submission : Submission Schedule) : ℚ :=
  mantissaValue submission.draft.amount.toList

inductive Action (Schedule : Type) where
  | goToReview (props : SendScreenProps) (now : Nat) (values : SendFormValues Schedule)
  /-- The awaits of `goToReview`: all of them succeeded, with this resolved handle, or one did
  not. -/
  | reviewed (index : Nat) (answer : Option (Option String))
  | back
  | requestConfirm
  | confirmAndSubmit
  /-- What the call awaits succeeds, or not, on this day. -/
  | answered (index day : Nat) (success : Bool)
  /-- The screen is left and opened again. -/
  | remount

/-- The address that a form is sent to, after its handle is resolved. -/
def resolvedRecipient (recipient : String) (resolved : Option String) : Option String :=
  if isHandleInput recipient then resolved.filter isStellarAddress else some (trim recipient)

def review (options : UseSendTransactionOptions) (values : SendFormValues Schedule)
    (recipient : String) : SendTransactionDraft Schedule :=
  let policyResult := options.policyResult (toNumber values.amount)
  { values with
    recipient
    policyAction := policyResult.action
    policyMessage := policyResult.message }

/-- The `finally` of a call. -/
def SendState.finish (state : SendState Schedule) (index : Nat) (call : Call Schedule) :
    SendState Schedule :=
  { state with
    calls := state.calls.eraseIdx index
    submitting := state.submitting && !call.mounted }

/-- What a call shows at its end, unless its screen is gone. -/
def SendState.show (state : SendState Schedule) (call : Call Schedule)
    (change : SendState Schedule → SendState Schedule) : SendState Schedule :=
  if call.mounted then change state else state

def SendState.await (state : SendState Schedule) (index : Nat) (call : Call Schedule)
    (phase : Phase Schedule) : SendState Schedule :=
  { state with calls := state.calls.set index { call with phase } }

/-- `confirmAndSubmit` after one of its awaits. -/
def SendState.proceed (state : SendState Schedule) (index day : Nat) (call : Call Schedule) :
    Bool → Option (Submission Schedule) × SendState Schedule
  | false => (none, state.finish index call)
  | true =>
    match call.phase with
    | .authenticating none _ _ => (none, state.finish index call)
    | .authenticating (some _) .scheduled none => (none, state.finish index call)
    | .authenticating (some _) .scheduled (some _) => (none, state.await index call .scheduling)
    | .authenticating (some tx) .immediate _ => (none, state.await index call (.signing tx))
    | .scheduling =>
      (none, (state.show call fun state =>
        { state with hasScheduledTransfer := true, step := .scheduled }).finish index call)
    | .signing tx => (some ⟨day, tx⟩, state.await index call .submitting)
    | .submitting =>
      (none, (state.show call fun state =>
        { state with hasTxId := true, step := .status }).finish index call)

def step (action : Action Schedule) (state : SendState Schedule) :
    Option (Option (Submission Schedule) × SendState Schedule) :=
  match action with
  | .goToReview props now values =>
    let state := { state with timing := values.timing, schedule := values.schedule }
    if (validateForm validateSchedule props.options now values).isEmpty then
      some (none, { state with
        submitting := true
        reviewing := state.reviewing ++ [(props.options, values)] })
    else some (none, state)
  | .reviewed index answer =>
    match state.reviewing[index]? with
    | none => none
    | some (options, values) =>
      let state := { state with reviewing := state.reviewing.eraseIdx index, submitting := false }
      match answer.bind (resolvedRecipient values.recipient) with
      | none => some (none, state)
      | some recipient =>
        some (none, { state with tx := some (review options values recipient), step := .review })
  | .back =>
    match state.screen with
    | .review => some (none, { state with step := .form })
    | .confirm => some (none, { state with step := .review })
    | _ => none
  | .requestConfirm =>
    if state.screen = .review then some (none, { state with step := .confirm }) else none
  | .confirmAndSubmit =>
    if state.screen = .confirm ∧ state.submitting = false then
      some (none, { state with
        submitting := true
        calls := state.calls ++
          [⟨true, .authenticating state.tx state.timing state.schedule⟩] })
    else none
  | .answered index day success =>
    state.calls[index]?.map fun call => state.proceed index day call success
  | .remount =>
    some (none, { calls := state.calls.map fun call => { call with mounted := false } })

/-- What is handed to `submitTransaction` in a run, oldest first. -/
def submissions (actions : List (Action Schedule)) : List (Submission Schedule) :=
  (history (step validateSchedule) {} actions).filterMap Transition.output

/-! ## What a review makes sure of -/

theorem mantissaValue_nonneg (text : List Char) : 0 ≤ mantissaValue text := by
  rw [mantissaValue, digitsValue]
  positivity

/-- The value of an amount in the smallest unit. -/
theorem mantissaValue_of_isAmount {text : List Char} (amount : isAmount text = true) :
    ∃ numerator : Nat, mantissaValue text = numerator / 10 ^ 7 := by
  have whole := List.takeWhile_append_dropWhile (p := Char.isDigit) (l := text)
  have free : '.' ∉ text.takeWhile Char.isDigit := fun member =>
    absurd (List.mem_takeWhile_imp member) (by decide)
  rw [isAmount, Bool.and_eq_true, Bool.or_eq_true] at amount
  rcases amount.2 with none | fraction
  · rw [decide_eq_true_iff] at none
    rw [none, List.append_nil] at whole
    refine ⟨Nat.ofDigitChars 10 text 0 * 10 ^ 7, ?_⟩
    rw [mantissaValue_whole (whole ▸ free), Nat.cast_mul, Nat.cast_pow, Nat.cast_ofNat,
      mul_div_cancel_right₀ _ (by norm_num)]
  · simp only [Bool.and_eq_true, decide_eq_true_iff] at fraction
    obtain ⟨⟨⟨point, -⟩, -⟩, few⟩ := fraction
    obtain ⟨fractional, rest⟩ := List.head?_eq_some_iff.mp point
    rw [rest, List.tail_cons] at few
    refine ⟨Nat.ofDigitChars 10 (text.takeWhile Char.isDigit ++ fractional) 0 *
      10 ^ (7 - fractional.length), ?_⟩
    have powers : (10 : ℚ) ^ 7 = 10 ^ fractional.length * 10 ^ (7 - fractional.length) := by
      rw [← pow_add, Nat.add_sub_cancel' few]
    rw [← whole, rest, mantissaValue_point free, digitsValue, powers, ← rest, whole]
    push_cast
    rw [mul_div_mul_right _ _ (by positivity)]

/-- The step-up mark of a policy compares the amount with the default threshold. -/
theorem policyResult_action (props : SendScreenProps) {double : ℚ}
    (unblocked : 0 < double → (props.options.policyResult (some double)).action ≠ .block) :
    (props.options.policyResult (some double)).action = .stepUp ↔ 250 < double := by
  have options : props.options.policyResult (some double) =
      validateTransferPolicy (some double) (some 0) ⟨1000, 250⟩ "XLM" := rfl
  rw [options] at unblocked ⊢
  by_cases positive : 0 < double
  · specialize unblocked positive
    simp only [validateTransferPolicy, Option.filter_some, decide_true, positive, le_refl,
      if_true] at unblocked ⊢
    split at unblocked
    · cases unblocked rfl
    · rename_i within
      rw [if_neg within]
      split <;> simp [*]
  · simp only [validateTransferPolicy, Option.filter_some, positive, decide_false,
      Bool.false_eq_true, if_false, reduceCtorEq, false_iff]
    linarith

theorem isAmount_of_amountSchema {value : String} (passed : amountSchema value = none) :
    isAmount value.toList = true := by
  by_contra other
  rw [amountSchema] at passed
  split at passed
  · cases passed
  · split at passed
    · cases passed
    · split at passed <;> cases passed

theorem validateAmount_eq_none {value : String} {balance assetDecimals : ℚ}
    (passed : validateAmount value balance assetDecimals = none) :
    isAmount value.toList = true ∧
      toNumber value = some (Double.nearest (mantissaValue value.toList)) := by
  rw [validateAmount] at passed
  split at passed
  · cases passed
  · rename_i schema
    refine ⟨isAmount_of_amountSchema schema, ?_⟩
    split at passed
    · cases passed
    · by_contra infinite
      have none : toNumber value = none := by
        rw [toNumber] at infinite ⊢
        split at infinite
        · cases infinite rfl
        · rename_i above
          exact if_neg above
      rw [none] at passed
      cases passed

/-- A draft of an amount that was marked by the default threshold. -/
structure Reviewed (draft : SendTransactionDraft Schedule) : Prop where
  isAmount : isAmount draft.amount.toList = true
  marked : draft.policyAction = .stepUp ↔ 250 < mantissaValue draft.amount.toList

theorem reviewed_review {props : SendScreenProps} {now : Nat} {values : SendFormValues Schedule}
    (passed : (validateForm validateSchedule props.options now values).isEmpty = true)
    (recipient : String) : Reviewed (review props.options values recipient) := by
  simp only [ValidationErrors.isEmpty, Bool.and_eq_true, Option.isNone_iff_eq_none] at passed
  obtain ⟨⟨⟨⟨-, amount⟩, -⟩, policy⟩, -⟩ := passed
  obtain ⟨isAmount, number⟩ := validateAmount_eq_none amount
  refine ⟨isAmount, ?_⟩
  have threshold : ((250 : Nat) : ℚ) < Double.nearest _ ↔ _ :=
    Double.lt_nearest_iff (mantissaValue_of_isAmount isAmount) (by norm_num) (by norm_num)
  change (props.options.policyResult (toNumber values.amount)).action = .stepUp ↔ _
  rw [number, policyResult_action props fun positive blocked => ?_]
  · exact_mod_cast threshold
  · simp only [validateForm] at policy amount
    simp only [number, amount, Option.isNone_none, Option.any_some, positive, decide_true,
      and_self, if_true, blocked, reduceCtorEq] at policy

/-! ## Every draft is a reviewed one -/

def Phase.draft? : Phase Schedule → Option (SendTransactionDraft Schedule)
  | authenticating tx _ _ => tx
  | scheduling => none
  | signing tx => some tx
  | submitting => none

structure Sound (state : SendState Schedule) : Prop where
  tx : ∀ draft, state.tx = some draft → Reviewed draft
  reviewing : ∀ form ∈ state.reviewing, ∃ (props : SendScreenProps) (now : Nat),
    form.1 = props.options ∧ (validateForm validateSchedule form.1 now form.2).isEmpty = true
  calls : ∀ call ∈ state.calls, ∀ draft, call.phase.draft? = some draft → Reviewed draft

variable {validateSchedule} {state : SendState Schedule}

theorem Sound.await (sound : Sound validateSchedule state) {index : Nat} {call : Call Schedule}
    {phase : Phase Schedule} (reviewed : ∀ draft, phase.draft? = some draft → Reviewed draft) :
    Sound validateSchedule (state.await index call phase) where
  tx := sound.tx
  reviewing := sound.reviewing
  calls := by
    intro other member
    rcases List.mem_or_eq_of_mem_set member with before | rfl
    · exact sound.calls other before
    · exact reviewed

theorem Sound.finish (sound : Sound validateSchedule state) (index : Nat) (call : Call Schedule) :
    Sound validateSchedule (state.finish index call) where
  tx := sound.tx
  reviewing := sound.reviewing
  calls := fun other member => sound.calls other (List.mem_of_mem_eraseIdx member)

theorem Sound.show (sound : Sound validateSchedule state) (call : Call Schedule)
    {change : SendState Schedule → SendState Schedule}
    (changed : Sound validateSchedule (change state)) :
    Sound validateSchedule (state.show call change) := by
  rw [SendState.show]
  split
  · exact changed
  · exact sound

theorem nothing_submitted {α : Type} {property : α → Prop} :
    ∀ submission, none = some submission → property submission := by
  intro submission same
  cases same

/-- One of the awaits of a call is over: the state stays sound, and what is submitted is a draft
of the call. -/
theorem Sound.proceed (sound : Sound validateSchedule state) {index : Nat} {call : Call Schedule}
    (located : state.calls[index]? = some call) (day : Nat) (success : Bool) :
    (∀ submission, (state.proceed index day call success).1 = some submission →
        Reviewed submission.draft) ∧
      Sound validateSchedule (state.proceed index day call success).2 := by
  have reviewed := sound.calls call (List.mem_of_getElem? located)
  cases success with
  | false => exact ⟨nothing_submitted, sound.finish index call⟩
  | true =>
    rw [SendState.proceed]
    split
    · exact ⟨nothing_submitted, sound.finish index call⟩
    · exact ⟨nothing_submitted, sound.finish index call⟩
    · exact ⟨nothing_submitted, sound.await nothing_submitted⟩
    · rename_i tx _ phase
      refine ⟨nothing_submitted, sound.await fun draft same => reviewed draft ?_⟩
      rw [phase]
      exact same
    · refine ⟨nothing_submitted, (sound.show call ?_).finish index call⟩
      exact ⟨sound.tx, sound.reviewing, sound.calls⟩
    · rename_i tx phase
      refine ⟨fun submission same => ?_, sound.await nothing_submitted⟩
      cases same
      exact reviewed tx (by rw [phase, Phase.draft?])
    · refine ⟨nothing_submitted, (sound.show call ?_).finish index call⟩
      exact ⟨sound.tx, sound.reviewing, sound.calls⟩

theorem Sound.step (sound : Sound validateSchedule state) {action : Action Schedule}
    {output : Option (Submission Schedule)} {next : SendState Schedule}
    (stepped : step validateSchedule action state = some (output, next)) :
    (∀ submission, output = some submission → Reviewed submission.draft) ∧
      Sound validateSchedule next := by
  cases action with
  | goToReview props now values =>
    simp only [Sends.step] at stepped
    split at stepped
    · rename_i passed
      cases stepped
      refine ⟨nothing_submitted, sound.tx, ?_, sound.calls⟩
      intro form member
      rcases List.mem_append.mp member with before | added
      · exact sound.reviewing form before
      · cases List.mem_singleton.mp added
        exact ⟨props, now, rfl, passed⟩
    · cases stepped
      exact ⟨nothing_submitted, sound.tx, sound.reviewing, sound.calls⟩
  | reviewed index answer =>
    simp only [Sends.step] at stepped
    split at stepped
    · cases stepped
    · rename_i options values located
      have kept : ∀ form ∈ state.reviewing.eraseIdx index, _ := fun form member =>
        sound.reviewing form (List.mem_of_mem_eraseIdx member)
      split at stepped
      · cases stepped
        exact ⟨nothing_submitted, sound.tx, kept, sound.calls⟩
      · rename_i recipient _
        cases stepped
        refine ⟨nothing_submitted, ?_, kept, sound.calls⟩
        rintro draft ⟨⟩
        obtain ⟨props, now, rfl, passed⟩ :=
          sound.reviewing (options, values) (List.mem_of_getElem? located)
        exact reviewed_review validateSchedule passed recipient
  | back =>
    simp only [Sends.step] at stepped
    split at stepped <;> cases stepped <;>
      exact ⟨nothing_submitted, sound.tx, sound.reviewing, sound.calls⟩
  | requestConfirm =>
    simp only [Sends.step] at stepped
    split at stepped <;> cases stepped
    exact ⟨nothing_submitted, sound.tx, sound.reviewing, sound.calls⟩
  | confirmAndSubmit =>
    simp only [Sends.step] at stepped
    split at stepped <;> cases stepped
    refine ⟨nothing_submitted, sound.tx, sound.reviewing, ?_⟩
    intro call member
    rcases List.mem_append.mp member with before | added
    · exact sound.calls call before
    · cases List.mem_singleton.mp added
      exact sound.tx
  | answered index day success =>
    obtain ⟨call, located, proceeded⟩ := Option.map_eq_some_iff.mp stepped
    have kept := sound.proceed located day success
    rw [proceeded] at kept
    exact kept
  | remount =>
    cases stepped
    refine ⟨nothing_submitted, nothing_submitted, List.forall_mem_nil _, ?_⟩
    rintro _ member
    obtain ⟨call, before, rfl⟩ := List.mem_map.mp member
    exact sound.calls call before

theorem sound_history : HistoryInvariant (step validateSchedule) ({} : SendState Schedule)
    fun _ state => Sound validateSchedule state :=
  stateInvariant ⟨nofun, List.forall_mem_nil _, List.forall_mem_nil _⟩
    fun _ sound performed => (sound.step performed).2

theorem reviewed_of_mem_submissions {actions : List (Action Schedule)}
    {submission : Submission Schedule}
    (member : submission ∈ submissions validateSchedule actions) :
    Reviewed submission.draft := by
  obtain ⟨transition, made, output⟩ := List.mem_filterMap.mp member
  obtain ⟨earlier, later, located⟩ := List.append_of_mem made
  obtain ⟨sound, performed⟩ := sound_history.holds_before located
  exact (sound.step performed).1 submission output

/-! ## The limit of a day -/

/-- What is submitted on a day. -/
def submittedOn (day : Nat) (log : List (Submission Schedule)) : ℚ :=
  ((log.filter (·.day = day)).map Submission.amount).sum

/-- The limit and the threshold of a policy hold of what is submitted. -/
structure LimitHolds (policy : TransferPolicy) (log : List (Submission Schedule)) : Prop where
  daily : ∀ day, submittedOn day log ≤ policy.dailyLimit
  steppedUp : ∀ submission ∈ log, policy.stepUpThreshold < submission.amount →
    submission.draft.policyAction = .stepUp

variable {policy : StoredPolicy} {log : List (Submission Schedule)}

theorem submittedOn_append (day : Nat) (first second : List (Submission Schedule)) :
    submittedOn day (first ++ second) = submittedOn day first + submittedOn day second := by
  rw [submittedOn, List.filter_append, List.map_append, List.sum_append]
  rfl

theorem submittedOn_cons (day : Nat) (submission : Submission Schedule)
    (log : List (Submission Schedule)) :
    submittedOn day (submission :: log) =
      (if submission.day = day then submission.amount else 0) + submittedOn day log := by
  rw [submittedOn, List.filter_cons]
  split <;> simp_all [submittedOn]

theorem submittedOn_nonneg (day : Nat) (log : List (Submission Schedule)) :
    0 ≤ submittedOn day log := by
  apply List.sum_nonneg
  intro amount member
  obtain ⟨submission, _, rfl⟩ := List.mem_map.mp member
  exact mantissaValue_nonneg _

theorem daily_of_each {limit : ℚ} (nonnegative : 0 ≤ limit)
    (each : ∀ earlier submission later, log = earlier ++ submission :: later →
      submittedOn submission.day earlier + submission.amount ≤ limit) (day : Nat) :
    submittedOn day log ≤ limit := by
  induction log using List.reverseRecOn with
  | nil => exact nonnegative
  | append_singleton log submission inductionHypothesis =>
    rw [submittedOn_append, submittedOn_cons]
    change _ + (_ + 0) ≤ limit
    split
    · rename_i same
      rw [add_zero, ← same]
      exact each log submission [] rfl
    · rw [add_zero, add_zero]
      refine inductionHypothesis fun earlier before later located => ?_
      exact each earlier before (later ++ [submission]) (by simp [located])

theorem limitHolds_iff (reviewed : ∀ submission ∈ log, Reviewed submission.draft) :
    LimitHolds policy.toTransferPolicy log ↔
      ∀ earlier submission later, log = earlier ++ submission :: later →
        submittedOn submission.day earlier + submission.amount ≤ policy.dailyLimit ∧
          (submission.amount ≤ policy.stepUpThreshold ∨
            defaultTransferPolicy.stepUpThreshold < submission.amount) := by
  constructor
  · rintro holds earlier submission later rfl
    have day := holds.daily submission.day
    rw [submittedOn_append, submittedOn_cons, if_pos rfl] at day
    have rest := submittedOn_nonneg submission.day later
    refine ⟨by linarith, ?_⟩
    rcases le_or_gt submission.amount policy.stepUpThreshold with within | above
    · exact .inl within
    · have member : submission ∈ earlier ++ submission :: later := by simp
      exact .inr ((reviewed submission member).marked.mp
        (holds.steppedUp submission member above))
  · intro each
    constructor
    · exact daily_of_each (policy.nonnegative.trans policy.ordered)
        fun earlier submission later located => (each earlier submission later located).1
    · intro submission member above
      obtain ⟨earlier, later, located⟩ := List.append_of_mem member
      have default := (each earlier submission later located).2.resolve_left above.not_ge
      exact (reviewed submission member).marked.mpr default

/-! ### Sends of one day, one after another -/

def plainRecipient : String := String.ofList ('G' :: List.replicate 55 'A')

def plainForm (amount : String) : SendFormValues Schedule where
  recipient := plainRecipient
  amount
  note := ""
  timing := .immediate
  schedule := none

@[simp] theorem recipient_plainForm (amount : String) :
    (plainForm amount : SendFormValues Schedule).recipient = plainRecipient := rfl

/-- An amount is sent, and the screen is opened again. -/
def sendActions (props : SendScreenProps) (amount : String) : List (Action Schedule) :=
  [.goToReview props 0 (plainForm amount), .reviewed 0 (some none), .requestConfirm,
    .confirmAndSubmit, .answered 0 0 true, .answered 0 0 true, .answered 0 0 true, .remount]

theorem resolvedRecipient_plain : resolvedRecipient plainRecipient none = some plainRecipient := by
  decide

theorem step_goToReview {props : SendScreenProps} {amount : String}
    (passed : (validateForm validateSchedule props.options 0 (plainForm amount)).isEmpty = true) :
    step validateSchedule (.goToReview props 0 (plainForm amount)) {} =
      some (none, { submitting := true, reviewing := [(props.options, plainForm amount)] }) :=
  if_pos passed

theorem step_reviewed (options : UseSendTransactionOptions) (amount : String) :
    step validateSchedule (.reviewed 0 (some none))
        { submitting := true, reviewing := [(options, plainForm amount)] } =
      some (none, {
        step := .review
        tx := some (review options (plainForm amount) plainRecipient) }) := by
  simp only [step, List.getElem?_cons_zero, Option.bind_some, recipient_plainForm,
    resolvedRecipient_plain, List.eraseIdx_cons_zero]

theorem sendActions_sends {props : SendScreenProps} {amount : String}
    (passed : (validateForm validateSchedule props.options 0 (plainForm amount)).isEmpty = true) :
    final (step validateSchedule) {} (sendActions props amount) = {} ∧
      submissions validateSchedule (sendActions props amount) =
        [⟨0, review props.options (plainForm amount) plainRecipient⟩] := by
  constructor
  · rw [sendActions, final, step_goToReview passed]
    dsimp only
    rw [final, step_reviewed]
    rfl
  · rw [submissions, sendActions, history_of_performed _ (step_goToReview passed),
      history_of_performed _ (step_reviewed _ _)]
    rfl

theorem submissions_append {first second : List (Action Schedule)}
    (back : final (step validateSchedule) {} first = {}) :
    submissions validateSchedule (first ++ second) =
      submissions validateSchedule first ++ submissions validateSchedule second := by
  rw [submissions, history_append, back, List.filterMap_append]
  rfl

theorem submissions_sends {props : SendScreenProps} {amount : String}
    (passed : (validateForm validateSchedule props.options 0 (plainForm amount)).isEmpty = true)
    (count : Nat) :
    submissions validateSchedule (List.replicate count (sendActions props amount)).flatten =
      List.replicate count ⟨0, review props.options (plainForm amount) plainRecipient⟩ := by
  induction count with
  | zero => rfl
  | succ count inductionHypothesis =>
    obtain ⟨back, sent⟩ := sendActions_sends passed
    rw [List.replicate_succ, List.flatten_cons, submissions_append back, sent,
      inductionHypothesis]
    rfl

theorem submittedOn_replicate (count : Nat) (submission : Submission Schedule) :
    submittedOn submission.day (List.replicate count submission) = count * submission.amount := by
  rw [submittedOn, List.filter_eq_self.mpr, List.map_replicate, List.sum_replicate, nsmul_eq_mul]
  intro other member
  exact decide_eq_true (congrArg Submission.day (List.eq_of_mem_replicate member))

theorem plainForm_passes {props : SendScreenProps} {amount : String}
    (amountPasses : (validateAmount amount (props.options.balance.getD 250)
      (props.options.assetDecimals.getD 7)).isNone = true)
    (unblocked : (props.options.policyResult (toNumber amount)).action ≠ .block) :
    (validateForm validateSchedule props.options 0 (plainForm amount)).isEmpty = true := by
  have recipient : (validateRecipientAddress plainRecipient).isNone = true := by decide
  simp [validateForm, ValidationErrors.isEmpty, plainForm, recipient, amountPasses, unblocked]

theorem one_passes : (validateForm validateSchedule ({} : SendScreenProps).options 0
    (plainForm "1")).isEmpty = true := by
  refine plainForm_passes ?_ ?_
  · decide +kernel
  · decide +kernel

/-- The limit of a day and the step-up threshold of a stored policy hold of a run where each amount
that is submitted fits in what the limit left that day, and is within the threshold or above
the default one; and no policy holds of all runs. -/
theorem daily_limit_held_iff (validateSchedule : Nat → Option Schedule → Option ScheduleError)
    (policy : StoredPolicy) :
    (∀ actions : List (Action Schedule),
      LimitHolds policy.toTransferPolicy (submissions validateSchedule actions) ↔
        ∀ earlier submission later,
          submissions validateSchedule actions = earlier ++ submission :: later →
          submittedOn submission.day earlier + submission.amount ≤ policy.dailyLimit ∧
            (submission.amount ≤ policy.stepUpThreshold ∨
              defaultTransferPolicy.stepUpThreshold < submission.amount)) ∧
      ∃ actions : List (Action Schedule),
        ¬ LimitHolds policy.toTransferPolicy (submissions validateSchedule actions) := by
  refine ⟨fun actions => limitHolds_iff fun submission => reviewed_of_mem_submissions, ?_⟩
  obtain ⟨count, more⟩ := exists_nat_gt policy.dailyLimit
  refine ⟨(List.replicate count (sendActions {} "1")).flatten, fun holds => ?_⟩
  rw [submissions_sends one_passes] at holds
  have amount : Submission.amount ⟨0, review ({} : SendScreenProps).options
      (plainForm "1" : SendFormValues Schedule) plainRecipient⟩ = 1 := by
    change mantissaValue "1".toList = 1
    decide +kernel
  have day := holds.daily 0
  rw [show (0 : Nat) = Submission.day ⟨0, review ({} : SendScreenProps).options
    (plainForm "1" : SendFormValues Schedule) plainRecipient⟩ from rfl, submittedOn_replicate,
    amount, mul_one] at day
  exact day.not_gt more

end Hook

/-! ### Limits that do not hold -/

def wealthyProps : SendScreenProps := { balance := some 1000 }

def anyTime : Nat → Option Unit → Option Unit := fun _ _ => none

theorem wealthy_passes (amount : String) (member : amount ∈ ["600", "200"]) :
    (validateForm anyTime wealthyProps.options 0 (plainForm amount)).isEmpty = true := by
  have all : ["600", "200"].all (fun amount =>
      (validateAmount amount (wealthyProps.options.balance.getD 250)
        (wealthyProps.options.assetDecimals.getD 7)).isNone &&
        (wealthyProps.options.policyResult (toNumber amount)).action ≠ .block) = true := by
    decide +kernel
  have each := List.all_eq_true.mp all amount member
  rw [Bool.and_eq_true, decide_eq_true_iff] at each
  exact plainForm_passes each.1 each.2

/-- Two sends of 600 on a day exceed a limit of 1000, and a send of 200 is not marked for a
threshold of 50. -/
theorem limit_exceeded_in_two_sends :
    ¬ LimitHolds (StoredPolicy.mk ⟨1000, 250⟩ (by norm_num) (by norm_num)).toTransferPolicy
      (submissions anyTime
        (sendActions wealthyProps "600" ++ sendActions wealthyProps "600")) ∧
    ¬ LimitHolds (StoredPolicy.mk ⟨1000, 50⟩ (by norm_num) (by norm_num)).toTransferPolicy
      (submissions anyTime (sendActions wealthyProps "200")) := by
  obtain ⟨back, sent⟩ := sendActions_sends (wealthy_passes "600" (by decide))
  obtain ⟨-, unmarked⟩ := sendActions_sends (wealthy_passes "200" (by decide))
  constructor
  · intro holds
    rw [submissions_append back, sent] at holds
    have day := holds.daily 0
    have both : submittedOn 0 [⟨0, review wealthyProps.options
        (plainForm "600" : SendFormValues Unit) plainRecipient⟩] = 600 := by decide +kernel
    rw [submittedOn_append, both] at day
    norm_num at day
  · intro holds
    rw [unmarked] at holds
    have marked := holds.steppedUp _ List.mem_cons_self (by decide +kernel)
    exact absurd marked (by decide +kernel)

end Ancore.Wallet.Sends
