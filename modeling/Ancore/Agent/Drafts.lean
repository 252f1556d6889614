import Ancore.Library.Json
import Ancore.Library.NumberTexts
import Ancore.Library.RegExp
import Ancore.Wallet.Sends

/-! # Drafts of intents

`generateDraftIntent` of the agent: a draft of the provider, or else of the deterministic parser,
whose recipient is resolved where it is a handle.  Drafts are validated before their recipients are
resolved; the resolver's address is only looked at by its letters.
-/

namespace Ancore.Agent

open Ancore.Library Ancore.Library.EcmaScript
open Ancore.Wallet.Sends (isUsernameHandle)

/-- The checksum of a public key, and dates. -/
structure Environment where
  isValidEd25519PublicKey : String → Bool
  dateParse : String → Option ℤ
  toISOString : ℤ → String

/-! ## Intents -/

inductive Asset where
  | XLM
  | USDC
deriving DecidableEq

def Asset.name : Asset → String
  | XLM => "XLM"
  | USDC => "USDC"

inductive Intent where
  | payment (amount : String) (asset : Asset) (destination : String)
    (resolvedFrom : Option String) (requiresConfirmation : Option Bool)
  | invoice (amount : String) (asset : Asset) (recipient : String)
    (resolvedFrom : Option String) (dueDate : String)

/-- The intent as an object. -/
def Intent.value : Intent → Value
  | payment amount asset destination resolvedFrom requiresConfirmation => .object fun name =>
    if name = "type" then .string "payment"
    else if name = "amount" then .string amount
    else if name = "asset" then .string asset.name
    else if name = "destination" then .string destination
    else if name = "resolvedFrom" then (resolvedFrom.map .string).getD .undefined
    else if name = "requiresConfirmation" then (requiresConfirmation.map .bool).getD .undefined
    else .undefined
  | invoice amount asset recipient resolvedFrom dueDate => .object fun name =>
    if name = "type" then .string "invoice"
    else if name = "amount" then .string amount
    else if name = "asset" then .string asset.name
    else if name = "recipient" then .string recipient
    else if name = "resolvedFrom" then (resolvedFrom.map .string).getD .undefined
    else if name = "dueDate" then .string dueDate
    else .undefined

def getIntentRecipient : Intent → String
  | .payment _ _ destination _ _ => destination
  | .invoice _ _ recipient _ _ => recipient

/-! ## Schemas -/

/-- `z.string()` -/
def stringSchema : Value → Option String
  | .string text => some text
  | _ => none

/-- `z.string().optional()` -/
def optionalString : Value → Option (Option String)
  | .undefined => some none
  | .string text => some (some text)
  | _ => none

/-- `z.boolean().optional()` -/
def optionalBool : Value → Option (Option Bool)
  | .undefined => some none
  | .bool value => some (some value)
  | _ => none

/-- `/^\d+(\.\d+)?$/` -/
def isAmountFormat (text : List Char) : Bool :=
  let rest := text.dropWhile Char.isDigit
  text.takeWhile Char.isDigit ≠ [] &&
    (rest = [] || (rest.head? = some '.' && rest.tail ≠ [] && rest.tail.all Char.isDigit))

def maxAmountValue : ℚ := 1000000000000000

/-- `Number(value) > 0`, `Number(value) <= MAX_AMOUNT_VALUE` -/
def isInRange : Option JsNumber → Bool
  | some (.finite false magnitude) => 0 < magnitude.value && magnitude.value ≤ maxAmountValue
  | _ => false

def isAmountString (value : String) : Bool :=
  value ≠ "" && isAmountFormat value.toList && isInRange (numberOfText value) &&
    (behindPoint value.toList).length ≤ 7

def assetSchema (value : Value) : Option Asset :=
  (stringSchema value).bind fun name =>
    if name = "XLM" then some .XLM else if name = "USDC" then some .USDC else none

/-- `/^G[A-Z0-9]{55}$/` -/
def isAddressLike (first : Char → Bool) (value : String) : Bool :=
  value.toList.head?.any first && value.toList.length = 56 &&
    value.toList.tail.all fun letter => letter.isUpper || letter.isDigit

def stellarAddressSchema (value : String) : Bool := isAddressLike (· = 'G') value

section Schemas

variable (environment : Environment)

def isStellarAccountAddress (value : String) : Bool :=
  stellarAddressSchema value && environment.isValidEd25519PublicKey value

def isAcceptableRecipient (value : String) : Bool :=
  isStellarAccountAddress environment value || isUsernameHandle value

def recipientSchema (value : Value) : Option String :=
  (stringSchema value).bind fun text =>
    if trim text ≠ "" ∧ isAcceptableRecipient environment (trim text) then some (trim text)
    else none

/-- A date that is not in the past. -/
def isDueDate (now : ℤ) (date : String) : Bool := (environment.dateParse date).any (now ≤ ·)

def paymentIntentSchema (value : Value) : Option Intent := do
  let amount ← (stringSchema (value.get "amount")).filter isAmountString
  let asset ← assetSchema (value.get "asset")
  let destination ← recipientSchema environment (value.get "destination")
  let resolvedFrom ← optionalString (value.get "resolvedFrom")
  let requiresConfirmation ← optionalBool (value.get "requiresConfirmation")
  some (.payment amount asset destination resolvedFrom requiresConfirmation)

def invoiceIntentSchema (now : ℤ) (value : Value) : Option Intent := do
  let amount ← (stringSchema (value.get "amount")).filter isAmountString
  let asset ← assetSchema (value.get "asset")
  let recipient ← recipientSchema environment (value.get "recipient")
  let resolvedFrom ← optionalString (value.get "resolvedFrom")
  let dueDate ← (stringSchema (value.get "dueDate")).filter (isDueDate environment now)
  some (.invoice amount asset recipient resolvedFrom dueDate)

/-- `intentSchema.safeParse(value)`, at a time. -/
def intentSchema (now : ℤ) (value : Value) : Option Intent :=
  (stringSchema (value.get "type")).bind fun kind =>
    if kind = "payment" then paymentIntentSchema environment value
    else if kind = "invoice" then invoiceIntentSchema environment now value
    else none

end Schemas

/-! ## The provider -/

inductive DraftSource where
  | llm
  | deterministic
deriving DecidableEq

structure ProviderDraftResult where
  intent : Intent
  summary : String

structure DraftIntentInput where
  prompt : String
  accountId : String

/-- What becomes of a request to the model: it is not available, fails, or answers with the input of
a tool, if it uses one. -/
inductive LlmAnswer where
  | unavailable
  | failed
  | answered (toolInput : Option Value)

/-- An object with these members. -/
def record (members : List (String × Value)) : Value :=
  .object fun name => (members.lookup name).getD .undefined

def parseToolOutput (environment : Environment) (now : ℤ) (rawInput : Value) :
    Option ProviderDraftResult :=
  if rawInput.isTypeofObject = false then none
  else
    match rawInput with
    | .null => none
    | input =>
      let summary := (stringSchema (input.get "summary")).filter fun text => trim text ≠ ""
      let isInvoice := stringSchema (input.get "type") = some "invoice"
      let candidate :=
        if isInvoice then
          record [("type", .string "invoice"), ("amount", input.get "amount"),
            ("asset", input.get "asset"), ("recipient", input.get "recipient"),
            ("dueDate", input.get "dueDate")]
        else
          record [("type", .string "payment"), ("amount", input.get "amount"),
            ("asset", input.get "asset"), ("destination", input.get "destination")]
      (intentSchema environment now candidate).map fun intent =>
        ⟨intent, summary.getD
          (if isInvoice then "Drafted invoice intent" else "Drafted payment intent")⟩

/-- `AnthropicProvider.draftIntent`, where it does not throw. -/
def draftIntent (environment : Environment) (now : ℤ) : LlmAnswer → Option ProviderDraftResult
  | .answered (some toolInput) => parseToolOutput environment now toolInput
  | _ => none

/-! ## The deterministic parser -/

section Deterministic

/-- `\w` -/
def isWordLetter (letter : Char) : Bool := letter.isAlphanum || letter = '_'

def letterOf (letter : Char) : Char → Bool := fun other => other = letter

/-- A letter in either case. -/
def eitherCase (letter : Char) : Char → Bool := fun other => other.toLower = letter

def keyword (letters : String) : RegExp Char := .word (letters.toList.map eitherCase)

/-- `/\bG[A-Z2-7]{55}\b/` -/
def stellarAddressRe : RegExp Char :=
  .sequence (.boundary isWordLetter) (.sequence (.letter (letterOf 'G'))
    (.sequence (.times 55 (.letter fun letter =>
      letter.isUpper || ('2' ≤ letter && letter ≤ '7'))) (.boundary isWordLetter)))

def digits : RegExp Char := .atLeast 1 (.letter Char.isDigit)

/-- `(\d+(?:\.\d+)?)` -/
def amountRe : RegExp Char :=
  .sequence digits (.optional (.sequence (.letter (letterOf '.')) digits))

def spaces : RegExp Char := .many true (.letter isWhiteSpace)

/-- `(?:xlm|lumens?|usdc)` -/
def assetKeywords : RegExp Char :=
  .alternatives [keyword "xlm", .sequence (keyword "lumen") (.optional (keyword "s")),
    keyword "usdc"]

def invoiceKeywords : List String := ["invoice", "bill me", "request payment", "request a payment"]

def isInvoicePrompt (prompt : String) : Bool :=
  invoiceKeywords.any fun keyword => includes (toLowerCase prompt) keyword

def extractAmount (prompt : String) : String :=
  let stripped := stellarAddressRe.replaceAll [' '] prompt.toList
  let nearAsset :=
    (RegExp.capture .empty amountRe (.sequence spaces
      (.sequence assetKeywords (.boundary isWordLetter))) stripped).orElse fun _ =>
    RegExp.capture (.sequence assetKeywords spaces) amountRe .empty stripped
  match nearAsset with
  | some amount => String.ofList amount
  | none => ((RegExp.capture .empty amountRe .empty stripped).map String.ofList).getD "10"

def extractAsset (prompt : String) : Asset :=
  if (RegExp.capture (.boundary isWordLetter) (keyword "usdc") (.boundary isWordLetter)
      prompt.toList).isSome then .USDC
  else .XLM

/-- `token.replace(/[.,;:!?]+$/, '')` -/
def withoutPunctuation (token : List Char) : List Char :=
  token.rdropWhile fun letter => letter ∈ ['.', ',', ';', ':', '!', '?']

def extractDestination (prompt : String) : Option String :=
  match RegExp.capture .empty stellarAddressRe .empty prompt.toList with
  | some address => some (String.ofList address)
  | none => ((prompt.toList.splitOnP isWhiteSpace).map fun token =>
      String.ofList (withoutPunctuation token)).find? isUsernameHandle

def msPerDay : ℤ := 24 * 60 * 60 * 1000

/-- The clock, as it goes on while a draft is made. -/
structure Times where
  answered : ℤ
  drafted : ℤ
  parsed : ℤ
  validated : ℤ

/-- Why there is no draft. -/
inductive DraftError where
  | missingDestination
  | unableToDraft (kind : String)
  | failedValidation
  | noResolver (label value : String)
  | handleNotFound (label handle : String)
  | resolverFailed

def deterministicDraftIntent (environment : Environment) (times : Times)
    (input : DraftIntentInput) : Except DraftError ProviderDraftResult :=
  let amount := extractAmount input.prompt
  let asset := extractAsset input.prompt
  if isInvoicePrompt input.prompt then
    match intentSchema environment times.parsed (record [("type", .string "invoice"),
        ("amount", .string amount), ("asset", .string asset.name),
        ("recipient", .string ((extractDestination input.prompt).getD input.accountId)),
        ("dueDate", .string (environment.toISOString (times.drafted + 7 * msPerDay)))]) with
    | none => .error (.unableToDraft "invoice")
    | some intent => .ok ⟨intent, "Drafted invoice intent"⟩
  else
    match extractDestination input.prompt with
    | none => .error .missingDestination
    | some destination =>
      match intentSchema environment times.parsed (record [("type", .string "payment"),
          ("destination", .string destination), ("amount", .string amount),
          ("asset", .string asset.name)]) with
      | none => .error (.unableToDraft "payment")
      | some intent => .ok ⟨intent, "Drafted payment intent"⟩

end Deterministic

structure DraftIntentResult extends ProviderDraftResult where
  source : DraftSource

/-- The draft of the provider, or of the deterministic parser. -/
def produceDraft (environment : Environment) (times : Times) (answer : LlmAnswer)
    (input : DraftIntentInput) : Except DraftError DraftIntentResult :=
  match draftIntent environment times.answered answer with
  | some result => .ok { result with source := .llm }
  | none =>
    match deterministicDraftIntent environment times input with
    | .error error => .error error
    | .ok result =>
      match intentSchema environment times.validated result.intent.value with
      | none => .error .failedValidation
      | some intent => .ok { intent, summary := result.summary, source := .deterministic }

/-! ## The resolver -/

structure ResolvedHandle where
  handle : String
  accountAddress : String
  displayName : Option String

/-- What comes of a request to the endpoint; a body that is no JSON is `none`. -/
inductive Fetched where
  | failed
  | response (status : ℕ) (body : Option Value)

def normalizeUsernameHandle (value : String) : Option String :=
  let normalized := toLowerCase (trim value)
  if isUsernameHandle normalized then some normalized else none

def resolvedHandleSchema (value : Value) : Option ResolvedHandle := do
  let handle ← ((stringSchema (value.get "handle")).map trim).filter isUsernameHandle
  let accountAddress ← (stringSchema (value.get "accountAddress")).filter
    (isAddressLike fun letter => letter = 'G' || letter = 'C')
  let displayName ← optionalString (value.get "displayName")
  some ⟨handle, accountAddress, displayName⟩

/-- The handle of a response that `handleResolutionResponseSchema` accepts as found. -/
def foundHandle (body : Value) : Option ResolvedHandle :=
  if stringSchema (body.get "status") = some "found" then
    resolvedHandleSchema (body.get "result")
  else none

/-- The resolver that asks this endpoint. -/
def serviceHandleResolver (endpoint : String → Fetched) (handle : String) :
    Except DraftError (Option ResolvedHandle) :=
  match endpoint ((normalizeUsernameHandle handle).getD "null") with
  | .failed => .error .resolverFailed
  | .response status body =>
    if status = 404 then .ok none
    else if ¬ (200 ≤ status ∧ status < 300) then .error .resolverFailed
    else
      match body with
      | none => .error .resolverFailed
      | some body => .ok (foundHandle body)

def fieldLabel : Intent → String
  | .payment .. => "destination"
  | .invoice .. => "recipient"

/-- `{ ...intent, destination: address, resolvedFrom: handle }` -/
def Intent.resolve (address handle : String) : Intent → Intent
  | payment amount asset _ _ requiresConfirmation =>
    payment amount asset address (some handle) requiresConfirmation
  | invoice amount asset _ _ dueDate => invoice amount asset address (some handle) dueDate

/-- A resolver that is not configured is `none`; the one of a service throws for no handle. -/
def resolveIntentRecipient (intent : Intent) (resolver : Option (String → Fetched)) :
    Except DraftError Intent :=
  let value := getIntentRecipient intent
  if isUsernameHandle value = false then .ok intent
  else
    match resolver with
    | none => .error (.noResolver (fieldLabel intent) value)
    | some endpoint =>
      match normalizeUsernameHandle value with
      | none => .error .resolverFailed
      | some handle =>
        match serviceHandleResolver endpoint handle with
        | .error error => .error error
        | .ok none => .error (.handleNotFound (fieldLabel intent) handle)
        | .ok (some resolved) => .ok (intent.resolve resolved.accountAddress handle)

def generateDraftIntent (environment : Environment) (times : Times) (answer : LlmAnswer)
    (resolver : Option (String → Fetched)) (input : DraftIntentInput) :
    Except DraftError DraftIntentResult :=
  match produceDraft environment times answer input with
  | .error error => .error error
  | .ok draft =>
    match resolveIntentRecipient draft.intent resolver with
    | .error error => .error error
    | .ok intent => .ok { draft with intent }

/-! ## Payable drafts -/

/-- An address is in capitals and digits. -/
theorem solid_of_isAddressLike {first : Char → Bool} {value : String}
    (firstSolid : ∀ letter, first letter = true → letter.isAlphanum = true)
    (addressLike : isAddressLike first value = true) :
    ∀ letter ∈ value.toList, letter.isAlphanum = true := by
  simp only [isAddressLike, Bool.and_eq_true, Option.any_eq_true, List.all_eq_true] at addressLike
  obtain ⟨⟨⟨head, isHead, headOk⟩, -⟩, tailOk⟩ := addressLike
  intro letter member
  have whole : value.toList = head :: value.toList.tail := (List.cons_head?_tail isHead).symm
  rw [whole] at member
  cases List.mem_cons.mp member with
  | inl same => exact same ▸ firstSolid head headOk
  | inr member =>
    have capital := tailOk letter member
    simp only [Char.isAlphanum, Char.isAlpha, Bool.or_eq_true] at capital ⊢
    exact capital.elim (fun upper => .inl (.inl upper)) .inr

section Accounts

variable {environment : Environment}

theorem isAddressLike_of_isStellarAccountAddress {value : String}
    (account : isStellarAccountAddress environment value = true) :
    isAddressLike (· = 'G') value = true := (Bool.and_eq_true_iff.mp account).1

theorem alphanumeric_of_isStellarAccountAddress {value : String}
    (account : isStellarAccountAddress environment value = true) :
    ∀ letter ∈ value.toList, letter.isAlphanum = true := by
  apply solid_of_isAddressLike (fun letter isG => ?_)
    (isAddressLike_of_isStellarAccountAddress account)
  rw [decide_eq_true_eq] at isG
  rw [isG]
  decide

theorem trim_of_isStellarAccountAddress {value : String}
    (account : isStellarAccountAddress environment value = true) : trim value = value :=
  trim_of_solid fun letter member =>
    isWhiteSpace_of_isAlphanum (alphanumeric_of_isStellarAccountAddress account letter member)

/-- An address is no handle. -/
theorem isUsernameHandle_of_isStellarAccountAddress {value : String}
    (account : isStellarAccountAddress environment value = true) :
    isUsernameHandle value = false := by
  rw [isUsernameHandle, trim_of_isStellarAccountAddress account]
  split
  · next first rest whole =>
    have alphanumeric := alphanumeric_of_isStellarAccountAddress account '@' (by simp [whole])
    exact absurd alphanumeric (by decide)
  · rfl

end Accounts

/-! ### What the schemas accept -/

def Intent.amount : Intent → String
  | payment amount .. => amount
  | invoice amount .. => amount

/-- What an invoice is asked besides. -/
def Intent.isDue (environment : Environment) (now : ℤ) : Intent → Bool
  | payment .. => true
  | invoice _ _ _ _ dueDate => isDueDate environment now dueDate

section Schemas

variable {environment : Environment} {now : ℤ}

theorem recipientSchema_eq_some_iff {value : Value} {recipient : String} :
    recipientSchema environment value = some recipient ↔
      ∃ text, stringSchema value = some text ∧ recipient = trim text ∧ recipient ≠ "" ∧
        isAcceptableRecipient environment recipient = true := by
  simp only [recipientSchema, Option.bind_eq_some_iff, Option.ite_none_right_eq_some,
    Option.some.injEq]
  constructor
  · rintro ⟨text, isText, ⟨filled, acceptable⟩, rfl⟩
    exact ⟨text, isText, rfl, filled, acceptable⟩
  · rintro ⟨text, isText, rfl, filled, acceptable⟩
    exact ⟨text, isText, ⟨filled, acceptable⟩, rfl⟩

/-- A recipient that was accepted is accepted as it is. -/
theorem recipientSchema_again {value : Value} {recipient : String}
    (accepted : recipientSchema environment value = some recipient) :
    recipientSchema environment (.string recipient) = some recipient := by
  obtain ⟨text, -, trimmed, filled, acceptable⟩ := recipientSchema_eq_some_iff.mp accepted
  apply recipientSchema_eq_some_iff.mpr
  refine ⟨recipient, rfl, ?_, filled, acceptable⟩
  rw [trimmed, trim_trim]

theorem recipientSchema_of_isStellarAccountAddress {address : String}
    (account : isStellarAccountAddress environment address = true) :
    recipientSchema environment (.string address) = some address := by
  apply recipientSchema_eq_some_iff.mpr
  refine ⟨address, rfl, (trim_of_isStellarAccountAddress account).symm, ?_, ?_⟩
  · rintro rfl
    exact absurd (isAddressLike_of_isStellarAccountAddress account) (by simp [isAddressLike])
  · rw [isAcceptableRecipient, account, Bool.true_or]

/-- What the schema makes of a value. -/
theorem intentSchema_eq_some {value : Value} {intent : Intent}
    (accepted : intentSchema environment now value = some intent) :
    isAmountString intent.amount = true ∧
      recipientSchema environment (.string (getIntentRecipient intent)) =
        some (getIntentRecipient intent) ∧
      intent.isDue environment now = true := by
  simp only [intentSchema, Option.bind_eq_some_iff] at accepted
  obtain ⟨kind, -, accepted⟩ := accepted
  split at accepted
  · simp only [paymentIntentSchema, Option.bind_eq_bind, Option.bind_eq_some_iff,
      Option.filter_eq_some_iff, Option.some.injEq] at accepted
    obtain ⟨amount, ⟨-, amountOk⟩, asset, -, destination, isDestination, -, -, -, -, rfl⟩ :=
      accepted
    exact ⟨amountOk, recipientSchema_again isDestination, rfl⟩
  · split at accepted
    · simp only [invoiceIntentSchema, Option.bind_eq_bind, Option.bind_eq_some_iff,
        Option.filter_eq_some_iff, Option.some.injEq] at accepted
      obtain ⟨amount, ⟨-, amountOk⟩, asset, -, recipient, isRecipient, -, -, dueDate, ⟨-, due⟩,
        rfl⟩ := accepted
      exact ⟨amountOk, recipientSchema_again isRecipient, due⟩
    · cases accepted

theorem assetSchema_name (asset : Asset) : assetSchema (.string asset.name) = some asset := by
  cases asset <;> decide

theorem optionalString_value (text : Option String) :
    optionalString ((text.map Value.string).getD .undefined) = some text := by
  cases text <;> rfl

theorem optionalBool_value (value : Option Bool) :
    optionalBool ((value.map Value.bool).getD .undefined) = some value := by
  cases value <;> rfl

/-- An intent is accepted again for its amount, its recipient and its due date. -/
theorem isSome_intentSchema_value (intent : Intent) :
    (intentSchema environment now intent.value).isSome = true ↔
      isAmountString intent.amount = true ∧
        (recipientSchema environment (.string (getIntentRecipient intent))).isSome = true ∧
        intent.isDue environment now = true := by
  cases intent with
  | payment amount asset destination resolvedFrom requiresConfirmation =>
    have schema : intentSchema environment now
        (Intent.payment amount asset destination resolvedFrom requiresConfirmation).value =
          ((some amount).filter isAmountString).bind fun amount =>
            (recipientSchema environment (.string destination)).bind fun destination =>
              some (.payment amount asset destination resolvedFrom requiresConfirmation) := by
      simp [intentSchema, Intent.value, Value.get, stringSchema, paymentIntentSchema,
        assetSchema_name, optionalString_value, optionalBool_value]
    simp only [schema, Option.isSome_iff_exists, Option.bind_eq_some_iff,
      Option.filter_eq_some_iff, Option.some.injEq, getIntentRecipient, Intent.amount, Intent.isDue]
    grind
  | invoice amount asset recipient resolvedFrom dueDate =>
    have schema : intentSchema environment now
        (Intent.invoice amount asset recipient resolvedFrom dueDate).value =
          ((some amount).filter isAmountString).bind fun amount =>
            (recipientSchema environment (.string recipient)).bind fun recipient =>
              ((some dueDate).filter (isDueDate environment now)).bind fun dueDate =>
                some (.invoice amount asset recipient resolvedFrom dueDate) := by
      simp [intentSchema, Intent.value, Value.get, stringSchema, invoiceIntentSchema,
        assetSchema_name, optionalString_value]
    simp only [schema, Option.isSome_iff_exists, Option.bind_eq_some_iff,
      Option.filter_eq_some_iff, Option.some.injEq, getIntentRecipient, Intent.amount, Intent.isDue]
    grind

end Schemas

/-! ### Drafts -/

section Drafts

variable {environment : Environment} {times : Times} {answer : LlmAnswer}
  {input : DraftIntentInput} {resolver : Option (String → Fetched)}

theorem intentSchema_of_parseToolOutput {now : ℤ} {rawInput : Value}
    {result : ProviderDraftResult}
    (parsed : parseToolOutput environment now rawInput = some result) :
    ∃ value, intentSchema environment now value = some result.intent := by
  rw [parseToolOutput.eq_def] at parsed
  split at parsed
  · cases parsed
  · split at parsed
    · cases parsed
    · obtain ⟨intent, accepted, rfl⟩ := Option.map_eq_some_iff.mp parsed
      exact ⟨_, accepted⟩

/-- The intent of a draft is one of the schema. -/
theorem intentSchema_of_produceDraft {draft : DraftIntentResult}
    (produced : produceDraft environment times answer input = .ok draft) :
    ∃ now value, intentSchema environment now value = some draft.intent := by
  rw [produceDraft] at produced
  split at produced
  · next result drafted =>
    cases produced
    cases answer with
    | unavailable | failed => cases drafted
    | answered toolInput =>
      cases toolInput with
      | none => cases drafted
      | some toolInput => exact ⟨times.answered, intentSchema_of_parseToolOutput drafted⟩
  · split at produced
    · cases produced
    · split at produced
      · cases produced
      · next intent validated =>
        cases produced
        exact ⟨times.validated, _, validated⟩

/-- The schema accepts the intent at a time, and its recipient can be paid. -/
def PayableIntent (environment : Environment) (now : ℤ) (intent : Intent) : Prop :=
  (intentSchema environment now intent.value).isSome = true ∧
    isStellarAccountAddress environment (getIntentRecipient intent) = true ∧
    isUsernameHandle (getIntentRecipient intent) = false

theorem payableIntent_iff {now : ℤ} {intent : Intent}
    (amountOk : isAmountString intent.amount = true) :
    PayableIntent environment now intent ↔
      isStellarAccountAddress environment (getIntentRecipient intent) = true ∧
        intent.isDue environment now = true := by
  rw [PayableIntent, isSome_intentSchema_value]
  constructor
  · rintro ⟨⟨-, -, due⟩, account, -⟩
    exact ⟨account, due⟩
  · rintro ⟨account, due⟩
    refine ⟨⟨amountOk, ?_, due⟩, account, isUsernameHandle_of_isStellarAccountAddress account⟩
    rw [recipientSchema_of_isStellarAccountAddress account]
    rfl

/-- What a draft that is returned at a time is to be. -/
def PayableDraft (environment : Environment) (returned : ℤ) :
    Except DraftError DraftIntentResult → Prop
  | .error _ => True
  | .ok draft => PayableIntent environment returned draft.intent

/-- What the service finds for an intent: its handle, and the answer. -/
def Finds (endpoint : String → Fetched) (intent : Intent) (handle : String)
    (resolved : ResolvedHandle) : Prop :=
  normalizeUsernameHandle (getIntentRecipient intent) = some handle ∧
    serviceHandleResolver endpoint handle = .ok (some resolved)

/-- An address stays, a handle that is not found is an error, and one that is found is replaced. -/
theorem resolveIntentRecipient_cases (intent : Intent) (resolver : Option (String → Fetched)) :
    (isUsernameHandle (getIntentRecipient intent) = false ∧
      resolveIntentRecipient intent resolver = .ok intent) ∨
    (isUsernameHandle (getIntentRecipient intent) = true ∧
      (∃ error, resolveIntentRecipient intent resolver = .error error) ∧
      ∀ endpoint ∈ resolver, ∀ handle resolved, ¬ Finds endpoint intent handle resolved) ∨
    (isUsernameHandle (getIntentRecipient intent) = true ∧
      ∃ endpoint handle resolved, resolver = some endpoint ∧
        Finds endpoint intent handle resolved ∧
        resolveIntentRecipient intent resolver =
          .ok (intent.resolve resolved.accountAddress handle)) := by
  rw [resolveIntentRecipient.eq_def]
  dsimp only
  cases isHandle : isUsernameHandle (getIntentRecipient intent) with
  | false => exact .inl ⟨rfl, rfl⟩
  | true =>
    rw [if_neg (by decide)]
    refine .inr ?_
    cases resolver with
    | none => exact .inl ⟨rfl, ⟨_, rfl⟩, nofun⟩
    | some endpoint =>
      dsimp only
      cases normalized : normalizeUsernameHandle (getIntentRecipient intent) with
      | none =>
        refine .inl ⟨rfl, ⟨_, rfl⟩, ?_⟩
        rintro _ - handle resolved ⟨isNormalized, -⟩
        cases normalized.symm.trans isNormalized
      | some handle =>
        dsimp only
        have only : ∀ other resolved, Finds endpoint intent other resolved →
            serviceHandleResolver endpoint handle = .ok (some resolved) := by
          rintro other resolved ⟨isNormalized, found⟩
          cases normalized.symm.trans isNormalized
          exact found
        cases reply : serviceHandleResolver endpoint handle with
        | error error =>
          refine .inl ⟨rfl, ⟨error, rfl⟩, ?_⟩
          rintro _ ⟨⟩ other resolved found
          cases reply.symm.trans (only other resolved found)
        | ok answer =>
          cases answer with
          | none =>
            refine .inl ⟨rfl, ⟨.handleNotFound (fieldLabel intent) handle, rfl⟩, ?_⟩
            rintro _ ⟨⟩ other resolved found
            cases reply.symm.trans (only other resolved found)
          | some resolved =>
            exact .inr ⟨rfl, endpoint, handle, resolved, rfl, ⟨normalized, reply⟩, rfl⟩

theorem amount_resolve (address handle : String) (intent : Intent) :
    (intent.resolve address handle).amount = intent.amount := by cases intent <;> rfl

theorem getIntentRecipient_resolve (address handle : String) (intent : Intent) :
    getIntentRecipient (intent.resolve address handle) = address := by cases intent <;> rfl

theorem isDue_resolve (now : ℤ) (address handle : String) (intent : Intent) :
    (intent.resolve address handle).isDue environment now = intent.isDue environment now := by
  cases intent <;> rfl

/-- A recipient that the schema accepts is an account, or else a handle. -/
theorem isStellarAccountAddress_of_not_handle {recipient : String}
    (accepted : recipientSchema environment (.string recipient) = some recipient)
    (notHandle : isUsernameHandle recipient = false) :
    isStellarAccountAddress environment recipient = true := by
  obtain ⟨-, -, -, -, acceptable⟩ := recipientSchema_eq_some_iff.mp accepted
  rwa [isAcceptableRecipient, notHandle, Bool.or_false] at acceptable

theorem payable_draft_iff (environment : Environment) (times : Times) (answer : LlmAnswer)
    (resolver : Option (String → Fetched)) (input : DraftIntentInput) (returned : ℤ) :
    PayableDraft environment returned
        (generateDraftIntent environment times answer resolver input) ↔
      ∀ draft, produceDraft environment times answer input = .ok draft →
        (isUsernameHandle (getIntentRecipient draft.intent) = false →
          draft.intent.isDue environment returned = true) ∧
        (isUsernameHandle (getIntentRecipient draft.intent) = true →
          ∀ endpoint ∈ resolver, ∀ handle resolved, Finds endpoint draft.intent handle resolved →
            isStellarAccountAddress environment resolved.accountAddress = true ∧
              draft.intent.isDue environment returned = true) := by
  rw [generateDraftIntent.eq_def]
  cases produced : produceDraft environment times answer input with
  | error error =>
    refine iff_of_true trivial ?_
    rintro draft ⟨⟩
  | ok draft =>
    simp only [Except.ok.injEq, forall_eq']
    obtain ⟨now, value, accepted⟩ := intentSchema_of_produceDraft produced
    obtain ⟨amountOk, recipientOk, -⟩ := intentSchema_eq_some accepted
    rcases resolveIntentRecipient_cases draft.intent resolver with
      ⟨notHandle, stays⟩ | ⟨isHandle, ⟨error, fails⟩, notFound⟩ |
      ⟨isHandle, endpoint, handle, resolved, rfl, found, replaced⟩
    · have account := isStellarAccountAddress_of_not_handle recipientOk notHandle
      simp only [stays, PayableDraft, payableIntent_iff amountOk, account, notHandle, true_and,
        true_implies, Bool.false_eq_true, false_implies, and_true]
    · simp only [fails, PayableDraft, isHandle, true_iff]
      refine ⟨nofun, fun _ endpoint configured handle resolved found => ?_⟩
      exact absurd found (notFound endpoint configured handle resolved)
    · rw [← amount_resolve resolved.accountAddress handle] at amountOk
      have only : ∀ other reply, Finds endpoint draft.intent other reply ↔
          handle = other ∧ resolved = reply := by
        rintro other reply
        constructor
        · rintro ⟨isNormalized, isReply⟩
          cases found.1.symm.trans isNormalized
          cases found.2.symm.trans isReply
          exact ⟨rfl, rfl⟩
        · rintro ⟨rfl, rfl⟩
          exact found
      simp only [replaced, PayableDraft, payableIntent_iff amountOk, getIntentRecipient_resolve,
        isDue_resolve, isHandle, Option.mem_some_iff, forall_eq', only, true_implies,
        Bool.true_eq_false, false_implies, true_and]
      refine ⟨fun payable other reply ⟨_, same⟩ => same ▸ payable, fun payable => ?_⟩
      exact payable handle resolved ⟨rfl, rfl⟩

/-- The service finds a contract for the handle. -/
theorem handle_of_a_contract :
    ¬ ∀ environment times answer resolver input returned,
      PayableDraft environment returned
        (generateDraftIntent environment times answer resolver input) := by
  intro always
  let environment : Environment := ⟨fun _ => false, fun _ => none, fun _ => ""⟩
  let toolInput := record [("type", .string "payment"), ("amount", .string "10"),
    ("asset", .string "XLM"), ("destination", .string "@alice"), ("summary", .string "Pay @alice")]
  let contract := "CAAAAAAAAAAAAAAAAAAAAAAAAAAAAAAAAAAAAAAAAAAAAAAAAAAAAAAA"
  let found := record [("status", .string "found"), ("result", record [
    ("handle", .string "@alice"), ("accountAddress", .string contract)])]
  let drafted := generateDraftIntent environment ⟨0, 0, 0, 0⟩ (.answered (some toolInput))
    (some fun _ => .response 200 (some found)) ⟨"pay @alice 10 XLM", ""⟩
  have paid : drafted.toOption.map (fun draft => getIntentRecipient draft.intent) =
      some contract := by decide +kernel
  have payable : PayableDraft environment 0 drafted := always _ _ _ _ _ _
  cases outcome : drafted with
  | error error =>
    rw [outcome] at paid
    cases paid
  | ok draft =>
    rw [outcome] at paid payable
    have recipient : getIntentRecipient draft.intent = contract := Option.some.inj paid
    have account : isStellarAccountAddress environment contract = true :=
      recipient ▸ payable.2.1
    exact absurd account (by decide +kernel)

end Drafts

end Ancore.Agent
