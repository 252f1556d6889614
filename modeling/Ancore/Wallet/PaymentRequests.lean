import Ancore.Wallet.Amounts

/-! # Payment requests

`parsePaymentRequest` of the core SDK makes a request of anything that a link or an answer
may hold.  What it returns is well formed, it returns every well-formed request for itself,
and so parsing again changes nothing (`parsed_requests`).

The check of public keys is a parameter, and so is `toFixed`, whose texts are not empty and
have no white space.
-/

namespace Ancore.Wallet.PaymentRequests

open Ancore.Library Ancore.Library.EcmaScript Ancore.Wallet.Amounts

/-! ## Requests -/

inductive MemoType where
  | text
  | id
  | hash
  | «return»
deriving DecidableEq

def MemoType.string : MemoType → String
  | text => "text"
  | id => "id"
  | hash => "hash"
  | «return» => "return"

inductive Asset where
  | native
  | issued (code issuer : String)

structure PaymentRequest where
  destination : String
  amount : String
  asset : Asset
  memo : Option String
  memoType : Option MemoType
  label : Option String
  message : Option String
  callbackUrl : Option String
  extra : Option Value

/-- The errors, by what their messages tell. -/
inductive PaymentRequestValidationError where
  | notAnObject
  | destinationRequired
  | destinationInvalid (destination : String)
  | amountRequired
  | amountInvalid (error : InvalidAmountError)
  | assetIncomplete
  | issuerInvalid
  | assetKind
  | memoType
  | memoTooLong

abbrev Parsed := Except PaymentRequestValidationError

/-! ## Parsing -/

structure Platform where
  /-- `StrKey.isValidEd25519PublicKey` -/
  isValidEd25519PublicKey : String → Bool
  /-- `number.toFixed(digits)` -/
  toFixed : Numeric → Nat → String

section Parsing

variable (platform : Platform)

def parseDestination : Value → Parsed String
  | .string destination =>
    if platform.isValidEd25519PublicKey destination then .ok destination
    else .error (.destinationInvalid destination)
  | _ => .error .destinationRequired

def normalizeText (amount : String) : Parsed String :=
  match normalizeAmount amount {} with
  | .ok normalized => .ok normalized
  | .error error => .error (.amountInvalid error)

def parseAmount : Value → Parsed String
  | .string amount => normalizeText amount
  | .number amount => normalizeText (platform.toFixed amount 8)
  | _ => .error .amountRequired

def parseIssued (asset : Value) : Parsed Asset :=
  match asset.get "code", asset.get "issuer" with
  | .string code, .string issuer =>
    if platform.isValidEd25519PublicKey issuer then .ok (.issued code issuer)
    else .error .issuerInvalid
  | _, _ => .error .assetIncomplete

def parseAsset (asset : Value) : Parsed Asset :=
  if asset.isTruthy then
    match asset with
    | .string text => if text = "native" then .ok .native else .error .assetKind
    | asset => if asset.isTypeofObject then parseIssued platform asset else .error .assetKind
  else .ok .native

/-- A property that is a string. -/
def stringOf : Value → Option String
  | .string text => some text
  | _ => none

def memoTypes : List MemoType := [.text, .id, .hash, .return]

/-- An empty type is none. -/
def parseMemoType (memoType : Value) : Parsed (Option MemoType) :=
  match stringOf memoType with
  | none => .ok none
  | some text =>
    if text = "" then .ok none
    else
      match memoTypes.find? fun kind => kind.string = text with
      | some kind => .ok (some kind)
      | none => .error .memoType

/-- The length in bytes counts where the memo is a text. -/
def checkMemo (memo : Option String) (memoType : Option MemoType) : Parsed Unit :=
  match memo with
  | none => .ok ()
  | some memo =>
    if memoType.getD .text = .text ∧ memo.utf8ByteSize > 28 then .error .memoTooLong else .ok ()

def parsePaymentRequest (payload : Value) : Parsed PaymentRequest := do
  if !payload.isTruthy || !payload.isTypeofObject then .error .notAnObject
  else
    let destination ← parseDestination platform (payload.get "destination")
    let amount ← parseAmount platform (payload.get "amount")
    let asset ← parseAsset platform (payload.get "asset")
    let memo := stringOf (payload.get "memo")
    let memoType ← parseMemoType (payload.get "memoType")
    checkMemo memo memoType
    let extra := payload.get "extra"
    return {
      destination, amount, asset, memoType
      -- an empty memo is left out
      memo := memo.filter (· ≠ "")
      label := stringOf (payload.get "label")
      message := stringOf (payload.get "message")
      callbackUrl := stringOf (payload.get "callbackUrl")
      extra := if extra.isTruthy && extra.isTypeofObject then some extra else none }

end Parsing

/-! ## Requests as payloads -/

def Asset.value : Asset → Value
  | .native => .string "native"
  | .issued code issuer => .object fun name =>
    if name = "code" then .string code else if name = "issuer" then .string issuer else .undefined

def optional (text : Option String) : Value := text.elim .undefined .string

/-- The request as an object. -/
def PaymentRequest.payload (request : PaymentRequest) : Value := .object fun name =>
  if name = "destination" then .string request.destination
  else if name = "amount" then .string request.amount
  else if name = "asset" then request.asset.value
  else if name = "memo" then optional request.memo
  else if name = "memoType" then optional (request.memoType.map MemoType.string)
  else if name = "label" then optional request.label
  else if name = "message" then optional request.message
  else if name = "callbackUrl" then optional request.callbackUrl
  else if name = "extra" then request.extra.getD .undefined
  else .undefined

/-- What every returned request satisfies. -/
structure WellFormed (platform : Platform) (request : PaymentRequest) : Prop where
  destination : platform.isValidEd25519PublicKey request.destination = true
  amount : normalizeAmount request.amount {} = .ok request.amount
  issuer : ∀ code issuer, request.asset = .issued code issuer →
    platform.isValidEd25519PublicKey issuer = true
  memo : request.memo ≠ some ""
  memoLength : ∀ memo ∈ request.memo, request.memoType.getD .text = .text →
    memo.utf8ByteSize ≤ 28
  extra : ∀ extra ∈ request.extra, extra.isTruthy = true ∧ extra.isTypeofObject = true

/-! ## Amounts -/

section Amount

variable {amount result : String}

theorem zeroNumeral_value : zeroNumeral.value = 0 := by
  simp [zeroNumeral, Numeral.value, Numeral.magnitude, digitsValue, Nat.ofDigitChars]

/-- A returned amount is a positive numeral in its normal form, and returned for itself. -/
theorem normalizeAmount_normal (returned : normalizeAmount amount {} = .ok result) :
    normalizeAmount result {} = .ok result ∧ ∃ numeral : Numeral, numeral.text = result.toList ∧
      numeral.Canonical ∧ numeral.fractional.length ≤ 7 ∧ 0 < numeral.value := by
  obtain ⟨numeral, -, plausibly, through, scaled, scales, same⟩ := normalizeAmount_ok.mp returned
  obtain ⟨numeral', text, value, canonical, short⟩ :=
    exists_formatted scales (.inl (by decide : (7 : Nat) ≠ 0))
  have written : numeral'.text = result.toList := by rw [text, same, String.toList_ofList]
  have trimmed : trim result = result := by
    have solid := numeral'.trim_text
    rwa [written, String.ofList_toList] at solid
  have nonzero : numeral.value ≠ 0 := plausibly.nonzero.resolve_right nofun
  have nonneg : 0 ≤ numeral.value := by
    obtain ⟨read, isZero, above⟩ := through.min
    have zero : read = 0 := (Option.some.inj isZero).symm.trans zeroNumeral_value
    obtain above | ⟨positive, -⟩ := above
    · exact zero ▸ above
    · exact absurd zero positive.ne'
  refine ⟨normalizeAmount_ok.mpr ⟨numeral', written.trans (by rw [trimmed]), ⟨?_, ?_⟩, ?_, scaled,
    ?_, same⟩, numeral', written, canonical, List.drop_eq_nil_iff.mp short, ?_⟩
  · rw [short]
    exact List.forall_mem_nil _
  · rw [value]
    exact plausibly.nonzero
  · rw [value]
    exact through
  · rw [value]
    exact scales
  · rw [value]
    exact lt_of_le_of_ne nonneg nonzero.symm

end Amount

/-! ## Parts of a request -/

section Parts

variable {platform : Platform} {value : Value}

theorem parseDestination_ok {destination : String} :
    parseDestination platform value = .ok destination ↔
      value = .string destination ∧ platform.isValidEd25519PublicKey destination = true := by
  cases value with
  | string text =>
    simp only [parseDestination, Value.string.injEq]
    split
    · rename_i valid
      rw [Except.ok.injEq]
      exact ⟨fun same => ⟨same, same ▸ valid⟩, And.left⟩
    · rename_i refused
      exact iff_of_false nofun fun ⟨same, valid⟩ => refused (same ▸ valid)
  | _ => exact iff_of_false nofun nofun

theorem normalizeText_ok {amount result : String} :
    normalizeText amount = .ok result ↔ normalizeAmount amount {} = .ok result := by
  rw [normalizeText]
  cases normalizeAmount amount {} with
  | ok normalized => simp
  | error error => simp

theorem parseAmount_normal {amount : String} (parsed : parseAmount platform value = .ok amount) :
    normalizeAmount amount {} = .ok amount ∧ ∃ numeral : Numeral, numeral.text = amount.toList ∧
      numeral.Canonical ∧ numeral.fractional.length ≤ 7 ∧ 0 < numeral.value := by
  cases value with
  | string text => exact normalizeAmount_normal (normalizeText_ok.mp parsed)
  | number number => exact normalizeAmount_normal (normalizeText_ok.mp parsed)
  | _ => cases parsed

theorem parseIssued_valid {asset : Asset} (parsed : parseIssued platform value = .ok asset) :
    ∀ code issuer, asset = .issued code issuer →
      platform.isValidEd25519PublicKey issuer = true := by
  simp only [parseIssued] at parsed
  split at parsed
  · split at parsed
    · rename_i valid
      cases parsed
      rintro code issuer same
      cases same
      exact valid
    · cases parsed
  · cases parsed

theorem parseAsset_valid {asset : Asset} (parsed : parseAsset platform value = .ok asset) :
    ∀ code issuer, asset = .issued code issuer →
      platform.isValidEd25519PublicKey issuer = true := by
  simp only [parseAsset] at parsed
  split at parsed
  · split at parsed
    · split at parsed
      · cases parsed
        nofun
      · cases parsed
    · split at parsed
      · exact parseIssued_valid parsed
      · cases parsed
  · cases parsed
    nofun

theorem parseAsset_value {asset : Asset} (valid : ∀ code issuer, asset = .issued code issuer →
    platform.isValidEd25519PublicKey issuer = true) :
    parseAsset platform asset.value = .ok asset := by
  cases asset with
  | native => simp [parseAsset, Asset.value, Value.isTruthy]
  | issued code issuer =>
    simp [parseAsset, parseIssued, Asset.value, Value.isTruthy, Value.isTypeofObject, Value.get,
      valid code issuer rfl]

@[simp] theorem stringOf_optional (text : Option String) : stringOf (optional text) = text := by
  cases text <;> rfl

theorem parseMemoType_optional (memoType : Option MemoType) :
    parseMemoType (optional (memoType.map MemoType.string)) = .ok memoType := by
  rw [parseMemoType, stringOf_optional]
  cases memoType with
  | none => rfl
  | some kind => cases kind <;> simp [MemoType.string, memoTypes]

theorem checkMemo_ok {memo : Option String} {memoType : Option MemoType} :
    checkMemo memo memoType = .ok () ↔
      ∀ text ∈ memo, memoType.getD .text = .text → text.utf8ByteSize ≤ 28 := by
  cases memo with
  | none => exact iff_of_true rfl nofun
  | some text =>
    simp only [checkMemo, Option.mem_def, Option.some.injEq, forall_eq']
    split
    · rename_i long
      exact iff_of_false nofun fun short => absurd (short long.1) (Nat.not_le.mpr long.2)
    · rename_i short
      exact iff_of_true rfl fun isText => Nat.not_lt.mp fun long => short ⟨isText, long⟩

end Parts

/-! ## The requests that are returned -/

section Returned

variable {platform : Platform} {payload : Value} {request : PaymentRequest}

theorem bind_eq_ok {α β : Type} {action : Parsed α} {next : α → Parsed β} {value : β} :
    action >>= next = .ok value ↔ ∃ result, action = .ok result ∧ next result = .ok value := by
  cases action with
  | ok result => simp [Bind.bind, Except.bind]
  | error error => simp [Bind.bind, Except.bind]

theorem parsePaymentRequest_sound (parsed : parsePaymentRequest platform payload = .ok request) :
    WellFormed platform request ∧ ∃ numeral : Numeral, numeral.text = request.amount.toList ∧
      numeral.Canonical ∧ numeral.fractional.length ≤ 7 ∧ 0 < numeral.value := by
  rw [parsePaymentRequest] at parsed
  split at parsed
  · cases parsed
  · simp only [bind_eq_ok] at parsed
    obtain ⟨destination, isDestination, amount, isAmount, asset, isAsset, memoType, -, _, checked,
      returned⟩ := parsed
    cases returned
    obtain ⟨normal, numeral⟩ := parseAmount_normal isAmount
    refine ⟨⟨(parseDestination_ok.mp isDestination).2, normal, parseAsset_valid isAsset,
      ?_, ?_, ?_⟩, numeral⟩
    · simp [Option.filter_eq_some_iff]
    · intro memo kept
      have given := (Option.filter_eq_some_iff.mp kept).1
      exact checkMemo_ok.mp checked memo given
    · intro extra kept
      obtain ⟨isObject, same⟩ := Option.ite_none_right_eq_some.mp kept
      cases same
      exact Bool.and_eq_true_iff.mp isObject

theorem parsePaymentRequest_complete (wellFormed : WellFormed platform request) :
    parsePaymentRequest platform request.payload = .ok request := by
  have amount : parseAmount platform (.string request.amount) = .ok request.amount :=
    normalizeText_ok.mpr wellFormed.amount
  have destination : parseDestination platform (.string request.destination) =
      .ok request.destination := parseDestination_ok.mpr ⟨rfl, wellFormed.destination⟩
  have memo : checkMemo request.memo request.memoType = .ok () :=
    checkMemo_ok.mpr wellFormed.memoLength
  have extra : (if (request.extra.getD .undefined).isTruthy &&
      (request.extra.getD .undefined).isTypeofObject then some (request.extra.getD .undefined)
      else none) = request.extra := by
    cases given : request.extra with
    | none => rfl
    | some extra =>
      obtain ⟨truthy, isObject⟩ := wellFormed.extra extra given
      simp [truthy, isObject]
  have filled : request.memo.filter (· ≠ "") = request.memo := by
    cases given : request.memo with
    | none => rfl
    | some text =>
      have nonempty : text ≠ "" := fun empty => wellFormed.memo (empty ▸ given)
      simp [nonempty]
  have isObject : ¬ (!request.payload.isTruthy || !request.payload.isTypeofObject) = true := nofun
  have given : stringOf (request.payload.get "memo") = request.memo := stringOf_optional _
  have label : stringOf (request.payload.get "label") = request.label := stringOf_optional _
  have message : stringOf (request.payload.get "message") = request.message := stringOf_optional _
  have callbackUrl : stringOf (request.payload.get "callbackUrl") = request.callbackUrl :=
    stringOf_optional _
  have extraGiven : request.payload.get "extra" = request.extra.getD .undefined := rfl
  rw [parsePaymentRequest, if_neg isObject]
  simp only [bind_eq_ok]
  refine ⟨_, destination, _, amount, _, parseAsset_value wellFormed.issuer, _,
    parseMemoType_optional _, (), by rw [given]; exact memo, ?_⟩
  rw [given, label, message, callbackUrl, extraGiven, filled, extra]
  rfl

end Returned

/-- What is returned is well formed, with an amount in its normal form, and returned again for
itself; and every well-formed request is returned for some payload. -/
theorem parsed_requests (platform : Platform) :
    (∀ payload request, parsePaymentRequest platform payload = .ok request →
      parsePaymentRequest platform request.payload = .ok request ∧
        ∃ numeral : Numeral, numeral.text = request.amount.toList ∧ numeral.Canonical ∧
          numeral.fractional.length ≤ 7 ∧ 0 < numeral.value) ∧
      ∀ request, (∃ payload, parsePaymentRequest platform payload = .ok request) ↔
        WellFormed platform request := by
  constructor
  · intro payload request parsed
    obtain ⟨wellFormed, numeral⟩ := parsePaymentRequest_sound parsed
    exact ⟨parsePaymentRequest_complete wellFormed, numeral⟩
  · intro request
    constructor
    · rintro ⟨payload, parsed⟩
      exact (parsePaymentRequest_sound parsed).1
    · exact fun wellFormed => ⟨request.payload, parsePaymentRequest_complete wellFormed⟩

end Ancore.Wallet.PaymentRequests
