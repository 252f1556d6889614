import Ancore.Account.SessionKeys
import Ancore.Library.Doubles
import Ancore.Library.EcmaScript

/-! # Session key policies, in the client and in the contract

`validateSessionKeyPolicy` of the account-abstraction package is to catch what
`add_session_key` refuses.  It knows neither the widths of the contract's integers nor
the texts of addresses.
-/

namespace Ancore.Account.Policies

open Ancore.Library Ancore.Library.EcmaScript Ancore.Soroban

/-! ## The client -/

/-- A number: an integer, or what is none. -/
inductive Number where
  | integer (value : Int)
  | other
  deriving DecidableEq

inductive PolicyAmount where
  | bigint (value : Int)
  | number (value : Number)
  | string (text : String)

/-- A policy whose permissions are a list. -/
structure SessionKeyPolicy where
  expiresAt : Int
  permissions : List Number
  maxAmountPerCall : Option PolicyAmount
  cumulativeLimit : Option PolicyAmount
  spendWindowSeconds : Option Number
  allowedContracts : Option (List String)

inductive AmountField where
  | maxAmountPerCall
  | cumulativeLimit
  deriving DecidableEq

/-- The errors, by their code, the field and what their message tells. -/
inductive PolicyError where
  | invalidExpiresAt
  | expired
  | unknownPermission (permission : Number)
  | duplicatePermission (permission : Number)
  | invalidAmount (field : AmountField)
  | negativeSpendWindow
  | spendWindowRequiresLimit
  | limitRequiresSpendWindow
  | invalidAllowedContract (contractId : String)
  deriving DecidableEq

/-- `Date.now()`, in the range of a time value and not before 1970. -/
structure TimeValue where
  milliseconds : Nat
  bounded : milliseconds ≤ 8640000000000000

/-- The time of the ledger. -/
def TimeValue.seconds (now : TimeValue) : Nat := now.milliseconds / 1000

def TimeValue.timestamp (now : TimeValue) : UInt64 := UInt64.ofNat now.seconds

def validPermissions : List Number := [.integer 0, .integer 1, .integer 2]

/-- `BigInt(text)` of a text that matches `/^-?\d+$/` -/
def integerOfText : List Char → Option Int
  | '-' :: digits =>
    if digits ≠ [] ∧ digits.all Char.isDigit then some (-(Nat.ofDigitChars 10 digits 0 : Int))
    else none
  | digits =>
    if digits ≠ [] ∧ digits.all Char.isDigit then some (Nat.ofDigitChars 10 digits 0 : Int)
    else none

def toBigInt : PolicyAmount → Option Int
  | .bigint value => some value
  | .number (.integer value) => some value
  | .number .other => none
  | .string text => integerOfText (trim text).toList

/-- Seconds as they are, and milliseconds above `1e11` by `Math.floor` of a thousandth. -/
def expiresAtSec (expiresAt : Int) : Int :=
  if 10 ^ 11 < expiresAt then ⌊Double.quotient expiresAt.toNat 1000⌋ else expiresAt

def expiryErrors (expiresAt : Int) (now : TimeValue) : List PolicyError :=
  if expiresAtSec expiresAt ≤ 0 then [.invalidExpiresAt]
  else if (expiresAtSec expiresAt : ℚ) ≤ Double.quotient now.milliseconds 1000 then [.expired]
  else []

/-- The loop over the permissions: one unknown and one duplicate permission are reported. -/
def permissionErrors (seen : List Number) (unknownReported duplicateReported : Bool) :
    List Number → List PolicyError
  | [] => []
  | permission :: permissions =>
    if permission ∉ validPermissions then
      (if unknownReported then [] else [.unknownPermission permission]) ++
        permissionErrors seen true duplicateReported permissions
    else if permission ∈ seen ∧ duplicateReported = false then
      .duplicatePermission permission ::
        permissionErrors (permission :: seen) unknownReported true permissions
    else permissionErrors (permission :: seen) unknownReported duplicateReported permissions

/-- `checkAmount` -/
def amountErrors (field : AmountField) : Option PolicyAmount → List PolicyError
  | none => []
  | some raw =>
    match toBigInt raw with
    | none => [.invalidAmount field]
    | some amount => if amount ≤ 0 then [.invalidAmount field] else []

def windowErrors (window : Option Number) (hasLimit : Bool) : List PolicyError :=
  match window with
  | none => if hasLimit then [.limitRequiresSpendWindow] else []
  | some .other => [.negativeSpendWindow]
  | some (.integer seconds) =>
    if seconds < 0 then [.negativeSpendWindow]
    else if 0 < seconds ∧ hasLimit = false then [.spendWindowRequiresLimit]
    else if seconds = 0 ∧ hasLimit = true then [.limitRequiresSpendWindow]
    else []

/-- `/^C[A-Z0-9]\x7b55\x7d$/` -/
def isContractId (contractId : List Char) : Bool :=
  match contractId with
  | 'C' :: letters =>
    letters.length = 55 && letters.all fun letter =>
      ('A' ≤ letter && letter ≤ 'Z') || ('0' ≤ letter && letter ≤ '9')
  | _ => false

def allowedContractErrors (contractIds : List String) : List PolicyError :=
  contractIds.flatMap fun contractId =>
    if isContractId contractId.toList then [] else [.invalidAllowedContract contractId]

/-- The errors; the policy is valid where there is none. -/
def validateSessionKeyPolicy (policy : SessionKeyPolicy) (now : TimeValue) : List PolicyError :=
  expiryErrors policy.expiresAt now ++
    permissionErrors [] false false policy.permissions ++
    amountErrors .maxAmountPerCall policy.maxAmountPerCall ++
    amountErrors .cumulativeLimit policy.cumulativeLimit ++
    windowErrors policy.spendWindowSeconds policy.cumulativeLimit.isSome ++
    (policy.allowedContracts.elim [] allowedContractErrors)

/-! ## The contract -/

/-- The checks that `add_session_key` makes of its arguments, at a time. -/
def validateRegistration (request : SessionKeyRequest) (timestamp : UInt64) :
    Except ContractError Unit :=
  if request.expiresAt = 0 then .error .invalidExpiration
  else do
    validateSpendPolicy request.maxAmountPerCall request.cumulativeLimit request.spendWindowSeconds
    if request.permissions.length > permissionBufferLength then .error .insufficientPermission
    else do
      validatePermissions request.permissions
      rejectZeroAllowedContracts request.allowedContracts
      let expiresAtSecs ← normalizeExpiryTimestamp request.expiresAt
      validateExpiry expiresAtSecs timestamp

theorem bind_eq_ok_iff {α β : Type} {action : Except ContractError α}
    {next : α → Except ContractError β} {value : β} :
    action >>= next = .ok value ↔ ∃ first, action = .ok first ∧ next first = .ok value := by
  cases action with
  | error error => exact iff_of_false nofun fun ⟨_, same, _⟩ => nomatch same
  | ok first =>
    exact ⟨fun rest => ⟨first, rfl, rest⟩, fun ⟨_, same, rest⟩ => Except.ok.inj same ▸ rest⟩

theorem validateRegistration_ok {request : SessionKeyRequest} {timestamp : UInt64} :
    validateRegistration request timestamp = .ok () ↔
      request.expiresAt ≠ 0 ∧
      validateSpendPolicy request.maxAmountPerCall request.cumulativeLimit
        request.spendWindowSeconds = .ok () ∧
      request.permissions.length ≤ permissionBufferLength ∧
      validatePermissions request.permissions = .ok () ∧
      rejectZeroAllowedContracts request.allowedContracts = .ok () ∧
      ∃ expiresAtSecs, normalizeExpiryTimestamp request.expiresAt = .ok expiresAtSecs ∧
        validateExpiry expiresAtSecs timestamp = .ok () := by
  have unit {motive : Unit → Prop} : (∃ first, motive first) ↔ motive () := Unique.exists_iff
  rw [validateRegistration]
  by_cases zero : request.expiresAt = 0
  · simp [zero]
  · rw [if_neg zero, bind_eq_ok_iff, unit]
    refine Iff.trans (and_congr_right fun _ => ?_) (and_iff_right zero).symm
    by_cases long : request.permissions.length > permissionBufferLength
    · rw [if_pos long]
      exact iff_of_false nofun fun accepted => by omega
    · rw [if_neg long, bind_eq_ok_iff, unit, bind_eq_ok_iff, unit, bind_eq_ok_iff]
      exact (and_iff_right (Nat.le_of_not_lt long)).symm

/-- What is checked of the arguments is what a registration takes, besides the owner's word for
    a key that is not stored. -/
theorem addSessionKey_ok_iff {request : SessionKeyRequest} {env : Env}
    {frame : Frame Storage PublicKey Event} :
    (∃ done, addSessionKey request env frame = .ok done) ↔
      validateRegistration request env.timestamp = .ok () ∧
        (∃ owner, OwnerAuthority env frame.storage owner) ∧
        frame.storage.sessionKey request.publicKey = none := by
  rw [validateRegistration_ok]
  constructor
  · rintro ⟨done, registered⟩
    obtain ⟨nonzero, policy, owner, authority, short, permissions, allowed, fresh, expiry,
      normalized, later, -⟩ := addSessionKey_ok.mp registered
    exact ⟨⟨nonzero, policy, short, permissions, allowed, expiry, normalized, later⟩,
      ⟨owner, authority⟩, fresh⟩
  · rintro ⟨⟨nonzero, policy, short, permissions, allowed, expiry, normalized, later⟩,
      ⟨owner, authority⟩, fresh⟩
    exact ⟨_, addSessionKey_ok.mpr ⟨nonzero, policy, owner, authority, short, permissions,
      allowed, fresh, expiry, normalized, later, rfl⟩⟩

/-! ## Encoded policies -/

/-- The text of an address. -/
def addressText (address : Address) : String := String.ofList address.toStrkey

def EncodesAmount : Option PolicyAmount → Option Int128 → Prop
  | none, none => True
  | some raw, some amount => toBigInt raw = some amount.val
  | _, _ => False

/-- The arguments that say what the policy says. -/
structure Encodes (policy : SessionKeyPolicy) (request : SessionKeyRequest) : Prop where
  expiresAt : policy.expiresAt = request.expiresAt.toNat
  permissions : policy.permissions =
    request.permissions.map fun permission => .integer permission.toNat
  maxAmountPerCall : EncodesAmount policy.maxAmountPerCall request.maxAmountPerCall
  cumulativeLimit : EncodesAmount policy.cumulativeLimit request.cumulativeLimit
  spendWindowSeconds : policy.spendWindowSeconds.getD (.integer 0) =
    .integer request.spendWindowSeconds.toNat
  allowedContracts : policy.allowedContracts =
    request.allowedContracts.map (·.map addressText)

/-- The contract would register the policy. -/
def Registrable (policy : SessionKeyPolicy) (now : TimeValue) : Prop :=
  ∃ request, Encodes policy request ∧ validateRegistration request now.timestamp = .ok ()

/-! ## The rules -/

section Rules

variable (policy : SessionKeyPolicy) (now : TimeValue)

def PositiveAmount (amount : Option PolicyAmount) : Prop :=
  ∀ raw ∈ amount, ∃ value, toBigInt raw = some value ∧ 0 < value

/-- A window where there is a limit, and none where there is none. -/
def WindowMatches (window : Option Number) (hasLimit : Bool) : Prop :=
  if hasLimit then ∃ seconds, window = some (.integer seconds) ∧ 0 < seconds
  else window.getD (.integer 0) = .integer 0

/-- The rules that both sides have. -/
structure Sound : Prop where
  known : ∀ permission ∈ policy.permissions, permission ∈ validPermissions
  distinct : policy.permissions.Nodup
  maxAmountPerCall : PositiveAmount policy.maxAmountPerCall
  cumulativeLimit : PositiveAmount policy.cumulativeLimit
  window : WindowMatches policy.spendWindowSeconds policy.cumulativeLimit.isSome

/-- `1e11` itself counts as seconds. -/
def UnexpiredInClient : Prop :=
  (now.seconds : Int) < if 10 ^ 11 < policy.expiresAt then policy.expiresAt / 1000
    else policy.expiresAt

/-- `1e11` itself counts as milliseconds. -/
def UnexpiredInContract : Prop :=
  (now.seconds : Int) < if 10 ^ 11 ≤ policy.expiresAt then policy.expiresAt / 1000
    else policy.expiresAt

instance : Decidable (UnexpiredInClient policy now) := inferInstanceAs (Decidable (_ < _))

instance : Decidable (UnexpiredInContract policy now) := inferInstanceAs (Decidable (_ < _))

def AmountFits (amount : Option PolicyAmount) : Prop :=
  ∀ raw ∈ amount, ∀ value ∈ toBigInt raw, value < 2 ^ 127

/-- The integers have the widths of the contract. -/
structure Fits : Prop where
  expiresAt : policy.expiresAt < 2 ^ 64
  maxAmountPerCall : AmountFits policy.maxAmountPerCall
  cumulativeLimit : AmountFits policy.cumulativeLimit
  spendWindowSeconds : ∀ seconds, policy.spendWindowSeconds = some (.integer seconds) →
    seconds < 2 ^ 64

/-- The text of an address that may be allowed. -/
def NamesAddress (text : String) : Prop :=
  ∃ address, text = addressText address ∧
    validateAllowedContractAddress address.toStrkey = .ok ()

def Allowable : Prop :=
  ∀ texts ∈ policy.allowedContracts, texts.length ≤ maxAllowedContracts ∧
    ∀ text ∈ texts, NamesAddress text

/-- Texts that look like those of contracts. -/
def LooksAllowable : Prop :=
  ∀ texts ∈ policy.allowedContracts, ∀ text ∈ texts, isContractId text.toList = true

/-- The client has nothing against what the contract refuses. -/
structure Overlooked : Prop where
  unexpired : UnexpiredInClient policy now
  looksAllowable : LooksAllowable policy
  refused : ¬ Fits policy ∨ ¬ Allowable policy ∨
    policy.expiresAt = 10 ^ 11 ∧ 10 ^ 8 ≤ now.seconds

/-- The client refuses the account on an allowlist that the contract would take. -/
structure Overruled : Prop where
  unexpired : UnexpiredInContract policy now
  fits : Fits policy
  allowable : Allowable policy
  account : ∃ texts ∈ policy.allowedContracts, ∃ key, addressText (.account key) ∈ texts

end Rules

/-! ## What the client accepts -/

section Client

variable {policy : SessionKeyPolicy} {now : TimeValue}

theorem seconds_bounds (now : TimeValue) :
    (now.seconds : ℚ) ≤ Double.quotient now.milliseconds 1000 ∧
      Double.quotient now.milliseconds 1000 < (now.seconds + 1 : Nat) := by
  have bounded := now.bounded
  have split : now.seconds = now.milliseconds / 1000 := rfl
  constructor
  · refine not_lt.mp fun less => ?_
    have := (Double.quotient_lt_iff (by omega)).mp less
    omega
  · exact (Double.quotient_lt_iff (by omega)).mpr (by omega)

/-- A whole number of seconds is compared with the time as with its seconds. -/
theorem le_now_iff (seconds : Int) :
    (seconds : ℚ) ≤ Double.quotient now.milliseconds 1000 ↔ seconds ≤ now.seconds := by
  obtain ⟨low, high⟩ := seconds_bounds now
  constructor
  · intro early
    have less : (seconds : ℚ) < ((now.seconds + 1 : Nat) : ℤ) := by
      rw [Int.cast_natCast]
      exact early.trans_lt high
    have := Int.cast_lt.mp less
    omega
  · intro early
    have same : ((now.seconds : ℤ) : ℚ) = now.seconds := Int.cast_natCast _
    exact (Int.cast_le.mpr early).trans (same.trans_le low)

theorem lt_expiresAtSec_iff (expiresAt : Int) :
    (now.seconds : Int) < expiresAtSec expiresAt ↔
      (now.seconds : Int) < if 10 ^ 11 < expiresAt then expiresAt / 1000 else expiresAt := by
  have bounded := now.bounded
  have seconds : now.seconds = now.milliseconds / 1000 := rfl
  rw [expiresAtSec]
  split
  · have whole : ⌊Double.quotient expiresAt.toNat 1000⌋ < ((now.seconds + 1 : Nat) : ℤ) ↔
        Double.quotient expiresAt.toNat 1000 < (now.seconds + 1 : Nat) := by
      rw [Int.floor_lt, Int.cast_natCast]
    have less := @Double.quotient_lt_iff expiresAt.toNat (now.seconds + 1) (by omega)
    have compared := whole.trans less
    omega
  · rfl

theorem expiryErrors_eq_nil : expiryErrors policy.expiresAt now = [] ↔
    UnexpiredInClient policy now := by
  rw [expiryErrors, UnexpiredInClient, ← lt_expiresAtSec_iff]
  have compared := @le_now_iff now (expiresAtSec policy.expiresAt)
  split
  · refine iff_of_false nofun ?_
    omega
  · split
    · rename_i early
      refine iff_of_false nofun ?_
      have := compared.mp early
      omega
    · rename_i late
      refine iff_of_true rfl ?_
      have := mt compared.mpr late
      omega

/-- No error is reported of permissions that are known, distinct and not seen before. -/
theorem permissionErrors_eq_nil {seen permissions : List Number} :
    permissionErrors seen false false permissions = [] ↔
      (∀ permission ∈ permissions, permission ∈ validPermissions) ∧ permissions.Nodup ∧
        ∀ permission ∈ permissions, permission ∉ seen := by
  induction permissions generalizing seen with
  | nil => simp [permissionErrors]
  | cons permission permissions inductionHypothesis =>
    rw [permissionErrors]
    split
    · rename_i unknown
      refine iff_of_false nofun fun accepted => ?_
      exact unknown (accepted.1 permission List.mem_cons_self)
    · rename_i known
      split
      · rename_i duplicate
        refine iff_of_false nofun fun accepted => ?_
        exact accepted.2.2 permission List.mem_cons_self duplicate.1
      · rename_i first
        have fresh : permission ∉ seen := fun member => first ⟨member, rfl⟩
        rw [inductionHypothesis]
        rw [List.forall_mem_cons, List.forall_mem_cons, List.nodup_cons]
        simp only [List.mem_cons, not_or]
        constructor
        · rintro ⟨valid, distinct, unseen⟩
          exact ⟨⟨not_not.mp known, valid⟩,
            ⟨fun member => (unseen permission member).1 rfl, distinct⟩, fresh,
            fun later member => (unseen later member).2⟩
        · rintro ⟨⟨-, valid⟩, ⟨single, distinct⟩, -, unseen⟩
          exact ⟨valid, distinct, fun later member =>
            ⟨fun same => single (same ▸ member), unseen later member⟩⟩

theorem amountErrors_eq_nil {field : AmountField} {amount : Option PolicyAmount} :
    amountErrors field amount = [] ↔ PositiveAmount amount := by
  cases amount with
  | none => exact iff_of_true rfl nofun
  | some raw =>
    have single : PositiveAmount (some raw) ↔ ∃ value, toBigInt raw = some value ∧ 0 < value :=
      ⟨fun positive => positive raw rfl, fun positive _ same => Option.some.inj same ▸ positive⟩
    rw [single, amountErrors]
    cases toBigInt raw with
    | none => exact iff_of_false nofun nofun
    | some value => by_cases small : value ≤ 0 <;> simp [small]; omega

theorem windowErrors_eq_nil {window : Option Number} {hasLimit : Bool} :
    windowErrors window hasLimit = [] ↔ WindowMatches window hasLimit := by
  cases window with
  | none => cases hasLimit <;> simp [windowErrors, WindowMatches]
  | some number =>
    cases number with
    | other => cases hasLimit <;> simp [windowErrors, WindowMatches]
    | integer seconds =>
      rcases lt_trichotomy seconds 0 with negative | rfl | positive
      · cases hasLimit <;> simp [windowErrors, WindowMatches, negative, negative.ne, negative.le]
      · cases hasLimit <;> simp [windowErrors, WindowMatches]
      · cases hasLimit <;>
          simp [windowErrors, WindowMatches, positive, positive.ne', positive.not_gt]

theorem allowedContractErrors_eq_nil :
    policy.allowedContracts.elim [] allowedContractErrors = [] ↔ LooksAllowable policy := by
  rw [LooksAllowable]
  cases policy.allowedContracts with
  | none => simp
  | some texts => simp [allowedContractErrors]

theorem validateSessionKeyPolicy_eq_nil :
    validateSessionKeyPolicy policy now = [] ↔
      Sound policy ∧ UnexpiredInClient policy now ∧ LooksAllowable policy := by
  simp only [validateSessionKeyPolicy, List.append_eq_nil_iff, expiryErrors_eq_nil,
    permissionErrors_eq_nil, amountErrors_eq_nil, windowErrors_eq_nil,
    allowedContractErrors_eq_nil]
  constructor
  · rintro ⟨⟨⟨⟨⟨unexpired, known, distinct, -⟩, perCall⟩, limit⟩, window⟩, allowable⟩
    exact ⟨⟨known, distinct, perCall, limit, window⟩, unexpired, allowable⟩
  · rintro ⟨⟨known, distinct, perCall, limit, window⟩, unexpired, allowable⟩
    exact ⟨⟨⟨⟨⟨unexpired, known, distinct, nofun⟩, perCall⟩, limit⟩, window⟩, allowable⟩

end Client

/-! ## What the contract accepts -/

section Registration

variable {policy : SessionKeyPolicy} {now : TimeValue}

theorem permissionIndex_eq_some {permission : UInt32} {index : Fin 3} :
    permissionIndex permission = some index ↔ permission.toNat = index := by
  have send : permission = permissionSendPayment ↔ permission.toNat = 0 := UInt32.toNat_inj.symm
  have execute : permission = permissionExecute ↔ permission.toNat = 1 := UInt32.toNat_inj.symm
  have invoke : permission = permissionInvokeContract ↔ permission.toNat = 2 :=
    UInt32.toNat_inj.symm
  rw [permissionIndex]
  simp only [send, execute, invoke]
  fin_cases index <;> split_ifs <;> simp <;> omega

/-- Every permission finds its slot, and finds it empty. -/
theorem checkPermissions_ok {seen : Fin 3 → Bool} {permissions : List UInt32} :
    checkPermissions seen permissions = .ok () ↔
      (∀ permission ∈ permissions, ∃ index, permissionIndex permission = some index ∧
        seen index = false) ∧ permissions.Nodup := by
  induction permissions generalizing seen with
  | nil => simp [checkPermissions]
  | cons permission permissions inductionHypothesis =>
    rw [checkPermissions, List.forall_mem_cons, List.nodup_cons]
    cases slot : permissionIndex permission with
    | none => exact iff_of_false nofun (by simp)
    | some index =>
      cases taken : seen index with
      | true => simp [taken]
      | false =>
        have slotOf (other : UInt32) : (∃ index', permissionIndex other = some index' ∧
            Function.update seen index true index' = false) ↔
              other ≠ permission ∧ ∃ index', permissionIndex other = some index' ∧
                seen index' = false := by
          constructor
          · rintro ⟨index', found, empty⟩
            by_cases same : index' = index
            · rw [same, Function.update_self] at empty
              cases empty
            · rw [Function.update_of_ne same] at empty
              refine ⟨?_, index', found, empty⟩
              rintro rfl
              exact same (Option.some.inj (found.symm.trans slot))
          · rintro ⟨differs, index', found, empty⟩
            have same : index' ≠ index := by
              rintro rfl
              refine differs (UInt32.toNat_inj.mp ?_)
              rw [permissionIndex_eq_some.mp found, permissionIndex_eq_some.mp slot]
            exact ⟨index', found, by rw [Function.update_of_ne same, empty]⟩
        simp only [taken, Bool.false_eq_true, if_false, inductionHypothesis, slotOf]
        constructor
        · rintro ⟨rest, distinct⟩
          exact ⟨⟨⟨index, rfl, taken⟩, fun other member => (rest other member).2⟩,
            fun member => (rest permission member).1 rfl, distinct⟩
        · rintro ⟨⟨-, rest⟩, single, distinct⟩
          exact ⟨fun other member => ⟨fun same => single (same ▸ member), rest other member⟩,
            distinct⟩

theorem known_iff {permission : UInt32} :
    (∃ index, permissionIndex permission = some index) ↔
      Number.integer permission.toNat ∈ validPermissions := by
  simp only [permissionIndex_eq_some, validPermissions, List.mem_cons, List.not_mem_nil, or_false,
    Number.integer.injEq]
  constructor
  · rintro ⟨index, same⟩
    omega
  · intro known
    exact ⟨⟨permission.toNat, by omega⟩, rfl⟩

theorem validatePermissions_ok {permissions : List UInt32} :
    validatePermissions permissions = .ok () ↔
      (∀ permission ∈ permissions, Number.integer permission.toNat ∈ validPermissions) ∧
        permissions.Nodup := by
  simp only [validatePermissions, checkPermissions_ok, and_true, known_iff]

theorem AmountFits.of_encodes {raw : Option PolicyAmount} {amount : Option Int128}
    (encodes : EncodesAmount raw amount) : AmountFits raw := by
  intro given same value read
  cases same
  cases amount with
  | none => cases encodes
  | some amount =>
    have same : toBigInt given = some amount.val := encodes
    have upper := amount.upper
    rw [same] at read
    have := Option.some.inj read
    omega

theorem PositiveAmount.of_encodes {raw : Option PolicyAmount} {amount : Option Int128}
    (encodes : EncodesAmount raw amount) (positive : ∀ limit ∈ amount, 0 < limit.val) :
    PositiveAmount raw := by
  intro given same
  cases same
  cases amount with
  | none => cases encodes
  | some amount => exact ⟨amount.val, encodes, positive amount rfl⟩

theorem exists_encodesAmount {raw : Option PolicyAmount} (positive : PositiveAmount raw)
    (fits : AmountFits raw) :
    ∃ amount, EncodesAmount raw amount ∧ ∀ limit ∈ amount, 0 < limit.val := by
  cases raw with
  | none => exact ⟨none, trivial, by simp⟩
  | some given =>
    obtain ⟨value, read, more⟩ := positive given rfl
    have less := fits given rfl value read
    refine ⟨some ⟨value, by omega, by omega⟩, read, ?_⟩
    rintro limit same
    cases same
    exact more

theorem isSome_of_encodes {raw : Option PolicyAmount} {amount : Option Int128}
    (encodes : EncodesAmount raw amount) : raw.isSome = amount.isSome := by
  cases raw <;> cases amount <;> first | rfl | cases encodes

/-- Addresses are found for texts one by one. -/
theorem exists_map_addressText {texts : List String} :
    (∃ addresses : List Address, texts = addresses.map addressText ∧
        ∀ address ∈ addresses, validateAllowedContractAddress address.toStrkey = .ok ()) ↔
      ∀ text ∈ texts, NamesAddress text := by
  constructor
  · rintro ⟨addresses, rfl, valid⟩ text member
    obtain ⟨address, inside, rfl⟩ := List.mem_map.mp member
    exact ⟨address, rfl, valid address inside⟩
  · intro named
    induction texts with
    | nil => exact ⟨[], rfl, nofun⟩
    | cons text texts inductionHypothesis =>
      obtain ⟨address, rfl, valid⟩ := named text List.mem_cons_self
      obtain ⟨addresses, rfl, all⟩ :=
        inductionHypothesis fun text member => named text (List.mem_cons_of_mem _ member)
      exact ⟨address :: addresses, rfl, List.forall_mem_cons.mpr ⟨valid, all⟩⟩

theorem rejectZeroAddresses_ok {addresses : List Address} :
    rejectZeroAddresses addresses = .ok () ↔
      ∀ address ∈ addresses, validateAllowedContractAddress address.toStrkey = .ok () := by
  induction addresses with
  | nil => exact iff_of_true rfl nofun
  | cons address addresses inductionHypothesis =>
    have length := address.toStrkey_length
    rw [rejectZeroAddresses, List.forall_mem_cons]
    simp only [length]
    cases validateAllowedContractAddress address.toStrkey with
    | error error => exact iff_of_false nofun nofun
    | ok _ => simpa using inductionHypothesis

theorem rejectZeroAllowedContracts_ok {allowed : Option (List Address)} :
    rejectZeroAllowedContracts allowed = .ok () ↔
      ∀ addresses ∈ allowed, addresses.length ≤ maxAllowedContracts ∧
        ∀ address ∈ addresses, validateAllowedContractAddress address.toStrkey = .ok () := by
  cases allowed with
  | none => exact iff_of_true rfl nofun
  | some addresses =>
    rw [rejectZeroAllowedContracts]
    by_cases long : addresses.length > maxAllowedContracts
    · simp [long]
    · simp [long, rejectZeroAddresses_ok, Nat.le_of_not_lt long]

theorem timestamp_toNat : now.timestamp.toNat = now.seconds := by
  have bounded := now.bounded
  have small : now.seconds < 2 ^ 64 := by
    rw [TimeValue.seconds]
    omega
  exact UInt64.toNat_ofNat_of_lt' small

theorem unexpiredInContract_iff {request : SessionKeyRequest}
    (same : policy.expiresAt = request.expiresAt.toNat) :
    (request.expiresAt ≠ 0 ∧ ∃ expiresAtSecs,
        normalizeExpiryTimestamp request.expiresAt = .ok expiresAtSecs ∧
          validateExpiry expiresAtSecs now.timestamp = .ok ()) ↔
      UnexpiredInContract policy now := by
  have bound := request.expiresAt.toNat_lt
  have nonzero : request.expiresAt ≠ 0 ↔ request.expiresAt.toNat ≠ 0 := UInt64.toNat_inj.symm.not
  simp only [normalizeExpiryTimestamp_ok, validateExpiry_ok, UInt64.lt_iff_toNat_lt,
    timestamp_toNat, UnexpiredInContract, same, nonzero]
  constructor
  · rintro ⟨-, expiry, ⟨-, value⟩, later⟩
    split at value <;> split <;> omega
  · intro later
    have positive : request.expiresAt.toNat ≠ 0 := by
      split at later <;> omega
    refine ⟨positive, UInt64.ofNat (if 10 ^ 11 ≤ request.expiresAt.toNat then
      request.expiresAt.toNat / 1000 else request.expiresAt.toNat), ⟨positive, ?_⟩, ?_⟩
    · rw [UInt64.toNat_ofNat_of_lt']
      split <;> change _ < 2 ^ 64 <;> omega
    · rw [UInt64.toNat_ofNat_of_lt']
      · split at later <;> split <;> omega
      · split <;> change _ < 2 ^ 64 <;> omega

theorem window_of_encodes {window : Option Number} {seconds : UInt64} {hasLimit : Bool}
    (encodes : window.getD (.integer 0) = .integer seconds.toNat) :
    WindowMatches window hasLimit ↔ if hasLimit then seconds ≠ 0 else seconds = 0 := by
  have zero : seconds = 0 ↔ seconds.toNat = 0 := UInt64.toNat_inj.symm
  cases hasLimit with
  | false =>
    simp only [WindowMatches, Bool.false_eq_true, if_false, encodes, Number.integer.injEq, zero]
    omega
  | true =>
    simp only [WindowMatches, if_true]
    constructor
    · rintro ⟨given, rfl, positive⟩
      rw [Option.getD_some, Number.integer.injEq] at encodes
      rw [Ne, zero]
      omega
    · intro nonzero
      cases window with
      | none =>
        rw [Option.getD_none, Number.integer.injEq] at encodes
        rw [Ne, zero] at nonzero
        omega
      | some given =>
        rw [Option.getD_some] at encodes
        rw [Ne, zero] at nonzero
        exact ⟨seconds.toNat, by rw [encodes], by omega⟩

theorem exists_window {window : Option Number} {hasLimit : Bool}
    (matching : WindowMatches window hasLimit)
    (fits : ∀ seconds, window = some (.integer seconds) → seconds < 2 ^ 64) :
    ∃ seconds : UInt64, window.getD (.integer 0) = .integer seconds.toNat := by
  cases hasLimit with
  | false => exact ⟨0, matching⟩
  | true =>
    obtain ⟨seconds, rfl, positive⟩ := matching
    have below := fits seconds rfl
    refine ⟨UInt64.ofNat seconds.toNat, ?_⟩
    rw [UInt64.toNat_ofNat_of_lt' (by change _ < 2 ^ 64; omega), Option.getD_some,
      Number.integer.injEq]
    omega

theorem exists_permissions {permissions : List Number}
    (known : ∀ permission ∈ permissions, permission ∈ validPermissions) :
    ∃ values : List UInt32,
      permissions = values.map fun permission => .integer permission.toNat := by
  induction permissions with
  | nil => exact ⟨[], rfl⟩
  | cons permission permissions inductionHypothesis =>
    obtain ⟨first, rest⟩ := List.forall_mem_cons.mp known
    obtain ⟨values, same⟩ := inductionHypothesis rest
    have value : ∃ value : UInt32, permission = .integer value.toNat := by
      simp only [validPermissions, List.mem_cons, List.not_mem_nil, or_false] at first
      rcases first with rfl | rfl | rfl
      exacts [⟨0, rfl⟩, ⟨1, rfl⟩, ⟨2, rfl⟩]
    obtain ⟨value, rfl⟩ := value
    exact ⟨value :: values, by rw [List.map_cons, ← same]⟩

theorem registrable_iff : Registrable policy now ↔
    Sound policy ∧ UnexpiredInContract policy now ∧ Fits policy ∧ Allowable policy := by
  constructor
  · rintro ⟨request, encodes, registered⟩
    obtain ⟨nonzero, spend, -, permissions, allowed, expiry⟩ :=
      validateRegistration_ok.mp registered
    obtain ⟨perCall, limit, window⟩ := validateSpendPolicy_ok.mp spend
    obtain ⟨known, distinct⟩ := validatePermissions_ok.mp permissions
    refine ⟨⟨?_, ?_, .of_encodes encodes.maxAmountPerCall perCall,
      .of_encodes encodes.cumulativeLimit fun value given => (limit value given).1, ?_⟩,
      (unexpiredInContract_iff encodes.expiresAt).mp ⟨nonzero, expiry⟩,
      ⟨?_, .of_encodes encodes.maxAmountPerCall, .of_encodes encodes.cumulativeLimit, ?_⟩, ?_⟩
    · rw [encodes.permissions]
      rintro permission member
      obtain ⟨value, inside, rfl⟩ := List.mem_map.mp member
      exact known value inside
    · rw [encodes.permissions]
      refine distinct.map fun first second same => ?_
      rw [Number.integer.injEq, Nat.cast_inj] at same
      exact UInt32.toNat_inj.mp same
    · rw [window_of_encodes encodes.spendWindowSeconds, isSome_of_encodes encodes.cumulativeLimit]
      cases given : request.cumulativeLimit with
      | none => exact window given
      | some value => exact (limit value given).2
    · have bound := request.expiresAt.toNat_lt
      rw [encodes.expiresAt]
      omega
    · intro seconds given
      have same := encodes.spendWindowSeconds
      have bound := request.spendWindowSeconds.toNat_lt
      rw [given, Option.getD_some, Number.integer.injEq] at same
      omega
    · intro texts given
      rw [encodes.allowedContracts] at given
      obtain ⟨addresses, listed, rfl⟩ := Option.map_eq_some_iff.mp given
      obtain ⟨few, valid⟩ := rejectZeroAllowedContracts_ok.mp allowed addresses listed
      exact ⟨by rw [List.length_map]; exact few,
        exists_map_addressText.mp ⟨addresses, rfl, valid⟩⟩
  · rintro ⟨⟨known, distinct, perCall, limit, matching⟩, unexpired, fits, allowable⟩
    obtain ⟨maxAmountPerCall, perCallEncoded, perCallPositive⟩ :=
      exists_encodesAmount perCall fits.maxAmountPerCall
    obtain ⟨cumulativeLimit, limitEncoded, limitPositive⟩ :=
      exists_encodesAmount limit fits.cumulativeLimit
    obtain ⟨allowed, allowedEncoded, allowedValid⟩ : ∃ allowed : Option (List Address),
        policy.allowedContracts = allowed.map (·.map addressText) ∧
          rejectZeroAllowedContracts allowed = .ok () := by
      cases given : policy.allowedContracts with
      | none => exact ⟨none, rfl, rfl⟩
      | some texts =>
        obtain ⟨few, named⟩ := allowable texts given
        obtain ⟨addresses, rfl, valid⟩ := exists_map_addressText.mpr named
        rw [List.length_map] at few
        refine ⟨some addresses, rfl, rejectZeroAllowedContracts_ok.mpr ?_⟩
        rintro listed same
        cases same
        exact ⟨few, valid⟩
    obtain ⟨window, windowEncoded⟩ : ∃ window : UInt64,
        policy.spendWindowSeconds.getD (.integer 0) = .integer window.toNat :=
      exists_window matching fits.spendWindowSeconds
    obtain ⟨permissions, permissionsEncoded⟩ := exists_permissions known
    obtain ⟨expiresAt, expiresAtEncoded⟩ : ∃ expiresAt : UInt64,
        policy.expiresAt = expiresAt.toNat := by
      have below := fits.expiresAt
      have positive : 0 ≤ policy.expiresAt := by
        rw [UnexpiredInContract] at unexpired
        split at unexpired <;> omega
      refine ⟨UInt64.ofNat policy.expiresAt.toNat, ?_⟩
      rw [UInt64.toNat_ofNat_of_lt' (by change _ < 2 ^ 64; omega)]
      omega
    let request : SessionKeyRequest :=
      ⟨zeroBytes, expiresAt, permissions, allowed, maxAmountPerCall, cumulativeLimit, window⟩
    have encoded : policy.expiresAt = request.expiresAt.toNat := expiresAtEncoded
    obtain ⟨nonzero, expiry⟩ := (unexpiredInContract_iff encoded).mpr unexpired
    refine ⟨request, ⟨expiresAtEncoded, permissionsEncoded, perCallEncoded, limitEncoded,
        windowEncoded, allowedEncoded⟩, ?_⟩
    have few := (distinct.subperm known).length_le
    rw [permissionsEncoded, List.length_map] at few
    rw [permissionsEncoded] at known distinct
    have seconds := (window_of_encodes windowEncoded).mp matching
    rw [isSome_of_encodes limitEncoded] at seconds
    refine validateRegistration_ok.mpr ⟨nonzero, validateSpendPolicy_ok.mpr ⟨perCallPositive,
      fun value given => ⟨limitPositive value given, ?_⟩, fun given => ?_⟩,
      few.trans (by decide), validatePermissions_ok.mpr ⟨?_, distinct.of_map _⟩, allowedValid,
      expiry⟩
    · rw [show cumulativeLimit = some value from given] at seconds
      exact seconds
    · rw [show cumulativeLimit = none from given] at seconds
      exact seconds
    · exact fun value member => known _ (List.mem_map_of_mem member)

/-! ## Texts of contracts -/

def isBase32Letter (letter : Char) : Bool :=
  ('A' ≤ letter && letter ≤ 'Z') || ('0' ≤ letter && letter ≤ '9')

theorem isBase32Letter_base32Char (group : List Bool) :
    isBase32Letter (base32Char group) = true := by
  have all : base32Alphabet.all isBase32Letter = true := rfl
  rw [base32Char, List.getD_eq_getElem?_getD]
  cases found : base32Alphabet[group.foldl (fun value bit => 2 * value + bit.toNat) 0]? with
  | none => rfl
  | some letter => exact List.all_eq_true.mp all letter (List.mem_of_getElem? found)

theorem isBase32Letter_of_mem {input : List Bool} {letter : Char}
    (member : letter ∈ base32Groups input) : isBase32Letter letter = true := by
  induction input using base32Groups.induct with
  | case1 a b c d e rest inductionHypothesis =>
    rw [base32Groups] at member
    rcases List.mem_cons.mp member with rfl | member
    · exact isBase32Letter_base32Char _
    · exact inductionHypothesis member
  | case2 => cases member
  | case3 short long nonempty =>
    rw [base32Groups.eq_3 short long nonempty] at member
    rw [List.mem_singleton.mp member]
    exact isBase32Letter_base32Char _

theorem toStrkey_contract (id : BytesN 32) :
    ∃ rest, (Address.contract id).toStrkey = 'C' :: base32Groups rest := ⟨_, rfl⟩

theorem toStrkey_account (key : BytesN 32) :
    ∃ rest, (Address.account key).toStrkey = 'G' :: base32Groups rest := ⟨_, rfl⟩

/-- Among the texts of addresses those of contracts look like contracts. -/
theorem isContractId_toStrkey {address : Address} :
    isContractId address.toStrkey = true ↔ ∀ key, address ≠ .account key := by
  have length := address.toStrkey_length
  cases address with
  | account key =>
    obtain ⟨rest, same⟩ := toStrkey_account key
    rw [same]
    exact iff_of_false nofun fun none => none key rfl
  | contract id =>
    obtain ⟨rest, same⟩ := toStrkey_contract id
    rw [same] at length ⊢
    refine iff_of_true ?_ nofun
    have letters : (base32Groups rest).all isBase32Letter = true :=
      List.all_eq_true.mpr fun _ => isBase32Letter_of_mem
    have fiftyFive : (base32Groups rest).length = 55 := by
      rw [List.length_cons] at length
      omega
    rw [isContractId, Bool.and_eq_true, decide_eq_true_iff]
    exact ⟨fiftyFive, letters⟩

theorem looksAllowable_iff (allowable : Allowable policy) :
    LooksAllowable policy ↔
      ¬ ∃ texts ∈ policy.allowedContracts, ∃ key, addressText (.account key) ∈ texts := by
  have toList (address : Address) : (addressText address).toList = address.toStrkey :=
    String.toList_ofList
  constructor
  · rintro looks ⟨texts, given, key, member⟩
    have same := looks texts given _ member
    rw [toList] at same
    exact isContractId_toStrkey.mp same key rfl
  · intro free texts given text member
    obtain ⟨address, rfl, -⟩ := (allowable texts given).2 text member
    rw [toList]
    refine isContractId_toStrkey.mpr ?_
    rintro key rfl
    exact free ⟨texts, given, key, member⟩

/-- The client mirrors the contract exactly where it overlooks nothing and overrules nothing. -/
theorem policy_mirrored_iff :
    (validateSessionKeyPolicy policy now = [] ↔ Registrable policy now) ↔
      ¬ (Sound policy ∧ (Overlooked policy now ∨ Overruled policy now)) := by
  rw [validateSessionKeyPolicy_eq_nil, registrable_iff]
  have later : UnexpiredInContract policy now → UnexpiredInClient policy now := by
    rw [UnexpiredInContract, UnexpiredInClient]
    intro later
    split at later <;> split <;> omega
  have between : UnexpiredInClient policy now → ¬ UnexpiredInContract policy now →
      policy.expiresAt = 10 ^ 11 ∧ 10 ^ 8 ≤ now.seconds := by
    rw [UnexpiredInContract, UnexpiredInClient]
    intro client contract
    split at client <;> split at contract <;> omega
  constructor
  · rintro mirrored ⟨sound, overlooked | overruled⟩
    · obtain ⟨-, unexpired, fits, allowable⟩ :=
        mirrored.mp ⟨sound, overlooked.unexpired, overlooked.looksAllowable⟩
      rcases overlooked.refused with refused | refused | ⟨boundary, seconds⟩
      · exact refused fits
      · exact refused allowable
      · rw [UnexpiredInContract, boundary, if_pos le_rfl] at unexpired
        omega
    · obtain ⟨-, -, looks⟩ := mirrored.mpr
        ⟨sound, overruled.unexpired, overruled.fits, overruled.allowable⟩
      exact (looksAllowable_iff overruled.allowable).mp looks overruled.account
  · intro mirrored
    constructor
    · rintro ⟨sound, unexpired, looks⟩
      by_contra refused
      refine mirrored ⟨sound, .inl ⟨unexpired, looks, ?_⟩⟩
      by_cases fits : Fits policy
      · by_cases allowable : Allowable policy
        · refine .inr (.inr (between unexpired fun contract => ?_))
          exact refused ⟨sound, contract, fits, allowable⟩
        · exact .inr (.inl allowable)
      · exact .inl fits
    · rintro ⟨sound, unexpired, fits, allowable⟩
      refine ⟨sound, later unexpired, (looksAllowable_iff allowable).mpr fun account => ?_⟩
      exact mirrored ⟨sound, .inr ⟨unexpired, fits, allowable, account⟩⟩

/-- A payment key that expires at `1e11`. -/
def boundaryPolicy : SessionKeyPolicy where
  expiresAt := 100000000000
  permissions := [.integer 0]
  maxAmountPerCall := none
  cumulativeLimit := none
  spendWindowSeconds := none
  allowedContracts := none

def january2027 : TimeValue := ⟨1800000000000, by decide⟩

/-- The client reads seconds of the year 5138, and the contract milliseconds of the year 1973. -/
theorem boundary_misread :
    validateSessionKeyPolicy boundaryPolicy january2027 = [] ∧
      ¬ Registrable boundaryPolicy january2027 := by
  constructor
  · have shared : Sound boundaryPolicy := ⟨by decide, by decide, nofun, nofun, rfl⟩
    exact validateSessionKeyPolicy_eq_nil.mpr ⟨shared, by decide, nofun⟩
  · intro registrable
    obtain ⟨-, unexpired, -⟩ := registrable_iff.mp registrable
    exact absurd unexpired (by decide)

end Registration

end Ancore.Account.Policies
