import Ancore.Account.Types
import Ancore.Soroban.StrKey

/-! # The account contract: validation helpers

The checks of `validation.rs`, free of the environment.
-/

namespace Ancore.Account

open Ancore.Library Ancore.Library.FixedWidth Ancore.Soroban

def permissionSendPayment : UInt32 := 0
def permissionExecute : UInt32 := 1
def permissionInvokeContract : UInt32 := 2

/-- The slot of a known permission in the `seen` array. -/
def permissionIndex (permission : UInt32) : Option (Fin 3) :=
  if permission = permissionSendPayment then some 0
  else if permission = permissionExecute then some 1
  else if permission = permissionInvokeContract then some 2
  else none

def checkPermissions (seen : Fin 3 → Bool) : List UInt32 → Except ContractError Unit
  | [] => .ok ()
  | permission :: permissions =>
    match permissionIndex permission with
    | none => .error .insufficientPermission
    | some index =>
      if seen index then .error .insufficientPermission
      else checkPermissions (Function.update seen index true) permissions

/-- Reject unknown or duplicate permission bits. -/
def validatePermissions (permissions : List UInt32) : Except ContractError Unit :=
  checkPermissions (fun _ => false) permissions

/-- Validate spend-policy configuration at session-key registration. -/
def validateSpendPolicy (maxAmountPerCall cumulativeLimit : Option Int128)
    (spendWindowSeconds : UInt64) : Except ContractError Unit :=
  if maxAmountPerCall.any fun limit => limit ≤ 0 then
    .error .invalidSpendPolicy
  else if cumulativeLimit.any fun limit => limit ≤ 0 || spendWindowSeconds = 0 then
    .error .invalidSpendPolicy
  else if spendWindowSeconds > 0 ∧ cumulativeLimit.isNone then
    .error .invalidSpendPolicy
  else
    .ok ()

/-- Inputs for per-call / cumulative spend checks. -/
structure SpendCheckInput where
  amount : Option Int128
  maxAmountPerCall : Option Int128
  cumulativeLimit : Option Int128
  spendWindowStart : UInt64
  spendWindowSeconds : UInt64
  spentInWindow : Int128
  now : UInt64

/-- Enforce the cumulative cap for a positive amount. -/
def checkCumulativeLimit (input : SpendCheckInput) (amount : Int128) : Except ContractError Unit :=
  match input.cumulativeLimit with
  | none => .ok ()
  | some cumulativeLimit =>
    let spent :=
      if saturatingAdd input.spendWindowStart input.spendWindowSeconds < input.now then 0
      else input.spentInWindow
    match checkedAdd spent amount with
    | none => .error .arithmeticOverflow
    | some nextSpent =>
      if cumulativeLimit < nextSpent then .error .exceededSpendLimit else .ok ()

/-- Enforce per-call and cumulative spend caps. -/
def checkSpendLimits (input : SpendCheckInput) : Except ContractError Unit :=
  match input.amount with
  | none => .ok ()
  | some amount =>
    if 0 < amount then
      if input.maxAmountPerCall.any fun limit => limit < amount then .error .exceededSpendLimit
      else checkCumulativeLimit input amount
    else .ok ()

/-- Strict sequential nonce check (replay protection). -/
def nonceMatches (expected current : UInt64) : Bool := expected == current

/-- Session keys are expired at (and after) `expires_at`. -/
def sessionKeyIsExpired (now expiresAt : UInt64) : Bool := now ≥ expiresAt

/-- Allowlist check: `none` permits any target; `some` requires membership. -/
def allowlistPermitsAddress (allowed : Option (List Address)) (target : Address) : Bool :=
  match allowed with
  | none => true
  | some list => list.contains target

/-- Strkey of the all-zero Ed25519 account. -/
def zeroAccountStrkey : List Char :=
  "GAAAAAAAAAAAAAAAAAAAAAAAAAAAAAAAAAAAAAAAAAAAAAAAAAAAAWHF".toList

/-- Strkey of the all-zero contract id. -/
def zeroContractStrkey : List Char :=
  "CAAAAAAAAAAAAAAAAAAAAAAAAAAAAAAAAAAAAAAAAAAAAAAAAAAABSC4".toList

/-- Reject an empty strkey or the uninitialized all-zero account/contract address. -/
def validateAllowedContractAddress (strkey : List Char) : Except ContractError Unit :=
  if strkey.isEmpty ∨ strkey = zeroAccountStrkey ∨ strkey = zeroContractStrkey then
    .error .insufficientPermission
  else
    .ok ()

/-- Expiration must be non-zero and strictly after `now` (seconds). -/
def validateExpiry (expiresAtSecs now : UInt64) : Except ContractError Unit :=
  if expiresAtSecs = 0 then .error .invalidExpiration
  else if expiresAtSecs ≤ now then .error .sessionKeyExpirationInPast
  else .ok ()

/-! ## What the checks accept -/

theorem zeroAccountStrkey_eq : (Address.account zeroBytes).toStrkey = zeroAccountStrkey := by
  decide +kernel

theorem zeroContractStrkey_eq : (Address.contract zeroBytes).toStrkey = zeroContractStrkey := by
  decide +kernel

/-- An address on an allowlist is neither of the all-zero ones. -/
theorem validateAllowedContractAddress_nonzero {address : Address}
    (accepted : validateAllowedContractAddress address.toStrkey = .ok ()) :
    address ≠ .account zeroBytes ∧ address ≠ .contract zeroBytes := by
  constructor
  · rintro rfl
    simp [validateAllowedContractAddress, zeroAccountStrkey_eq] at accepted
  · rintro rfl
    simp [validateAllowedContractAddress, zeroContractStrkey_eq] at accepted

theorem validateSpendPolicy_ok {maxAmountPerCall cumulativeLimit : Option Int128}
    {spendWindowSeconds : UInt64} :
    validateSpendPolicy maxAmountPerCall cumulativeLimit spendWindowSeconds = .ok () ↔
      (∀ limit ∈ maxAmountPerCall, 0 < limit.val) ∧
      (∀ limit ∈ cumulativeLimit, 0 < limit.val ∧ spendWindowSeconds ≠ 0) ∧
      (cumulativeLimit = none → spendWindowSeconds = 0) := by
  cases maxAmountPerCall <;> cases cumulativeLimit <;>
    simp [validateSpendPolicy, Int128.le_def, not_or]

theorem validateExpiry_ok {expiresAtSecs now : UInt64} :
    validateExpiry expiresAtSecs now = .ok () ↔ now < expiresAtSecs := by
  simp only [validateExpiry, ite_error_eq_ok, and_true, UInt64.le_iff_toNat_le,
    UInt64.lt_iff_toNat_lt, ← UInt64.toNat_inj, UInt64.toNat_zero]
  omega

/-- A positive amount within both limits is what the spend check lets through. -/
theorem checkSpendLimits_ok {input : SpendCheckInput} {amount : Int128}
    (present : input.amount = some amount) (positive : 0 < amount) :
    checkSpendLimits input = .ok () ↔
      (∀ limit ∈ input.maxAmountPerCall, amount.val ≤ limit.val) ∧
      checkCumulativeLimit input amount = .ok () := by
  cases limit : input.maxAmountPerCall <;>
    simp [checkSpendLimits, present, positive, limit, Int128.lt_def]

end Ancore.Account
