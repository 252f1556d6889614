import Ancore.Account.Types
import Ancore.Soroban.Conventions

/-! # The parameters of the account contract

What `AncoreAccount` is called with, given the values of an invocation. -/

namespace Ancore.Account

open Ancore.Library Ancore.Soroban

/-- The call of a function of a contract. -/
structure Invocation where
  contract : Address
  method : String
  args : List Val

def ownerName : Symbol := ⟨"Owner".toList, by decide, by simp [isSymbolChar]⟩

def sessionKeyName : Symbol := ⟨"SessionKey".toList, by decide, by simp [isSymbolChar]⟩

def quorumName : Symbol := ⟨"Quorum".toList, by decide, by simp [isSymbolChar]⟩

def CallerIdentity.ofVal : Val → Option CallerIdentity
  | .vec [.symbol name] => if name = ownerName then some .owner else none
  | .vec [.symbol name, value] =>
    if name = sessionKeyName then (value.asBytesN 32).map .sessionKey
    else if name = quorumName then (value.asVec Val.asAddress).map .quorum
    else none
  | _ => none

/-- The parameters of `execute`. -/
def ExecuteRequest.ofArgs : List Val → Option ExecuteRequest
  | [caller, target, function, args, expectedNonce, sessionPubKey, signature,
      signaturePayload] => do
    let caller ← CallerIdentity.ofVal caller
    let target ← target.asAddress
    let function ← function.asSymbol
    let args ← args.asItems
    let expectedNonce ← expectedNonce.asU64
    let sessionPubKey ← sessionPubKey.asOption (Val.asBytesN 32)
    let signature ← signature.asOption (Val.asBytesN 64)
    let signaturePayload ← signaturePayload.asOption Val.asBytes
    pure { caller, target, function, args, expectedNonce, sessionPubKey, signature,
           signaturePayload }
  | _ => none

/-- The parameters of `add_session_key`. -/
def SessionKeyRequest.ofArgs : List Val → Option SessionKeyRequest
  | [publicKey, expiresAt, permissions, allowedContracts, maxAmountPerCall, cumulativeLimit,
      spendWindowSeconds] => do
    let publicKey ← publicKey.asBytesN 32
    let expiresAt ← expiresAt.asU64
    let permissions ← permissions.asVec Val.asU32
    let allowedContracts ← allowedContracts.asOption (Val.asVec Val.asAddress)
    let maxAmountPerCall ← maxAmountPerCall.asOption Val.asI128
    let cumulativeLimit ← cumulativeLimit.asOption Val.asI128
    let spendWindowSeconds ← spendWindowSeconds.asU64
    pure { publicKey, expiresAt, permissions, allowedContracts, maxAmountPerCall,
           cumulativeLimit, spendWindowSeconds }
  | _ => none

namespace Invocation

variable (account : Address) (invocation : Invocation)

/-- The parameters that the account is called with, where its `execute` is called. -/
def execute? : Option ExecuteRequest :=
  if invocation.contract = account ∧ invocation.method = "execute" then
    ExecuteRequest.ofArgs invocation.args
  else none

/-- The parameters that the account is called with, where its `add_session_key` is called. -/
def addSessionKey? : Option SessionKeyRequest :=
  if invocation.contract = account ∧ invocation.method = "add_session_key" then
    SessionKeyRequest.ofArgs invocation.args
  else none

end Invocation

/-! ## What the vectors look like -/

theorem ExecuteRequest.length_of_ofArgs {args : List Val} {request : ExecuteRequest}
    (decoded : ofArgs args = some request) : args.length = 8 := by
  unfold ofArgs at decoded
  split at decoded
  · rfl
  · cases decoded

theorem SessionKeyRequest.length_of_ofArgs {args : List Val} {request : SessionKeyRequest}
    (decoded : ofArgs args = some request) : args.length = 7 := by
  unfold ofArgs at decoded
  split at decoded
  · rfl
  · cases decoded

theorem asItems_eq_some {value : Val} {items : List Val} :
    value.asItems = some items ↔ value = .vec items := by
  cases value with
  | vec inner => simp [Val.asItems]
  | _ => simp [Val.asItems]

/-- The fourth value holds the arguments of the call that is executed. -/
theorem ExecuteRequest.args_of_ofArgs {args : List Val} {request : ExecuteRequest}
    (decoded : ofArgs args = some request) : Val.vec request.args ∈ args := by
  unfold ofArgs at decoded
  split at decoded
  · simp only [Option.bind_eq_bind, Option.bind_eq_some_iff, Option.pure_def,
      Option.some.injEq] at decoded
    obtain ⟨_, _, _, _, _, _, items, found, _, _, _, _, _, _, _, _, decoded⟩ := decoded
    rw [← decoded, ← asItems_eq_some.mp found]
    simp
  · cases decoded

/-- No call of `execute` is its own argument. -/
theorem ExecuteRequest.args_ne_of_ofArgs {args : List Val} {request : ExecuteRequest}
    (decoded : ofArgs args = some request) : args ≠ request.args := by
  intro same
  have member := args_of_ofArgs decoded
  have smaller := List.sizeOf_lt_of_mem member
  rw [same] at smaller
  simp only [Val.vec.sizeOf_spec] at smaller
  omega

end Ancore.Account
