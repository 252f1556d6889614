import Ancore.Library.Runs
import Ancore.Soroban.Value

/-! # Contract invocations on the Soroban host

A contract function runs in an environment fixed by the host (`Env`) over a
`Frame`: the contract's own storage and the effects it has had so far.  It
returns a value or fails, with a contract error (`Err`) or by trapping.  The host
discards the storage writes and effects of a failed invocation
(`Contract.invoke`), and it refuses re-entry, so nothing a callee does reaches
the storage of the running contract (`invokeContract`).

Every primitive has a lemma that says when it succeeds and what it leaves
behind; with `bind_ok` these invert a whole contract function by `simp`.
-/

namespace Ancore.Soroban

open Ancore.Library

/-- A call of one contract function. -/
structure Invocation where
  contract : Address
  function : Symbol
  args : List Val

/-- What the host provides to one invocation of a contract. -/
structure Env where
  currentContract : Address
  timestamp : UInt64
  /-- The addresses that have authorized this invocation. -/
  authorized : Address → Bool
  /-- The result of a call to another contract, given the calls already made; `none` when the
  callee fails, which takes the caller with it. -/
  callee : List Invocation → Invocation → Option Val
  ed25519Verify : BytesN 32 → Bytes → BytesN 64 → Bool
  /-- The WASM blobs on the ledger. -/
  wasmUploaded : BytesN 32 → Bool

/-- What an invocation does besides changing its storage; `κ` are the keys of persistent entries,
`η` the contract's events. -/
inductive Effect (κ η : Type) where
  | auth (address : Address)
  | event (event : η)
  | call (invocation : Invocation)
  | updateWasm (wasmHash : BytesN 32)
  | extendInstanceTtl (threshold extendTo : UInt32)
  | extendPersistentTtl (key : κ) (threshold extendTo : UInt32)

structure Frame (σ κ η : Type) where
  storage : σ
  effects : List (Effect κ η)

inductive Failure (ε : Type) where
  | error (error : ε)
  | trap

/-- A contract function with errors `ε` over storage `σ`. -/
def Contract (ε σ κ η α : Type) : Type :=
  Env → Frame σ κ η → Except (Failure ε) (α × Frame σ κ η)

variable {ε σ κ η α β : Type}

namespace Contract

def pure (value : α) : Contract ε σ κ η α := fun _ frame => .ok (value, frame)

def bind (action : Contract ε σ κ η α) (next : α → Contract ε σ κ η β) : Contract ε σ κ η β :=
  fun env frame =>
    match action env frame with
    | .ok (value, frame) => next value env frame
    | .error failure => .error failure

instance : Monad (Contract ε σ κ η) where
  pure := Contract.pure
  bind := Contract.bind

/-- Run a function as the host does: the effects and storage of a failed invocation are dropped. -/
def invoke (action : Contract ε σ κ η α) (env : Env) (storage : σ) :
    Option ((α × List (Effect κ η)) × σ) :=
  match action env ⟨storage, []⟩ with
  | .ok (value, frame) => some ((value, frame.effects), frame.storage)
  | .error _ => none

theorem invoke_eq_some {action : Contract ε σ κ η α} {env : Env} {storage next : σ} {value : α}
    {effects : List (Effect κ η)} :
    action.invoke env storage = some ((value, effects), next) ↔
      action env ⟨storage, []⟩ = .ok (value, ⟨next, effects⟩) := by
  unfold invoke
  split
  · rename_i result frame performed
    rw [performed]
    cases frame
    simp only [Option.some.injEq, Prod.mk.injEq, Except.ok.injEq, Frame.mk.injEq]
    tauto
  · rename_i failed
    simp [failed]

end Contract

/-- An environment in which exactly these addresses authorize the call, exactly these signatures
verify and every callee returns nothing. -/
def Env.sample (currentContract : Address) (timestamp : UInt64) (signers : List Address)
    (signatures : List (BytesN 32 × Bytes × BytesN 64)) : Env where
  currentContract := currentContract
  timestamp := timestamp
  authorized address := signers.contains address
  callee _ _ := some .void
  ed25519Verify publicKey message signature := signatures.contains (publicKey, message, signature)
  wasmUploaded _ := true

/-! ## Primitives -/

/-- `return Err(error)` -/
def failWith (error : ε) : Contract ε σ κ η α := fun _ _ => .error (.error error)

/-- A host trap: a panic, or a host function that fails. -/
def trap : Contract ε σ κ η α := fun _ _ => .error .trap

/-- `if condition { return Err(error); }` -/
def failIf (condition : Bool) (error : ε) : Contract ε σ κ η Unit :=
  if condition then failWith error else pure ()

/-- `value.ok_or(error)?` -/
def okOr (value : Option α) (error : ε) : Contract ε σ κ η α :=
  match value with
  | some value => pure value
  | none => failWith error

/-- `value.unwrap()` -/
def unwrap (value : Option α) : Contract ε σ κ η α :=
  match value with
  | some value => pure value
  | none => trap

/-- `result?` -/
def liftResult (result : Except ε α) : Contract ε σ κ η α :=
  match result with
  | .ok value => pure value
  | .error error => failWith error

def getEnv : Contract ε σ κ η Env := fun env frame => .ok (env, frame)

def getStorage : Contract ε σ κ η σ := fun _ frame => .ok (frame.storage, frame)

def modifyStorage (update : σ → σ) : Contract ε σ κ η Unit :=
  fun _ frame => .ok ((), { frame with storage := update frame.storage })

def emit (effect : Effect κ η) : Contract ε σ κ η Unit :=
  fun _ frame => .ok ((), { frame with effects := frame.effects ++ [effect] })

/-- `env.events().publish(..)` -/
def publish (event : η) : Contract ε σ κ η Unit := emit (.event event)

/-- `env.storage().instance().extend_ttl(..)` -/
def extendInstanceTtl (threshold extendTo : UInt32) : Contract ε σ κ η Unit :=
  emit (.extendInstanceTtl threshold extendTo)

/-- `env.storage().persistent().extend_ttl(..)` -/
def extendPersistentTtl (key : κ) (threshold extendTo : UInt32) : Contract ε σ κ η Unit :=
  emit (.extendPersistentTtl key threshold extendTo)

/-- `address.require_auth()` -/
def requireAuth (address : Address) : Contract ε σ κ η Unit := do
  let env ← getEnv
  if env.authorized address then emit (.auth address) else trap

/-- `env.crypto().ed25519_verify(..)` -/
def ed25519Verify (publicKey : BytesN 32) (message : Bytes) (signature : BytesN 64) :
    Contract ε σ κ η Unit := do
  let env ← getEnv
  if env.ed25519Verify publicKey message signature then pure () else trap

/-- `env.deployer().update_current_contract_wasm(..)` -/
def updateCurrentContractWasm (wasmHash : BytesN 32) : Contract ε σ κ η Unit := do
  let env ← getEnv
  if env.wasmUploaded wasmHash then emit (.updateWasm wasmHash) else trap

/-- An entry point that returns nothing. -/
def returnVoid (action : Contract ε σ κ η Unit) : Contract ε σ κ η Val := do
  action
  return .void

/-- The calls to other contracts among the effects. -/
def invocations (effects : List (Effect κ η)) : List Invocation :=
  effects.filterMap fun
    | .call invocation => some invocation
    | _ => none

/-- The addresses that `require_auth` was called on. -/
def authorizations (effects : List (Effect κ η)) : List Address :=
  effects.filterMap fun
    | .auth address => some address
    | _ => none

/-- The events among the effects. -/
def published (effects : List (Effect κ η)) : List η :=
  effects.filterMap fun
    | .event event => some event
    | _ => none

/-- `env.invoke_contract(..)`: the callee runs in its own storage, and a call back into the
running contract is refused. -/
def invokeContract (contract : Address) (function : Symbol) (args : List Val) :
    Contract ε σ κ η Val := fun env frame =>
  -- re-entry is refused
  if contract = env.currentContract then .error .trap
  else
    match env.callee (invocations frame.effects) ⟨contract, function, args⟩ with
    | some value =>
      .ok (value, { frame with effects := frame.effects ++ [.call ⟨contract, function, args⟩] })
    | none => .error .trap

/-! ## What the primitives do -/

/-- A guard that returns an error is passed when its condition is false. -/
@[simp] theorem ite_error_eq_ok {condition : Prop} [Decidable condition] {error : ε}
    {result : Except ε α} {value : α} :
    (if condition then .error error else result) = .ok value ↔
      ¬condition ∧ result = .ok value := by
  by_cases rejected : condition <;> simp [rejected]

section Inversion

variable {env : Env} {frame : Frame σ κ η} {result : α × Frame σ κ η}

@[simp] theorem pure_ok {value : α} :
    (pure value : Contract ε σ κ η α) env frame = .ok result ↔ result = (value, frame) := by
  simp [pure, Contract.pure, eq_comm]

@[simp] theorem bind_ok {action : Contract ε σ κ η β} {next : β → Contract ε σ κ η α} :
    (action >>= next) env frame = .ok result ↔
      ∃ value middle, action env frame = .ok (value, middle) ∧
        next value env middle = .ok result := by
  simp only [bind, Contract.bind]
  cases action env frame with
  | error failure => simp
  | ok pair =>
    obtain ⟨value, middle⟩ := pair
    constructor
    · intro finished
      exact ⟨value, middle, rfl, finished⟩
    · rintro ⟨_, _, same, finished⟩
      cases same
      exact finished

@[simp] theorem failWith_ok {error : ε} :
    (failWith error : Contract ε σ κ η α) env frame ≠ .ok result := by
  simp [failWith]

@[simp] theorem trap_ok : (trap : Contract ε σ κ η α) env frame ≠ .ok result := by
  simp [trap]

@[simp] theorem getEnv_ok {result : Env × Frame σ κ η} :
    (getEnv : Contract ε σ κ η Env) env frame = .ok result ↔ result = (env, frame) := by
  simp [getEnv, eq_comm]

@[simp] theorem getStorage_ok {result : σ × Frame σ κ η} :
    (getStorage : Contract ε σ κ η σ) env frame = .ok result ↔ result = (frame.storage, frame) := by
  simp [getStorage, eq_comm]

variable {done : Unit × Frame σ κ η}

@[simp] theorem failIf_ok {condition : Bool} {error : ε} :
    (failIf condition error : Contract ε σ κ η Unit) env frame = .ok done ↔
      condition = false ∧ done = ((), frame) := by
  cases condition <;> simp [failIf]

@[simp] theorem okOr_ok {value : Option α} {error : ε} :
    (okOr value error : Contract ε σ κ η α) env frame = .ok result ↔
      value = some result.1 ∧ result.2 = frame := by
  obtain ⟨output, after⟩ := result
  cases value with
  | none => simp [okOr]
  | some value => simp [okOr, eq_comm]

@[simp] theorem unwrap_ok {value : Option α} :
    (unwrap value : Contract ε σ κ η α) env frame = .ok result ↔
      value = some result.1 ∧ result.2 = frame := by
  obtain ⟨output, after⟩ := result
  cases value with
  | none => simp [unwrap]
  | some value => simp [unwrap, eq_comm]

@[simp] theorem liftResult_ok {outcome : Except ε α} :
    (liftResult outcome : Contract ε σ κ η α) env frame = .ok result ↔
      outcome = .ok result.1 ∧ result.2 = frame := by
  obtain ⟨output, after⟩ := result
  cases outcome with
  | error error => simp [liftResult]
  | ok value => simp [liftResult, eq_comm]

@[simp] theorem modifyStorage_ok {update : σ → σ} :
    (modifyStorage update : Contract ε σ κ η Unit) env frame = .ok done ↔
      done = ((), { frame with storage := update frame.storage }) := by
  simp [modifyStorage, eq_comm]

@[simp] theorem emit_ok {effect : Effect κ η} :
    (emit effect : Contract ε σ κ η Unit) env frame = .ok done ↔
      done = ((), { frame with effects := frame.effects ++ [effect] }) := by
  simp [emit, eq_comm]

@[simp] theorem requireAuth_ok {address : Address} :
    (requireAuth address : Contract ε σ κ η Unit) env frame = .ok done ↔
      env.authorized address = true ∧
        done = ((), { frame with effects := frame.effects ++ [.auth address] }) := by
  by_cases authorized : env.authorized address = true <;> simp [requireAuth, authorized]

@[simp] theorem ed25519Verify_ok {publicKey : BytesN 32} {message : Bytes}
    {signature : BytesN 64} :
    (ed25519Verify publicKey message signature : Contract ε σ κ η Unit) env frame = .ok done ↔
      env.ed25519Verify publicKey message signature = true ∧ done = ((), frame) := by
  by_cases verified : env.ed25519Verify publicKey message signature = true <;>
    simp [ed25519Verify, verified]

@[simp] theorem updateCurrentContractWasm_ok {wasmHash : BytesN 32} :
    (updateCurrentContractWasm wasmHash : Contract ε σ κ η Unit) env frame = .ok done ↔
      env.wasmUploaded wasmHash = true ∧
        done = ((), { frame with effects := frame.effects ++ [.updateWasm wasmHash] }) := by
  by_cases uploaded : env.wasmUploaded wasmHash = true <;>
    simp [updateCurrentContractWasm, uploaded]

@[simp] theorem invokeContract_ok {contract : Address} {function : Symbol} {args : List Val}
    {result : Val × Frame σ κ η} :
    (invokeContract contract function args : Contract ε σ κ η Val) env frame = .ok result ↔
      contract ≠ env.currentContract ∧
      env.callee (invocations frame.effects) ⟨contract, function, args⟩ = some result.1 ∧
      result.2 = { frame with effects := frame.effects ++ [.call ⟨contract, function, args⟩] } := by
  obtain ⟨output, after⟩ := result
  unfold invokeContract
  split
  · rename_i reentrant
    simp [reentrant]
  · rename_i distinct
    split
    · rename_i value answered
      simp [distinct, answered, eq_comm]
    · rename_i failed
      simp [failed]

theorem returnVoid_ok {action : Contract ε σ κ η Unit} {result : Val × Frame σ κ η} :
    returnVoid action env frame = .ok result ↔
      action env frame = .ok ((), result.2) ∧ result.1 = .void := by
  obtain ⟨value, after⟩ := result
  simp only [returnVoid, bind_ok, pure_ok, Prod.mk.injEq]
  constructor
  · rintro ⟨_, _, performed, rfl, rfl⟩
    exact ⟨performed, rfl⟩
  · rintro ⟨performed, rfl⟩
    exact ⟨(), after, performed, rfl, rfl⟩

end Inversion

/-! ## Invocations, authorizations and events among the effects -/

section Effects

variable (first second : List (Effect κ η))

@[simp] theorem invocations_nil : invocations ([] : List (Effect κ η)) = [] := rfl

@[simp] theorem invocations_cons (effect : Effect κ η) :
    invocations (effect :: first) =
      (match effect with
        | .call invocation => [invocation]
        | _ => []) ++ invocations first := by
  cases effect <;> rfl

@[simp] theorem authorizations_nil : authorizations ([] : List (Effect κ η)) = [] := rfl

@[simp] theorem authorizations_cons (effect : Effect κ η) :
    authorizations (effect :: first) =
      (match effect with
        | .auth address => [address]
        | _ => []) ++ authorizations first := by
  cases effect <;> rfl

@[simp] theorem authorizations_append :
    authorizations (first ++ second) = authorizations first ++ authorizations second :=
  List.filterMap_append

@[simp] theorem authorizations_map_auth (addresses : List Address) :
    authorizations (addresses.map (Effect.auth : Address → Effect κ η)) = addresses := by
  simp [authorizations, List.filterMap_map]

@[simp] theorem authorizations_map_call (items : List α) (invocation : α → Invocation) :
    authorizations (items.map fun item => (Effect.call (invocation item) : Effect κ η)) = [] := by
  simp [authorizations]

@[simp] theorem published_nil : published ([] : List (Effect κ η)) = [] := rfl

@[simp] theorem published_cons (effect : Effect κ η) :
    published (effect :: first) =
      (match effect with
        | .event event => [event]
        | _ => []) ++ published first := by
  cases effect <;> rfl

@[simp] theorem published_append :
    published (first ++ second) = published first ++ published second :=
  List.filterMap_append

@[simp] theorem published_map_auth (addresses : List Address) :
    published (addresses.map (Effect.auth : Address → Effect κ η)) = [] := by
  simp [published]

@[simp] theorem published_map_call (items : List α) (invocation : α → Invocation) :
    published (items.map fun item => (Effect.call (invocation item) : Effect κ η)) = [] := by
  simp [published]

end Effects

end Ancore.Soroban
