import Ancore.Soroban.Host

/-! # The target allowlist module

`TargetAllowlistModule` is a contract of its own that an account may ask before it
executes.  Its admin keeps two allowlists, one of targets and one of functions of
a target; `validate` accepts a call that either of them holds.
-/

namespace Ancore.Modules

open Ancore.Library Ancore.Soroban

/-! ## Data model -/

inductive ValidationModuleError where
  | alreadyInitialized
  | notInitialized
  | disabled
  | targetNotAllowed
deriving DecidableEq

structure ValidationContext where
  account : Address
  authorizer : Address
  target : Address
  function : Symbol
  argsHash : BytesN 32
  nonce : UInt64
deriving DecidableEq

/-- The persistent keys of `DataKey`; `Admin` and `Enabled` are fields of `Storage`. -/
inductive AllowlistKey where
  | allowedTarget (target : Address)
  | allowedFunction (target : Address) (function : Symbol)
deriving DecidableEq

/-- Instance storage, and the persistent entries as the keys that are present: an entry is only
ever set to `true`, and only its presence is read. -/
structure Storage where
  admin : Option Address
  enabled : Option Bool
  has : AllowlistKey → Bool

/-- The storage of a freshly deployed module. -/
def Storage.empty : Storage where
  admin := none
  enabled := none
  has _ := false

/-- `set(&key, &true)` or `remove(&key)` -/
def Storage.setHas (storage : Storage) (key : AllowlistKey) (allowed : Bool) : Storage :=
  { storage with has := Function.update storage.has key allowed }

inductive Event where
  | initialized (admin : Address)
  | enabledSet (enabled : Bool)
  | targetSet (target : Address) (allowed : Bool)
  | functionSet (target : Address) (function : Symbol) (allowed : Bool)

/-- The entry points. -/
inductive Call where
  | initializeModule (admin : Address)
  | setEnabled (enabled : Bool)
  | setAllowedTarget (target : Address) (allowed : Bool)
  | setAllowedFunction (target : Address) (function : Symbol) (allowed : Bool)
  | isAllowedTarget (target : Address)
  | isAllowedFunction (target : Address) (function : Symbol)
  | admin
  | validate (context : ValidationContext)

abbrev ModuleM := Contract ValidationModuleError Storage AllowlistKey Event

abbrev ModuleEffect := Effect AllowlistKey Event

def instanceBumpAmount : UInt32 := 30 * 17280
def instanceBumpThreshold : UInt32 := 15 * 17280
def allowlistBumpAmount : UInt32 := 30 * 17280
def allowlistBumpThreshold : UInt32 := 15 * 17280

/-! ## Entry points -/

/-- `extend_instance_ttl` -/
def bumpInstance : ModuleM Unit := extendInstanceTtl instanceBumpThreshold instanceBumpAmount

def ensureInitialized : ModuleM Unit := do
  let storage ← getStorage
  failIf storage.admin.isNone .notInitialized

def admin : ModuleM Address := do
  let storage ← getStorage
  okOr storage.admin .notInitialized

def requireAdmin : ModuleM Unit := do
  let admin ← admin
  requireAuth admin

def initializeModule (admin : Address) : ModuleM Unit := do
  let storage ← getStorage
  failIf storage.admin.isSome .alreadyInitialized
  requireAuth admin
  modifyStorage fun storage => { storage with admin := some admin, enabled := some true }
  bumpInstance
  publish (.initialized admin)

def setEnabled (enabled : Bool) : ModuleM Unit := do
  requireAdmin
  modifyStorage fun storage => { storage with enabled := some enabled }
  bumpInstance
  publish (.enabledSet enabled)

/-- The common body of `set_allowed_target` and `set_allowed_function`. -/
def setAllowed (key : AllowlistKey) (allowed : Bool) (event : Event) : ModuleM Unit := do
  requireAdmin
  modifyStorage fun storage => storage.setHas key allowed
  -- an entry that was removed has no lifetime to extend
  if allowed then extendPersistentTtl key allowlistBumpThreshold allowlistBumpAmount else pure ()
  bumpInstance
  publish event

def setAllowedTarget (target : Address) (allowed : Bool) : ModuleM Unit :=
  setAllowed (.allowedTarget target) allowed (.targetSet target allowed)

def setAllowedFunction (target : Address) (function : Symbol) (allowed : Bool) : ModuleM Unit :=
  setAllowed (.allowedFunction target function) allowed (.functionSet target function allowed)

/-- The common body of `is_allowed_target` and `is_allowed_function`. -/
def isAllowed (key : AllowlistKey) : ModuleM Bool := do
  ensureInitialized
  let storage ← getStorage
  return storage.has key

def isAllowedTarget (target : Address) : ModuleM Bool := isAllowed (.allowedTarget target)

def isAllowedFunction (target : Address) (function : Symbol) : ModuleM Bool :=
  isAllowed (.allowedFunction target function)

def validate (context : ValidationContext) : ModuleM Unit := do
  ensureInitialized
  let storage ← getStorage
  failIf (!storage.enabled.getD false) .disabled
  -- the whole target, or the one function of it
  failIf (!(storage.has (.allowedTarget context.target) ||
    storage.has (.allowedFunction context.target context.function))) .targetNotAllowed

/-! ## The module as a state machine -/

/-- The entry point a call goes to. -/
def dispatch : Call → ModuleM Val
  | .initializeModule admin => returnVoid (initializeModule admin)
  | .setEnabled enabled => returnVoid (setEnabled enabled)
  | .setAllowedTarget target allowed => returnVoid (setAllowedTarget target allowed)
  | .setAllowedFunction target function allowed =>
    returnVoid (setAllowedFunction target function allowed)
  | .isAllowedTarget target => do
    let allowed ← isAllowedTarget target
    return .bool allowed
  | .isAllowedFunction target function => do
    let allowed ← isAllowedFunction target function
    return .bool allowed
  | .admin => do
    let admin ← admin
    return .address admin
  | .validate context => returnVoid (validate context)

/-- One call to the module, in the environment the host gives it. -/
def step (input : Env × Call) (storage : Storage) :
    Option ((Val × List ModuleEffect) × Storage) :=
  (dispatch input.2).invoke input.1 storage

end Ancore.Modules
