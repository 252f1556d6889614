import Ancore.Account.Owners
import Ancore.Modules.TargetAllowlist

/-! # An account with the allowlist module registered

An account asks its modules with `validate(to, function, args)`, three arguments; the
module's `validate` takes one, a `ValidationContext`.  The host refuses the call, so
the module answers no account that asks it (`answer_validationCall`), and an account
executes nothing while the module is registered.
-/

namespace Ancore.Modules

open Ancore.Library Ancore.Soroban

/-! ## The module as another contract calls it -/

/-- The fields of a context in the order of a contract type's map: that of their names. -/
def contextFields : List String :=
  ["account", "args_hash", "authorizer", "function", "nonce", "target"]

/-- `ValidationContext::try_from_val` -/
def ValidationContext.ofVal : Val → Option ValidationContext
  | .map [(.symbol first, .address account), (.symbol second, .bytes argsHash),
      (.symbol third, .address authorizer), (.symbol fourth, .symbol function),
      (.symbol fifth, .u64 nonce), (.symbol sixth, .address target)] =>
    if sized : argsHash.length = 32 then
      if [first, second, third, fourth, fifth, sixth].map Symbol.name =
          contextFields.map String.toList then
        some { account, authorizer, target, function, argsHash := ⟨argsHash, sized⟩, nonce }
      else none
    else none
  | _ => none

/-- The entry point of that name, if it takes these arguments. -/
def Call.ofInvocation (invocation : Invocation) : Option Call :=
  let name := String.ofList invocation.function.name
  match invocation.args with
  | [] => if name = "admin" then some .admin else none
  | [.address address] =>
    if name = "initialize" then some (.initializeModule address)
    else if name = "is_allowed_target" then some (.isAllowedTarget address)
    else none
  | [.bool enabled] => if name = "set_enabled" then some (.setEnabled enabled) else none
  | [context] =>
    if name = "validate" then (ValidationContext.ofVal context).map .validate else none
  | [.address target, .bool allowed] =>
    if name = "set_allowed_target" then some (.setAllowedTarget target allowed) else none
  | [.address target, .symbol function] =>
    if name = "is_allowed_function" then some (.isAllowedFunction target function) else none
  | [.address target, .symbol function, .bool allowed] =>
    if name = "set_allowed_function" then some (.setAllowedFunction target function allowed)
    else none
  | _ => none

/-- What the module answers another contract; a failure takes the caller with it. -/
def answer (env : Env) (storage : Storage) (invocation : Invocation) : Option Val := do
  let call ← Call.ofInvocation invocation
  let result ← step (env, call) storage
  return result.1.1

theorem answer_validationCall (env : Env) (storage : Storage) (request : Account.ExecuteRequest)
    (module : Address) : answer env storage (Account.validationCall request module) = none := by
  -- no entry point takes an address, a symbol and a list
  have refused : Call.ofInvocation (Account.validationCall request module) = none := rfl
  rw [answer, refused]
  rfl

/-! ## The account -/

section Account

variable {env : Env} {request : Account.ExecuteRequest}

theorem not_mem_of_runValidationModules {modules : List Address} {module : Address}
    {frame : Frame Account.Storage Account.PublicKey Account.Event}
    {done : Unit × Frame Account.Storage Account.PublicKey Account.Event}
    (silent : ∀ calls, env.callee calls (Account.validationCall request module) = none)
    (performed : Account.runValidationModules request modules env frame = .ok done) :
    module ∉ modules := by
  induction modules generalizing frame with
  | nil => exact List.not_mem_nil
  | cons first modules inductionHypothesis =>
    simp only [Account.runValidationModules, bind_ok, invokeContract_ok] at performed
    obtain ⟨value, _, ⟨-, answered, -⟩, _, _, -, performed⟩ := performed
    intro member
    obtain same | later := List.mem_cons.mp member
    · -- the first module has answered the very call that this one leaves unanswered
      subst same
      have unanswered := silent (invocations frame.effects)
      rw [Account.validationCall] at unanswered
      rw [unanswered] at answered
      cases answered
    · exact inductionHypothesis performed later

theorem not_registered_of_execute {module : Address}
    {frame : Frame Account.Storage Account.PublicKey Account.Event}
    {result : Val × Frame Account.Storage Account.PublicKey Account.Event}
    (silent : ∀ calls, env.callee calls (Account.validationCall request module) = none)
    (performed : Account.execute request env frame = .ok result) :
    module ∉ frame.storage.getModules := by
  simp only [Account.execute, Account.bumpInstance, publish, extendInstanceTtl, bind_ok,
    getStorage_ok, failIf_ok, okOr_ok, modifyStorage_ok, emit_ok, invokeContract_ok, pure_ok,
    Prod.mk.injEq, true_and, and_assoc, exists_and_left, exists_eq_left, exists_const]
    at performed
  obtain ⟨-, _, _, authorized, next, -, _, _, validated, -⟩ := performed
  obtain ⟨authorizers, -, same⟩ := Account.authorizeCaller_ok authorized
  cases same
  exact not_mem_of_runValidationModules silent validated

end Account

/-- In every run of an account whose calls to one of its modules reach the allowlist module, in
whatever state that one is, no execution succeeds while it is registered. -/
theorem registered_module_stops_execution (module : Address) (inputs : List (Env × Account.Call))
    (deployed : ∀ input ∈ inputs, ∀ calls invocation, invocation.contract = module →
      ∃ env storage, input.1.callee calls invocation = answer env storage invocation) :
    ∀ transition ∈ history Account.step Account.Storage.empty inputs,
      ∀ request, transition.input.2 = .execute request →
        module ∉ transition.before.getModules := by
  intro transition member request isExecute
  have performed := performed_of_mem_history Account.step member
  have asked : transition.input ∈ inputs :=
    (history_inputs_sublist Account.step _ inputs).subset (List.mem_map_of_mem member)
  obtain ⟨⟨env, call⟩, before, ⟨value, effects⟩, after⟩ := transition
  dsimp only at isExecute asked ⊢
  subst isExecute
  refine not_registered_of_execute (fun calls => ?_) (Contract.invoke_eq_some.mp performed)
  obtain ⟨moduleEnv, storage, answered⟩ :=
    deployed _ asked calls (Account.validationCall request module) rfl
  rw [answered, answer_validationCall]

/-! ### A run with the module -/

def sampleModule : Address := .contract (repeatedByte 5)

/-- The owner signs, and the module is one that was initialized and allows the sample target. -/
def sampleHost : Env :=
  { Env.sample Account.sampleAccount 0 [Account.sampleOwner] [] with
    callee := fun _ invocation =>
      if invocation.contract = sampleModule then
        answer (.sample sampleModule 0 [] []) (Storage.setHas
          { Storage.empty with admin := some Account.sampleOwner, enabled := some true }
          (.allowedTarget Account.sampleTarget) true) invocation
      else some .void }

/-- The account executes once the module is unregistered. -/
def sampleCalls : List (Env × Account.Call) :=
  [(sampleHost, .initializeAccount Account.sampleOwner),
    (sampleHost, .registerModule sampleModule),
    (sampleHost, .execute (Account.sampleRequest .owner)),
    (sampleHost, .unregisterModule sampleModule),
    (sampleHost, .execute (Account.sampleRequest .owner))]

theorem registered_module_stops_execution_of_sample :
    (history Account.step Account.Storage.empty sampleCalls).length = 4 ∧
      ∀ transition ∈ history Account.step Account.Storage.empty sampleCalls,
        ∀ request, transition.input.2 = .execute request →
          sampleModule ∉ transition.before.getModules := by
  refine ⟨rfl, registered_module_stops_execution sampleModule sampleCalls ?_⟩
  intro input member calls invocation addressed
  have host : input.1 = sampleHost := by
    simp only [sampleCalls, List.mem_cons, List.not_mem_nil, or_false] at member
    obtain rfl | rfl | rfl | rfl | rfl := member <;> rfl
  rw [host]
  exact ⟨_, _, if_pos addressed⟩

end Ancore.Modules
