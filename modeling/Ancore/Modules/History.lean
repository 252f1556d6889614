import Ancore.Modules.TargetAllowlist

/-! # What the allowlist module accepts follows its history

`Change` says what a successful call of the module has checked and what it leaves.
Each setting of the module is the latest one that a successful call made
(`settings_invariant`), and its admin, who never changes, authorized all of them.
-/

namespace Ancore.Modules

open Ancore.Library Ancore.Soroban

abbrev ModuleTransition := Transition Storage (Env × Call) (Val × List ModuleEffect)

/-! ## What one call does -/

/-- The entry of the allowlists that a call sets, and to what. -/
def Call.entry : Call → Option (AllowlistKey × Bool)
  | .setAllowedTarget target allowed => some (.allowedTarget target, allowed)
  | .setAllowedFunction target function allowed =>
    some (.allowedFunction target function, allowed)
  | _ => none

/-- To what a call sets one entry of the allowlists. -/
def Call.setting (key : AllowlistKey) (call : Call) : Option Bool :=
  call.entry.bind fun entry => if entry.1 = key then some entry.2 else none

/-- To what a call sets the switch; the module is initialized switched on. -/
def Call.switching : Call → Option Bool
  | .initializeModule _ => some true
  | .setEnabled enabled => some enabled
  | _ => none

/-- The calls that change the module. -/
def Call.changes (call : Call) : Bool := call.switching.isSome || call.entry.isSome

/-- The registered admin, who authorizes the call. -/
structure AdminAuthority (env : Env) (storage : Storage) (admin : Address) : Prop where
  registered : storage.admin = some admin
  authorized : env.authorized admin = true

/-- What a successful call has checked, and the storage it leaves. -/
inductive Change (env : Env) (before : Storage) : Call → Storage → Prop
  | initialized {admin : Address} (fresh : before.admin = none)
      (authorized : env.authorized admin = true) :
      Change env before (.initializeModule admin)
        { before with admin := some admin, enabled := some true }
  | switched {enabled : Bool} {admin : Address} (authority : AdminAuthority env before admin) :
      Change env before (.setEnabled enabled) { before with enabled := some enabled }
  | set {call : Call} {key : AllowlistKey} {allowed : Bool} {admin : Address}
      (authority : AdminAuthority env before admin) (sets : call.entry = some (key, allowed)) :
      Change env before call (before.setHas key allowed)
  | read {call : Call} (reads : call.changes = false) : Change env before call before

section Inversion

variable {env : Env} {storage : Storage} {frame : Frame Storage AllowlistKey Event}

theorem requireAdmin_ok {done : Unit × Frame Storage AllowlistKey Event} :
    requireAdmin env frame = .ok done ↔
      ∃ admin, AdminAuthority env frame.storage admin ∧
        done = ((), { frame with effects := frame.effects ++ [.auth admin] }) := by
  simp only [requireAdmin, admin, bind_ok, getStorage_ok, okOr_ok, requireAuth_ok, Prod.mk.injEq]
  constructor
  · rintro ⟨admin, _, ⟨_, _, ⟨rfl, rfl⟩, registered, rfl⟩, authorized, rfl⟩
    exact ⟨admin, ⟨registered, authorized⟩, rfl⟩
  · rintro ⟨admin, ⟨registered, authorized⟩, rfl⟩
    exact ⟨admin, frame, ⟨_, _, ⟨rfl, rfl⟩, registered, rfl⟩, authorized, rfl⟩

theorem ensureInitialized_ok {done : Unit × Frame Storage AllowlistKey Event} :
    ensureInitialized env frame = .ok done ↔
      frame.storage.admin.isSome = true ∧ done = ((), frame) := by
  simp [ensureInitialized]

theorem setAllowed_ok {key : AllowlistKey} {allowed : Bool} {event : Event}
    {done : Unit × Frame Storage AllowlistKey Event}
    (performed : setAllowed key allowed event env frame = .ok done) :
    ∃ admin, AdminAuthority env frame.storage admin ∧
      done.2.storage = frame.storage.setHas key allowed := by
  simp only [setAllowed, bind_ok, requireAdmin_ok] at performed
  obtain ⟨_, _, ⟨admin, authority, same⟩, _, _, written, performed⟩ := performed
  cases same
  refine ⟨admin, authority, ?_⟩
  cases modifyStorage_ok.mp written
  -- what follows only extends lifetimes and publishes
  cases allowed with
  | true =>
    simp only [if_true, extendPersistentTtl, bumpInstance, extendInstanceTtl, publish, bind_ok,
      emit_ok] at performed
    obtain ⟨_, _, extended, _, _, bumped, rfl⟩ := performed
    cases extended
    cases bumped
    rfl
  | false =>
    simp only [Bool.false_eq_true, if_false, bumpInstance, extendInstanceTtl, publish, bind_ok,
      emit_ok] at performed
    obtain ⟨_, _, bumped, rfl⟩ := performed
    cases bumped
    rfl

theorem validate_ok {context : ValidationContext}
    {done : Unit × Frame Storage AllowlistKey Event} :
    validate context env frame = .ok done ↔
      frame.storage.admin.isSome = true ∧ frame.storage.enabled = some true ∧
        (frame.storage.has (.allowedTarget context.target) = true ∨
          frame.storage.has (.allowedFunction context.target context.function) = true) ∧
        done = ((), frame) := by
  simp only [validate, bind_ok, ensureInitialized_ok, getStorage_ok, failIf_ok, Prod.mk.injEq,
    true_and, and_assoc, Bool.not_eq_false', Bool.or_eq_true, Option.getD_eq_iff]
  simp

/-- The only place where the entry points are inverted. -/
theorem change_of_dispatch {call : Call} {result : Val × Frame Storage AllowlistKey Event}
    (performed : dispatch call env frame = .ok result) :
    Change env frame.storage call result.2.storage := by
  cases call with
  | initializeModule admin =>
    simp only [dispatch, returnVoid_ok, initializeModule, bind_ok, getStorage_ok, failIf_ok,
      requireAuth_ok, modifyStorage_ok, bumpInstance, extendInstanceTtl, publish, emit_ok,
      Prod.mk.injEq] at performed
    obtain ⟨⟨_, _, ⟨rfl, rfl⟩, _, _, ⟨fresh, -, rfl⟩, _, _, ⟨authorized, -, rfl⟩, _, _,
      ⟨-, rfl⟩, _, _, ⟨-, rfl⟩, -, after⟩, -⟩ := performed
    rw [after]
    exact .initialized (Option.isSome_eq_false_iff.mp fresh |> Option.isNone_iff_eq_none.mp)
      authorized
  | setEnabled enabled =>
    simp only [dispatch, returnVoid_ok, setEnabled, bind_ok, requireAdmin_ok, modifyStorage_ok,
      bumpInstance, extendInstanceTtl, publish, emit_ok, Prod.mk.injEq] at performed
    obtain ⟨⟨_, _, ⟨admin, authority, -, rfl⟩, _, _, ⟨-, rfl⟩, _, _, ⟨-, rfl⟩, -, after⟩, -⟩ :=
      performed
    rw [after]
    exact .switched authority
  | setAllowedTarget target allowed =>
    obtain ⟨admin, authority, after⟩ := setAllowed_ok (returnVoid_ok.mp performed).1
    rw [after]
    exact .set authority rfl
  | setAllowedFunction target function allowed =>
    obtain ⟨admin, authority, after⟩ := setAllowed_ok (returnVoid_ok.mp performed).1
    rw [after]
    exact .set authority rfl
  | isAllowedTarget target =>
    simp only [dispatch, isAllowedTarget, isAllowed, bind_ok, ensureInitialized_ok, getStorage_ok,
      pure_ok, Prod.mk.injEq] at performed
    obtain ⟨_, _, ⟨_, _, ⟨-, -, rfl⟩, _, _, ⟨-, rfl⟩, -, rfl⟩, rfl⟩ := performed
    exact .read rfl
  | isAllowedFunction target function =>
    simp only [dispatch, isAllowedFunction, isAllowed, bind_ok, ensureInitialized_ok,
      getStorage_ok, pure_ok, Prod.mk.injEq] at performed
    obtain ⟨_, _, ⟨_, _, ⟨-, -, rfl⟩, _, _, ⟨-, rfl⟩, -, rfl⟩, rfl⟩ := performed
    exact .read rfl
  | admin =>
    simp only [dispatch, admin, bind_ok, getStorage_ok, okOr_ok, pure_ok, Prod.mk.injEq]
      at performed
    obtain ⟨_, _, ⟨_, _, ⟨-, rfl⟩, -, rfl⟩, rfl⟩ := performed
    exact .read rfl
  | validate context =>
    obtain ⟨-, -, -, same⟩ := validate_ok.mp (returnVoid_ok.mp performed).1
    cases (Prod.mk.inj same).2
    exact .read rfl

theorem change {transition : ModuleTransition} (performed : transition.Performed step) :
    Change transition.input.1 transition.before transition.input.2 transition.after := by
  obtain ⟨⟨env, call⟩, before, ⟨value, effects⟩, after⟩ := transition
  exact change_of_dispatch (Contract.invoke_eq_some.mp performed)

end Inversion

/-! ## Settings -/

/-- The latest value that a successful call of the history gave a setting. -/
def latest (reads : Call → Option Bool) (past : List ModuleTransition) : Option Bool :=
  past.foldl (fun current transition => (reads transition.input.2).or current) none

theorem latest_snoc (reads : Call → Option Bool) (past : List ModuleTransition)
    (transition : ModuleTransition) :
    latest reads (past ++ [transition]) =
      (reads transition.input.2).or (latest reads past) := by
  simp [latest, List.foldl_append]

/-- The storage is what the successful calls so far have made of it. -/
structure Settings (past : List ModuleTransition) (storage : Storage) : Prop where
  enabled : storage.enabled = latest Call.switching past
  has : ∀ key, storage.has key = (latest (Call.setting key) past).getD false
  initialized : storage.enabled.isSome = true → storage.admin.isSome = true
  authorized : ∀ transition ∈ past, transition.input.2.changes = true →
    ∃ admin, storage.admin = some admin ∧ transition.input.1.authorized admin = true

theorem Call.reads_of_not_changes {call : Call} (reads : call.changes = false)
    (key : AllowlistKey) : call.switching = none ∧ call.setting key = none := by
  rw [Call.changes, Bool.or_eq_false_iff, Option.isSome_eq_false_iff, Option.isSome_eq_false_iff,
    Option.isNone_iff_eq_none, Option.isNone_iff_eq_none] at reads
  exact ⟨reads.1, by rw [Call.setting, reads.2, Option.bind_none]⟩

theorem Call.switching_of_entry {call : Call} {entry : AllowlistKey × Bool}
    (sets : call.entry = some entry) : call.switching = none := by
  cases call <;> first | rfl | cases sets

section Settings

variable {past : List ModuleTransition} {transition : ModuleTransition}

/-- Whoever authorized the calls so far, and the latest one if it changes anything. -/
theorem authorized_snoc {storage : Storage} {admin : Address}
    (earlier : ∀ transition ∈ past, transition.input.2.changes = true →
      ∃ admin, storage.admin = some admin ∧ transition.input.1.authorized admin = true)
    (registered : storage.admin = some admin)
    (authorized : transition.input.1.authorized admin = true) :
    ∀ made ∈ past ++ [transition], made.input.2.changes = true →
      ∃ admin, storage.admin = some admin ∧ made.input.1.authorized admin = true := by
  intro made member changes
  obtain before | same := List.mem_append.mp member
  · exact earlier made before changes
  · rw [List.mem_singleton.mp same]
    exact ⟨admin, registered, authorized⟩

theorem Settings.snoc (settings : Settings past transition.before)
    (performed : transition.Performed step) :
    Settings (past ++ [transition]) transition.after := by
  have change := change performed
  obtain ⟨⟨env, call⟩, before, output, after⟩ := transition
  dsimp only at settings change ⊢
  cases change with
  | @initialized admin fresh authorized =>
    refine ⟨?_, fun key => ?_, fun _ => rfl, ?_⟩
    · rw [latest_snoc]
      rfl
    · rw [latest_snoc]
      exact settings.has key
    · -- nothing can have changed before there was an admin
      refine authorized_snoc (fun made member changes => ?_) rfl authorized
      obtain ⟨earlier, registered, -⟩ := settings.authorized made member changes
      rw [fresh] at registered
      cases registered
  | @switched enabled admin authority =>
    refine ⟨?_, fun key => ?_, fun _ => ?_, ?_⟩
    · rw [latest_snoc]
      rfl
    · rw [latest_snoc]
      exact settings.has key
    · simp [authority.registered]
    · exact authorized_snoc settings.authorized authority.registered authority.authorized
  | @set _ key allowed admin authority sets =>
    refine ⟨?_, fun other => ?_, settings.initialized, ?_⟩
    · rw [latest_snoc, show Call.switching call = none from Call.switching_of_entry sets]
      exact settings.enabled
    · rw [latest_snoc, Call.setting, sets, Option.bind_some]
      change Function.update before.has key allowed other = _
      rw [Function.update_apply]
      by_cases same : other = key
      · simp [same]
      · simpa [same, Ne.symm same] using settings.has other
    · exact authorized_snoc settings.authorized authority.registered authority.authorized
  | read reads =>
    refine ⟨?_, fun key => ?_, settings.initialized, ?_⟩
    · rw [latest_snoc, (Call.reads_of_not_changes reads (.allowedTarget (.account zeroBytes))).1]
      exact settings.enabled
    · rw [latest_snoc, (Call.reads_of_not_changes reads key).2]
      exact settings.has key
    · intro made member changes
      obtain earlier | same := List.mem_append.mp member
      · exact settings.authorized made earlier changes
      · rw [List.mem_singleton.mp same] at changes
        rw [show Call.changes call = true from changes] at reads
        cases reads

theorem settings_invariant : HistoryInvariant step Storage.empty Settings where
  init := ⟨rfl, fun _ => rfl, nofun, List.forall_mem_nil _⟩
  preserved := fun _ _ settings performed => settings.snoc performed

end Settings

/-- After any run of the module, `validate` accepts exactly the calls that the latest settings
allow: it is switched on, and the target, or the function of the target, was allowed last.  Every
change to these settings was authorized by the one admin the module was initialized with. -/
theorem validate_follows_history (inputs : List (Env × Call)) :
    (∀ (env : Env) (context : ValidationContext),
      (step (env, .validate context) (final step Storage.empty inputs)).isSome = true ↔
        latest Call.switching (history step Storage.empty inputs) = some true ∧
          (latest (Call.setting (.allowedTarget context.target))
              (history step Storage.empty inputs) = some true ∨
            latest (Call.setting (.allowedFunction context.target context.function))
              (history step Storage.empty inputs) = some true)) ∧
      ∀ transition ∈ history step Storage.empty inputs, transition.input.2.changes = true →
        ∃ admin, (final step Storage.empty inputs).admin = some admin ∧
          transition.input.1.authorized admin = true := by
  have settings := settings_invariant.holds_final inputs
  refine ⟨fun env context => ?_, settings.authorized⟩
  generalize history step Storage.empty inputs = past at settings ⊢
  generalize final step Storage.empty inputs = storage at settings ⊢
  have entry (key : AllowlistKey) :
      storage.has key = true ↔ latest (Call.setting key) past = some true := by
    rw [settings.has key]
    cases latest (Call.setting key) past <;> simp
  rw [← settings.enabled, ← entry, ← entry, Option.isSome_iff_exists]
  constructor
  · rintro ⟨⟨⟨value, effects⟩, next⟩, accepted⟩
    obtain ⟨-, enabled, allowed, -⟩ :=
      validate_ok.mp (returnVoid_ok.mp (Contract.invoke_eq_some.mp accepted)).1
    exact ⟨enabled, allowed⟩
  · rintro ⟨enabled, allowed⟩
    have initialized := settings.initialized (by rw [enabled]; rfl)
    have accepted : validate context env ⟨storage, []⟩ = .ok ((), ⟨storage, []⟩) :=
      validate_ok.mpr ⟨initialized, enabled, allowed, rfl⟩
    exact ⟨((.void, []), storage),
      Contract.invoke_eq_some.mpr (returnVoid_ok.mpr ⟨accepted, rfl⟩)⟩

end Ancore.Modules
