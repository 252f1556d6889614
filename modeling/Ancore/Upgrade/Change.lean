import Ancore.Upgrade.Contract

/-! # The upgrade governor: the step relation

`Change env before call value invoked after` says what a successful call has
checked, what it returned, which contracts it invoked and the storage it leaves.
-/

namespace Ancore.Upgrade

open Ancore.Library Ancore.Library.FixedWidth Ancore.Soroban

/-! ## Storage updates -/

section Updates

variable {storage : Storage} {id other : UInt32} {proposal : Proposal} {signer : Address}

@[simp] theorem Storage.setProposal_same :
    (storage.setProposal id proposal).proposal id = some proposal := by
  simp [Storage.setProposal]

@[simp] theorem Storage.setProposal_ne (distinct : other ≠ id) :
    (storage.setProposal id proposal).proposal other = storage.proposal other := by
  simp [Storage.setProposal, distinct]

theorem Storage.recordSignature_iff {recorded : Address} :
    (storage.recordSignature id signer).signatureRecord other recorded = true ↔
      (other = id ∧ recorded = signer) ∨ storage.signatureRecord other recorded = true := by
  by_cases sameId : other = id
  · subst sameId
    by_cases same : recorded = signer <;> simp [Storage.recordSignature, same]
  · simp [Storage.recordSignature, sameId]

end Updates

/-! ## Authority and pending proposals -/

structure OwnerAuthority (env : Env) (storage : Storage) (owner : Address) : Prop where
  registered : storage.owner = some owner
  authorized : env.authorized owner = true

/-- The proposal is stored, neither executed nor cancelled. -/
structure Pending (storage : Storage) (id : UInt32) (proposal : Proposal) : Prop where
  stored : storage.proposal id = some proposal
  unexecuted : proposal.executed = false
  uncancelled : proposal.cancelled = false

/-- The upgrade call of a proposal. -/
def upgradeCall (target : Address) (proposal : Proposal) : Invocation :=
  ⟨target, upgradeSymbol, [.bytes proposal.wasmHash.val]⟩

/-- The proposal is pending, its timelock has elapsed and the target takes the upgrade call. -/
structure Executable (env : Env) (storage : Storage) (id : UInt32) (proposal : Proposal)
    (target : Address) : Prop extends Pending storage id proposal where
  elapsed : proposal.executeAfter ≤ env.timestamp
  targeted : storage.targetAccount = some target
  foreign : target ≠ env.currentContract
  answered : (env.callee [] (upgradeCall target proposal)).isSome

section Guards

variable {env : Env} {frame : Frame Storage SignatureKey Event}
  {done : Unit × Frame Storage SignatureKey Event} {proposalId : UInt32}
  {result : Proposal × Frame Storage SignatureKey Event}

@[simp] theorem requireOwnerAuth_ok :
    requireOwnerAuth env frame = .ok done ↔
      ∃ owner, OwnerAuthority env frame.storage owner ∧
        done = ((), { frame with effects := frame.effects ++ [.auth owner] }) := by
  constructor
  · intro performed
    simp only [requireOwnerAuth, bind_ok, getStorage_ok, okOr_ok, requireAuth_ok,
      Prod.mk.injEq] at performed
    obtain ⟨_, _, ⟨rfl, rfl⟩, owner, _, ⟨registered, rfl⟩, authorized, rfl⟩ := performed
    exact ⟨owner, ⟨registered, authorized⟩, rfl⟩
  · rintro ⟨owner, ⟨registered, authorized⟩, rfl⟩
    simp [requireOwnerAuth, registered, authorized]

@[simp] theorem getPendingProposal_ok :
    getPendingProposal proposalId env frame = .ok result ↔
      Pending frame.storage proposalId result.1 ∧ result.2 = frame := by
  obtain ⟨proposal, after⟩ := result
  constructor
  · intro performed
    simp only [getPendingProposal, bind_ok, getStorage_ok, okOr_ok, failIf_ok, pure_ok,
      Prod.mk.injEq, true_and] at performed
    obtain ⟨_, _, ⟨rfl, rfl⟩, _, _, ⟨stored, rfl⟩, _, _, ⟨unexecuted, rfl⟩, _, _,
      ⟨uncancelled, rfl⟩, rfl, rfl⟩ := performed
    exact ⟨⟨stored, unexecuted, uncancelled⟩, rfl⟩
  · rintro ⟨⟨stored, unexecuted, uncancelled⟩, rfl⟩
    simpa [getPendingProposal] using ⟨stored, unexecuted, uncancelled⟩

@[simp] theorem getExecutableProposal_ok :
    getExecutableProposal proposalId env frame = .ok result ↔
      Pending frame.storage proposalId result.1 ∧ result.1.executeAfter ≤ env.timestamp ∧
        result.2 = frame := by
  obtain ⟨proposal, after⟩ := result
  simp [getExecutableProposal]

end Guards

/-! ## Entry points -/

section EntryPoints

variable {env : Env} {frame : Frame Storage SignatureKey Event} {storage : Storage}
  {done : Unit × Frame Storage SignatureKey Event} {proposalId : UInt32}

/-- The effects every entry point ends with. -/
def closingEffects (event : Event) : List GovernorEffect :=
  [.extendInstanceTtl instanceBumpThreshold instanceBumpAmount, .event event]

attribute [local simp] bumpInstance publish extendInstanceTtl closingEffects

theorem initializeGovernor_ok {owner targetAccount : Address} {delay : UInt64} :
    initializeGovernor owner targetAccount delay env frame = .ok done ↔
      frame.storage.owner = none ∧ env.authorized owner = true ∧
        done = ((), ⟨{ frame.storage with
            owner := some owner
            targetAccount := some targetAccount
            timelockDelay := some delay
            nextProposalId := some 1 },
          frame.effects ++ .auth owner :: closingEffects (.timelockUpdated delay)⟩) := by
  simp [initializeGovernor]

theorem proposeUpgrade_ok {newWasmHash : BytesN 32} {attestation : WasmAttestation}
    {result : UInt32 × Frame Storage SignatureKey Event} :
    proposeUpgrade newWasmHash attestation env frame = .ok result ↔
      ∃ owner, OwnerAuthority env frame.storage owner ∧
        validateWasmMetadata newWasmHash frame.storage.getContractValidation attestation = .ok () ∧
        ∃ executeAfter : UInt64,
          executeAfter.toNat = env.timestamp.toNat + frame.storage.getTimelockDelay.toNat ∧
          ∃ nextId : UInt32, nextId.toNat = (frame.storage.nextProposalId.getD 1).toNat + 1 ∧
            result = (frame.storage.nextProposalId.getD 1,
              ⟨{ frame.storage.setProposal (frame.storage.nextProposalId.getD 1) {
                    id := frame.storage.nextProposalId.getD 1
                    wasmHash := newWasmHash
                    proposedAt := env.timestamp
                    executeAfter := executeAfter
                    executed := false
                    cancelled := false } with nextProposalId := some nextId },
                frame.effects ++ .auth owner :: closingEffects
                  (.proposed (frame.storage.nextProposalId.getD 1) newWasmHash executeAfter)⟩) := by
  simp [proposeUpgrade, checkedAdd_uint64_eq_some, checkedAdd_uint32_eq_some, Unique.exists_iff]

theorem invokeUpgrade_ok {proposal : Proposal} :
    invokeUpgrade proposalId proposal env frame = .ok done ↔
      ∃ target, frame.storage.targetAccount = some target ∧ target ≠ env.currentContract ∧
        (env.callee (invocations frame.effects) (upgradeCall target proposal)).isSome ∧
        done = ((), ⟨frame.storage.setProposal proposalId { proposal with executed := true },
          frame.effects ++ .call (upgradeCall target proposal) ::
            closingEffects (.executed proposalId proposal.wasmHash)⟩) := by
  simp [invokeUpgrade, upgradeCall, Option.isSome_iff_exists, and_assoc]

theorem executeUpgrade_ok :
    executeUpgrade proposalId env ⟨storage, []⟩ = .ok done ↔
      ∃ proposal target, Executable env storage proposalId proposal target ∧
        done = ((), ⟨storage.setProposal proposalId { proposal with executed := true },
          .call (upgradeCall target proposal) ::
            closingEffects (.executed proposalId proposal.wasmHash)⟩) := by
  constructor
  · intro performed
    simp only [executeUpgrade, bind_ok, getExecutableProposal_ok] at performed
    obtain ⟨proposal, _, ⟨pending, elapsed, rfl⟩, invoked⟩ := performed
    obtain ⟨target, targeted, foreign, answered, rfl⟩ := invokeUpgrade_ok.mp invoked
    exact ⟨proposal, target, ⟨pending, elapsed, targeted, foreign, answered⟩, rfl⟩
  · rintro ⟨proposal, target, ⟨pending, elapsed, targeted, foreign, answered⟩, rfl⟩
    simp only [executeUpgrade, bind_ok, getExecutableProposal_ok]
    exact ⟨proposal, _, ⟨pending, elapsed, rfl⟩,
      invokeUpgrade_ok.mpr ⟨target, targeted, foreign, answered, rfl⟩⟩

/-- The configured threshold is met by the recorded approvals. -/
structure Approved (storage : Storage) (id : UInt32) (config : MultisigConfig) : Prop where
  configured : storage.multisigConfig = some config
  enough : config.threshold.toNat ≤ countSignatures storage id config.signers

theorem executeMultisigUpgrade_ok :
    executeMultisigUpgrade proposalId env ⟨storage, []⟩ = .ok done ↔
      ∃ proposal target config, Executable env storage proposalId proposal target ∧
        Approved storage proposalId config ∧
        done = ((), ⟨storage.setProposal proposalId { proposal with executed := true },
          .call (upgradeCall target proposal) ::
            closingEffects (.executed proposalId proposal.wasmHash)⟩) := by
  constructor
  · intro performed
    simp only [executeMultisigUpgrade, bind_ok, getExecutableProposal_ok, getStorage_ok, okOr_ok,
      failIf_ok, Prod.mk.injEq, true_and] at performed
    obtain ⟨proposal, _, ⟨pending, elapsed, rfl⟩, _, _, ⟨rfl, rfl⟩, config, _, ⟨configured, rfl⟩,
      _, _, ⟨enough, rfl⟩, invoked⟩ := performed
    obtain ⟨target, targeted, foreign, answered, rfl⟩ := invokeUpgrade_ok.mp invoked
    exact ⟨proposal, target, config, ⟨pending, elapsed, targeted, foreign, answered⟩,
      ⟨configured, by simpa using enough⟩, rfl⟩
  · rintro ⟨proposal, target, config, ⟨pending, elapsed, targeted, foreign, answered⟩,
      ⟨configured, enough⟩, rfl⟩
    simp only [executeMultisigUpgrade, bind_ok, getExecutableProposal_ok, getStorage_ok, okOr_ok,
      failIf_ok, Prod.mk.injEq, true_and]
    exact ⟨proposal, _, ⟨pending, elapsed, rfl⟩, _, _, ⟨rfl, rfl⟩, config, _, ⟨configured, rfl⟩,
      (), _, ⟨by simpa using enough, rfl⟩,
      invokeUpgrade_ok.mpr ⟨target, targeted, foreign, answered, rfl⟩⟩

theorem cancelUpgrade_ok :
    cancelUpgrade proposalId env frame = .ok done ↔
      ∃ owner, OwnerAuthority env frame.storage owner ∧
        ∃ proposal, Pending frame.storage proposalId proposal ∧
          done = ((), ⟨frame.storage.setProposal proposalId { proposal with cancelled := true },
            frame.effects ++ .auth owner :: closingEffects (.cancelled proposalId)⟩) := by
  simp [cancelUpgrade]

theorem setTimelockDelay_ok {newDelay : UInt64} :
    setTimelockDelay newDelay env frame = .ok done ↔
      ∃ owner, OwnerAuthority env frame.storage owner ∧
        done = ((), ⟨{ frame.storage with timelockDelay := some newDelay },
          frame.effects ++ .auth owner :: closingEffects (.timelockUpdated newDelay)⟩) := by
  simp [setTimelockDelay]

theorem updateMultisigConfig_ok {threshold : UInt32} {signers : List Address} :
    updateMultisigConfig threshold signers env frame = .ok done ↔
      ∃ owner, OwnerAuthority env frame.storage owner ∧ threshold ≠ 0 ∧
        signers.length ≤ maxSigners ∧ threshold.toNat ≤ signers.length ∧
        done = ((), ⟨{ frame.storage with multisigConfig := some ⟨threshold, signers⟩ },
          frame.effects ++ .auth owner :: closingEffects (.multisigUpdated threshold)⟩) := by
  simp [updateMultisigConfig, and_assoc]

theorem submitMultisigSignature_ok {caller : Address} :
    submitMultisigSignature caller proposalId env frame = .ok done ↔
      env.authorized caller = true ∧
      ∃ config, frame.storage.multisigConfig = some config ∧ caller ∈ config.signers ∧
        ∃ proposal, Pending frame.storage proposalId proposal ∧
          frame.storage.signatureRecord proposalId caller = false ∧
          done = ((), ⟨frame.storage.recordSignature proposalId caller,
            frame.effects ++ .auth caller ::
              closingEffects (.signatureSubmitted proposalId caller)⟩) := by
  simp [submitMultisigSignature]

theorem setContractValidation_ok {validation : ContractValidation} :
    setContractValidation validation env frame = .ok done ↔
      ∃ owner, OwnerAuthority env frame.storage owner ∧
        done = ((), ⟨{ frame.storage with contractValidation := some validation },
          frame.effects ++ [.auth owner,
            .extendInstanceTtl instanceBumpThreshold instanceBumpAmount]⟩) := by
  simp [setContractValidation]

end EntryPoints

/-! ## The step relation -/

/-- What a successful call has checked, what it returned, whom it invoked and what it leaves. -/
inductive Change (env : Env) (before : Storage) : Call → Val → List Invocation → Storage → Prop
  | initializeGovernor {owner targetAccount : Address} {delay : UInt64}
      (fresh : before.owner = none) :
      Change env before (.initializeGovernor owner targetAccount delay) .void [] { before with
        owner := some owner
        targetAccount := some targetAccount
        timelockDelay := some delay
        nextProposalId := some 1 }
  | proposeUpgrade {newWasmHash : BytesN 32} {attestation : WasmAttestation} {owner : Address}
      {id nextId : UInt32} {executeAfter : UInt64} (authority : OwnerAuthority env before owner)
      (metadata : validateWasmMetadata newWasmHash before.getContractValidation attestation =
        .ok ())
      (next : before.nextProposalId.getD 1 = id) (advanced : nextId.toNat = id.toNat + 1)
      (timelock : executeAfter.toNat = env.timestamp.toNat + before.getTimelockDelay.toNat) :
      Change env before (.proposeUpgrade newWasmHash attestation) (.u32 id) []
        { before.setProposal id {
            id := id
            wasmHash := newWasmHash
            proposedAt := env.timestamp
            executeAfter := executeAfter
            executed := false
            cancelled := false } with nextProposalId := some nextId }
  | executeUpgrade {id : UInt32} {proposal : Proposal} {target : Address}
      (executable : Executable env before id proposal target) :
      Change env before (.executeUpgrade id) .void [upgradeCall target proposal]
        (before.setProposal id { proposal with executed := true })
  | executeMultisigUpgrade {id : UInt32} {proposal : Proposal} {target : Address}
      {config : MultisigConfig} (executable : Executable env before id proposal target)
      (approved : Approved before id config) :
      Change env before (.executeMultisigUpgrade id) .void [upgradeCall target proposal]
        (before.setProposal id { proposal with executed := true })
  | cancelUpgrade {id : UInt32} {proposal : Proposal} {owner : Address}
      (authority : OwnerAuthority env before owner) (pending : Pending before id proposal) :
      Change env before (.cancelUpgrade id) .void []
        (before.setProposal id { proposal with cancelled := true })
  | setTimelockDelay {newDelay : UInt64} {owner : Address}
      (authority : OwnerAuthority env before owner) :
      Change env before (.setTimelockDelay newDelay) .void []
        { before with timelockDelay := some newDelay }
  | updateMultisigConfig {threshold : UInt32} {signers : List Address} {owner : Address}
      (authority : OwnerAuthority env before owner) (positive : threshold ≠ 0)
      (short : signers.length ≤ maxSigners) (enough : threshold.toNat ≤ signers.length) :
      Change env before (.updateMultisigConfig threshold signers) .void []
        { before with multisigConfig := some ⟨threshold, signers⟩ }
  | submitMultisigSignature {caller : Address} {id : UInt32} {config : MultisigConfig}
      {proposal : Proposal} (authorized : env.authorized caller = true)
      (configured : before.multisigConfig = some config) (member : caller ∈ config.signers)
      (pending : Pending before id proposal) (fresh : before.signatureRecord id caller = false) :
      Change env before (.submitMultisigSignature caller id) .void []
        (before.recordSignature id caller)
  | setContractValidation {validation : ContractValidation} {owner : Address}
      (authority : OwnerAuthority env before owner) :
      Change env before (.setContractValidation validation) .void []
        { before with contractValidation := some validation }

attribute [local simp] closingEffects

/-- What any successful call does. -/
theorem step_change {env : Env} {call : Call} {before after : Storage} {value : Val}
    {effects : List GovernorEffect}
    (performed : step (env, call) before = some ((value, effects), after)) :
    Change env before call value (invocations effects) after := by
  rw [step, Contract.invoke_eq_some] at performed
  cases call with
  | initializeGovernor owner targetAccount delay =>
    obtain ⟨finished, isVoid⟩ := returnVoid_ok.mp performed
    obtain ⟨fresh, _, equal⟩ := initializeGovernor_ok.mp finished
    cases equal
    cases isVoid
    simpa using Change.initializeGovernor fresh
  | proposeUpgrade newWasmHash attestation =>
    simp only [dispatch, bind_ok, pure_ok, Prod.mk.injEq] at performed
    obtain ⟨id, _, proposed, rfl, rfl⟩ := performed
    obtain ⟨owner, authority, metadata, executeAfter, timelock, nextId, advanced, equal⟩ :=
      proposeUpgrade_ok.mp proposed
    cases equal
    simpa using Change.proposeUpgrade authority metadata rfl advanced timelock
  | executeUpgrade id =>
    obtain ⟨finished, isVoid⟩ := returnVoid_ok.mp performed
    obtain ⟨proposal, target, executable, equal⟩ := executeUpgrade_ok.mp finished
    cases equal
    cases isVoid
    simpa using Change.executeUpgrade executable
  | cancelUpgrade id =>
    obtain ⟨finished, isVoid⟩ := returnVoid_ok.mp performed
    obtain ⟨owner, authority, proposal, pending, equal⟩ := cancelUpgrade_ok.mp finished
    cases equal
    cases isVoid
    simpa using Change.cancelUpgrade authority pending
  | setTimelockDelay newDelay =>
    obtain ⟨finished, isVoid⟩ := returnVoid_ok.mp performed
    obtain ⟨owner, authority, equal⟩ := setTimelockDelay_ok.mp finished
    cases equal
    cases isVoid
    simpa using Change.setTimelockDelay authority
  | updateMultisigConfig threshold signers =>
    obtain ⟨finished, isVoid⟩ := returnVoid_ok.mp performed
    obtain ⟨owner, authority, positive, short, enough, equal⟩ :=
      updateMultisigConfig_ok.mp finished
    cases equal
    cases isVoid
    simpa using Change.updateMultisigConfig authority positive short enough
  | submitMultisigSignature caller id =>
    obtain ⟨finished, isVoid⟩ := returnVoid_ok.mp performed
    obtain ⟨authorized, config, configured, member, proposal, pending, fresh, equal⟩ :=
      submitMultisigSignature_ok.mp finished
    cases equal
    cases isVoid
    simpa using Change.submitMultisigSignature authorized configured member pending fresh
  | executeMultisigUpgrade id =>
    obtain ⟨finished, isVoid⟩ := returnVoid_ok.mp performed
    obtain ⟨proposal, target, config, executable, approved, equal⟩ :=
      executeMultisigUpgrade_ok.mp finished
    cases equal
    cases isVoid
    simpa using Change.executeMultisigUpgrade executable approved
  | setContractValidation validation =>
    obtain ⟨finished, isVoid⟩ := returnVoid_ok.mp performed
    obtain ⟨owner, authority, equal⟩ := setContractValidation_ok.mp finished
    cases equal
    cases isVoid
    simpa using Change.setContractValidation authority

/-! ## Which calls succeed -/

section Succeeds

variable {env : Env} {storage : Storage} {id : UInt32}

theorem step_isSome_of_void {call : Call} {action : GovernorM Unit}
    (void : dispatch call = returnVoid action) :
    (step (env, call) storage).isSome ↔ ∃ done, action env ⟨storage, []⟩ = .ok done := by
  simp only [step, void, Option.isSome_iff_exists, Prod.exists, Contract.invoke_eq_some,
    returnVoid_ok]
  constructor
  · rintro ⟨_, effects, next, performed, _⟩
    exact ⟨(), ⟨next, effects⟩, performed⟩
  · rintro ⟨_, frame, performed⟩
    exact ⟨.void, frame.effects, frame.storage, performed, rfl⟩

theorem step_executeUpgrade_isSome :
    (step (env, .executeUpgrade id) storage).isSome ↔
      ∃ proposal target, Executable env storage id proposal target := by
  refine (step_isSome_of_void rfl).trans ?_
  simp only [executeUpgrade_ok]
  constructor
  · rintro ⟨_, proposal, target, executable, _⟩
    exact ⟨proposal, target, executable⟩
  · rintro ⟨proposal, target, executable⟩
    exact ⟨_, proposal, target, executable, rfl⟩

theorem step_executeMultisigUpgrade_isSome :
    (step (env, .executeMultisigUpgrade id) storage).isSome ↔
      (∃ proposal target, Executable env storage id proposal target) ∧
        ∃ config, Approved storage id config := by
  refine (step_isSome_of_void rfl).trans ?_
  simp only [executeMultisigUpgrade_ok]
  constructor
  · rintro ⟨_, proposal, target, config, executable, approved, _⟩
    exact ⟨⟨proposal, target, executable⟩, config, approved⟩
  · rintro ⟨⟨proposal, target, executable⟩, config, approved⟩
    exact ⟨_, proposal, target, config, executable, approved, rfl⟩

end Succeeds

/-! ## Transitions of the governor -/

/-- A successful call to the governor. -/
abbrev GovernorTransition := Transition Storage (Env × Call) (Val × List GovernorEffect)

namespace GovernorTransition

abbrev env (transition : GovernorTransition) : Env := transition.input.1

abbrev call (transition : GovernorTransition) : Call := transition.input.2

/-- What the call returned. -/
abbrev answer (transition : GovernorTransition) : Val := transition.output.1

/-- The contracts the call invoked, oldest first. -/
def invoked (transition : GovernorTransition) : List Invocation :=
  invocations transition.output.2

theorem change {transition : GovernorTransition} (performed : transition.Performed step) :
    Change transition.env transition.before transition.call transition.answer transition.invoked
      transition.after :=
  step_change performed

end GovernorTransition

end Ancore.Upgrade
