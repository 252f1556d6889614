import Ancore.Approvals.Decisions

/-! # For which account and network a page gets a signature

The allowlist is asked about the account and the network that the page names; a
signer signs with the wallet's own.  Where both are the same whenever a request is
let in, and the network is not switched under a request, a page gets signatures only
for what it was granted (`signed_within_grant`).
-/

namespace Ancore.Approvals

open Ancore.Library

/-- The passphrase that a signature was made for, where it was made for one. -/
def SignerResult.passphrase? : SignerResult → Option String
  | .signedXdr _ passphrase | .requiresHardware _ passphrase | .signedAuthEntry _ passphrase =>
    some passphrase
  | .signature _ | .relaySignature _ _ => none

/-- The handler of a request that was let in awaits the window or the decision. -/
def Handler.Awaits (handler : Handler) (request : ExternalRequest) : Prop :=
  handler = .opening request ∨ handler = .waiting request

/-- When the request was let in, its origin was allowed for the wallet's own account on this
network, which was the active one. -/
def AcceptedIn (past : Past) (id : RequestId) (request : ExternalRequest) (network : NetworkMode) :
    Prop :=
  ∃ transition ∈ past, (∃ now publicKey, transition.input = .checked id now publicKey) ∧
    (transition.before.entries id).handler = .checking request ∧
    transition.before.network = network ∧
    ∃ address, transition.before.contractAddress = some address ∧
      transition.before.allowlist ⟨network.name, address, request.origin⟩ = true

/-- The page names the wallet's own network and account wherever a signing request is let in, and
the network stays while a request awaits its end. -/
def Event.NamesOwn (extension : Extension) : Event → Prop
  | .checked id _ _ => ∀ request, (extension.entries id).handler = .checking request →
      request.method.signs = true → extension.allowlist request.grant = true →
      request.grant.network = extension.network.name ∧
        extension.contractAddress = some request.grant.smartAccountId
  | .networkChanged network =>
    network = extension.network ∨ ∀ id request, ¬(extension.entries id).handler.Awaits request
  | _ => True

/-! ## One step -/

/-- A signer that has checked what it signs does so for this network, if for any. -/
def Signing.For (signing : Signing) (network : NetworkMode) : Prop :=
  ∀ passphrase, signing.checked = some passphrase →
    signing.signer = .signTransaction ∨ signing.signer = .signAuthEntry →
      passphrase = some network.passphrase

theorem passphrase_of_expected {params : Params} {network : NetworkMode}
    {passphrase : Option String} (valid : params.expectedPassphrase network = .ok passphrase) :
    passphrase = some network.passphrase := by
  unfold Params.expectedPassphrase at valid
  dsimp only at valid
  split at valid
  · rename_i same
    cases valid
    rw [same]
  · cases valid

theorem passphrase_of_check {signing : Signing} {unlocked : Bool} {network : NetworkMode}
    {passphrase : Option String} (valid : signing.check unlocked network = .ok passphrase)
    (signer : signing.signer = .signTransaction ∨ signing.signer = .signAuthEntry) :
    passphrase = some network.passphrase := by
  unfold Signing.check at valid
  cases signer with
  | inl transaction =>
    rw [transaction] at valid
    cases unlocked with
    | true => exact passphrase_of_expected valid
    | false => cases valid
  | inr authEntry =>
    rw [authEntry] at valid
    dsimp only at valid
    split at valid
    · cases valid
    · cases unlocked with
      | true => exact passphrase_of_expected valid
      | false => cases valid

/-- What a signer returns is for the network that it checked. -/
theorem passphrase_of_result {signing : Signing} {network : NetworkMode}
    {passphrase : Option String} {ledger : Bool} {made : Made} {made_for : String}
    (own : signing.For network) (checked : signing.checked = some passphrase)
    (made_for_eq : (signing.result passphrase ledger made).passphrase? = some made_for) :
    made_for = network.passphrase := by
  unfold Signing.result at made_for_eq
  split at made_for_eq
  · cases made_for_eq
  · cases made_for_eq
  · rename_i authEntry
    rw [own passphrase checked (.inr authEntry)] at made_for_eq
    cases made_for_eq
    rfl
  · rename_i transaction
    rw [own passphrase checked (.inl transaction)] at made_for_eq
    split at made_for_eq
    · cases made_for_eq
      rfl
    · cases made_for_eq
      rfl

section Settle

variable {handler : Handler} {entry : Entry} {error : Thrown} {request : ExternalRequest}
  {result other : SignerResult}

theorem awaits_of_reject (awaits : (handler.reject error).Awaits request) :
    handler.Awaits request := by
  cases handler with
  | waiting => simp [Handler.reject, Handler.Awaits] at awaits
  | _ => exact awaits

theorem awaits_of_resolve (awaits : (handler.resolve result).Awaits request) :
    handler.Awaits request := by
  cases handler with
  | waiting waited =>
    simp only [Handler.resolve] at awaits
    split at awaits <;> simp [Handler.Awaits] at awaits
  | _ => exact awaits

theorem awaits_of_resolveRequest (awaits : (entry.resolveRequest result).handler.Awaits request) :
    entry.handler.Awaits request := by
  simp only [Entry.resolveRequest] at awaits
  split at awaits
  · exact awaits_of_resolve awaits
  · exact awaits

theorem fulfilled_of_resolve
    (fulfilled : handler.resolve result = .fulfilled request (.signed other)) :
    handler = .waiting request ∧ other = result ∨
      handler = .fulfilled request (.signed other) := by
  cases handler with
  | waiting waited =>
    simp only [Handler.resolve] at fulfilled
    split at fulfilled
    · cases fulfilled
    · cases fulfilled
      exact .inl ⟨rfl, rfl⟩
  | _ => exact .inr fulfilled

theorem opening_of_sweep (opening : entry.handler = .opening request) (now : Millis) :
    (entry.sweepStaleRequests now).handler = .opening request := by
  unfold Entry.sweepStaleRequests
  split
  · simp only [Entry.rejectRequest, opening, Handler.reject, ite_self]
  · exact opening

end Settle

/-- What a request is bound to from the moment it is let in. -/
structure Bound (past : Past) (network : NetworkMode) (id : RequestId) (entry : Entry) : Prop where
  accepted : ∀ request, entry.handler.Awaits request → request.method.signs = true →
    AcceptedIn past id request network
  working : ∀ request, entry.handler.Awaits request → ∀ signing ∈ entry.signings,
    signing.For network
  fulfilled : ∀ request result, entry.handler = .fulfilled request (.signed result) →
    request.method.signs = true → ∃ network, AcceptedIn past id request network ∧
      ∀ passphrase, result.passphrase? = some passphrase → passphrase = network.passphrase

namespace Bound

variable {past : Past} {network : NetworkMode} {id : RequestId} {entry : Entry}

theorem empty : Bound past network id .empty where
  accepted := fun _ awaits => by simp [Entry.empty, Handler.Awaits] at awaits
  working := fun _ awaits => by simp [Entry.empty, Handler.Awaits] at awaits
  fulfilled := fun _ _ fulfilled => by cases fulfilled

/-- Nothing awaits its end or is fulfilled that did or was not before. -/
theorem fewer (bound : Bound past network id entry) {after : Entry}
    (awaits : ∀ request, after.handler.Awaits request → entry.handler.Awaits request)
    (signings : after.signings ⊆ entry.signings)
    (fulfilled : ∀ request result, after.handler = .fulfilled request (.signed result) →
      entry.handler = .fulfilled request (.signed result)) : Bound past network id after where
  accepted := fun request waits => bound.accepted request (awaits request waits)
  working := fun request waits signing member =>
    bound.working request (awaits request waits) signing (signings member)
  fulfilled := fun request result done =>
    bound.fulfilled request result (fulfilled request result done)

theorem rejectRequest (bound : Bound past network id entry) (error : Thrown)
    {signings : List Signing} (fewer : signings ⊆ entry.signings) :
    Bound past network id { entry.rejectRequest error with signings := signings } := by
  refine bound.fewer ?_ fewer ?_
  · intro request awaits
    simp only [Entry.rejectRequest] at awaits
    split at awaits
    · exact awaits_of_reject awaits
    · exact awaits
  · intro request result fulfilled
    simp only [Entry.rejectRequest] at fulfilled
    split at fulfilled
    · exact fulfilled_of_reject fulfilled
    · exact fulfilled

theorem sweepStaleRequests (bound : Bound past network id entry) (now : Millis) :
    Bound past network id (entry.sweepStaleRequests now) := by
  unfold Entry.sweepStaleRequests
  split
  · exact bound.rejectRequest "Request timed out" (List.Subset.refl _)
  · exact bound

/-- A signer that starts has checked nothing yet. -/
theorem starts (bound : Bound past network id entry) (signer : Signer) (params : Params) :
    Bound past network id
      { entry with signings := ⟨signer, params, none⟩ :: entry.signings } where
  accepted := bound.accepted
  working := by
    intro request awaits signing member
    cases List.mem_cons.mp member with
    | inl first =>
      intro passphrase checked
      rw [first] at checked
      cases checked
    | inr later => exact bound.working request awaits signing later
  fulfilled := bound.fulfilled

theorem receive (bound : Bound past network id entry) (message : ApprovalMessage) :
    Bound past network id (entry.receive message) := by
  have rejected (error : Thrown) : Bound past network id (entry.rejectRequest error) :=
    bound.rejectRequest error (List.Subset.refl _)
  cases message with
  | approveSignRequest =>
    simp only [Entry.receive]
    split
    · exact rejected _
    · exact bound.starts _ _
  | approveAuthEntryRequest =>
    simp only [Entry.receive]
    split
    · exact rejected _
    · split
      · exact rejected _
      · exact bound.starts _ _
  | rejectSignRequest => exact rejected _
  | rejectAuthEntryRequest => exact rejected _
  | approveAccessRequest => exact bound
  | rejectAccessRequest => exact bound

theorem checked (bound : Bound past network id entry) {signing : Signing} {unlocked : Bool}
    {passphrase : Option String} (valid : signing.check unlocked network = .ok passphrase) :
    Bound past network id { entry with signings :=
      { signing with checked := some passphrase } :: entry.signings.erase signing } where
  accepted := bound.accepted
  working := by
    intro request awaits other member
    cases List.mem_cons.mp member with
    | inl first =>
      intro found checked signer
      rw [first] at checked signer
      cases checked
      exact passphrase_of_check valid signer
    | inr later => exact bound.working request awaits other (List.mem_of_mem_erase later)
  fulfilled := bound.fulfilled

theorem resolveRequest (bound : Bound past network id entry) {signing : Signing}
    (working : signing ∈ entry.signings) {passphrase : Option String}
    (checked : signing.checked = some passphrase) (ledger : Bool) (made : Made) :
    Bound past network id { entry.resolveRequest (signing.result passphrase ledger made) with
      signings := entry.signings.erase signing } := by
  constructor
  case accepted =>
    intro request awaits
    exact bound.accepted request (awaits_of_resolveRequest awaits)
  case working =>
    intro request awaits other member
    exact bound.working request (awaits_of_resolveRequest awaits) other
      (List.mem_of_mem_erase member)
  case fulfilled =>
    intro request result fulfilled signs
    simp only [Entry.resolveRequest] at fulfilled
    split at fulfilled
    · obtain ⟨waiting, same⟩ | before := fulfilled_of_resolve fulfilled
      · -- the handler was waiting, so the signer was bound to the network
        refine ⟨network, bound.accepted request (.inr waiting) signs, ?_⟩
        intro passphrase made_for
        rw [same] at made_for
        exact passphrase_of_result (bound.working request (.inr waiting) signing working) checked
          made_for
      · exact bound.fulfilled request result before signs
    · exact bound.fulfilled request result fulfilled signs

/-- The handler goes on to something that awaits nothing and is not signed. -/
theorem proceeds (bound : Bound past network id entry) {handler : Handler}
    (awaits : ∀ request, ¬handler.Awaits request)
    (fulfilled : ∀ request result, handler ≠ .fulfilled request (.signed result)) :
    Bound past network id { entry with handler := handler } :=
  bound.fewer (fun request waits => absurd waits (awaits request)) (List.Subset.refl _)
    (fun request result done => absurd done (fulfilled request result))

theorem change {transition : Transition Extension Event Unit} {after : Entry}
    (bound : Bound past transition.before.network id (transition.before.entries id))
    (coherent : (transition.before.entries id).Coherent)
    (changed : Change transition.before id (transition.before.entries id) transition.input after)
    (recorded : transition ∈ past) (own : transition.input.NamesOwn transition.before) :
    Bound past transition.before.network id after := by
  obtain ⟨event, before, ⟨⟩, next⟩ := transition
  dsimp only at changed bound own coherent ⊢
  cases changed with
  | kept => exact bound
  | swept _ now => exact bound.sweepStaleRequests now
  | enqueued request now publicKey checking enqueues =>
    have quiet : (before.entries id).handler.starts = true := by rw [checking]; rfl
    rw [coherent.sweep_of_quiet quiet]
    constructor
    case accepted =>
      intro other awaits signs
      have same : request = other := by
        simp only [ExternalRequest.enqueued] at awaits
        split at awaits
        · simp [Handler.Awaits] at awaits
        · simpa [Handler.Awaits] using awaits
      subst same
      have allowed : before.allowlist request.grant = true := by
        unfold ExternalRequest.enqueues at enqueues
        split at enqueues
        · rename_i access
          rw [access] at signs
          cases signs
        · exact enqueues
      obtain ⟨network, address⟩ := own request checking signs allowed
      refine ⟨_, recorded, ⟨now, publicKey, rfl⟩, checking, rfl, request.grant.smartAccountId,
        address, ?_⟩
      dsimp only
      rw [← network]
      exact allowed
    case working =>
      intro other _ signing member
      have nothing : (before.entries id).signings = [] := (coherent.quiet quiet).2.2
      simp only [Entry.enqueueApproval, nothing] at member
      cases member
    case fulfilled =>
      intro other result fulfilled
      simp only [ExternalRequest.enqueued] at fulfilled
      split at fulfilled <;> cases fulfilled
  | opened request now opening =>
    have swept := bound.sweepStaleRequests now
    have still := opening_of_sweep opening now
    constructor
    case accepted =>
      intro other awaits
      have same : request = other := by simpa [Handler.Awaits] using awaits
      exact swept.accepted other (.inl (same ▸ still))
    case working =>
      intro other awaits
      have same : request = other := by simpa [Handler.Awaits] using awaits
      exact swept.working other (.inl (same ▸ still))
    case fulfilled =>
      intro other result fulfilled
      cases fulfilled
  | received message => exact bound.receive message
  | signerChecked signing unlocked passphrase working valid => exact bound.checked valid
  | signerRefused signing unlocked error => exact bound.rejectRequest error List.erase_subset
  | signed signing passphrase ledger made working checked =>
    exact bound.resolveRequest working checked ledger made
  | notSigned signing passphrase ledger error =>
    exact bound.rejectRequest error List.erase_subset
  | expired =>
    exact bound.fewer (fun _ => awaits_of_reject) (List.Subset.refl _)
      (fun _ _ => fulfilled_of_reject)
  | closed => exact bound.rejectRequest _ (List.Subset.refl _)
  | _ =>
    exact bound.proceeds (fun _ => by simp [Handler.Awaits, ExternalRequest.access])
      (fun _ _ => by simp [ExternalRequest.access])

end Bound

/-- Only the user's choice changes the active network. -/
theorem network_of_step {event : Event} {before after : Extension} {output : Unit}
    (stepped : step event before = some (output, after)) :
    after.network = before.network ∨
      event = .networkChanged after.network ∧ after.entries = before.entries := by
  cases event with
  | networkChanged network =>
    cases stepped
    exact .inr ⟨rfl, rfl⟩
  | checked target now publicKey =>
    simp only [step] at stepped
    split at stepped
    · cases stepped
      unfold Extension.admitRequest
      dsimp only
      split <;> exact .inl rfl
    · cases stepped
  | windowClosed target =>
    simp only [step] at stepped
    split at stepped <;> (cases stepped; exact .inl rfl)
  | _ =>
    simp only [step] at stepped
    repeat' split at stepped
    all_goals cases stepped
    all_goals exact .inl rfl

/-! ## Runs -/

/-- Every request is bound to the active network. -/
def Extension.Bound (past : Past) (extension : Extension) : Prop :=
  ∀ id, (extension.entries id).Coherent ∧
    Approvals.Bound past extension.network id (extension.entries id)

theorem Extension.Bound.step {past : Past} {transition : Transition Extension Event Unit}
    (bound : transition.before.Bound past) (performed : transition.Performed step)
    (recorded : transition ∈ past) (own : transition.input.NamesOwn transition.before) :
    transition.after.Bound past := by
  intro id
  have changed := change_of_step performed id
  refine ⟨(bound id).1.change changed, ?_⟩
  have next := (bound id).2.change (bound id).1 changed recorded own
  cases network_of_step performed with
  | inl same =>
    rw [same]
    exact next
  | inr switched =>
    obtain ⟨input, entries⟩ := switched
    rw [input] at own
    cases own with
    | inl same =>
      rw [same]
      exact next
    | inr idle =>
      rw [entries]
      -- no request awaits its end, so none is bound to the network before
      exact {
        accepted := fun request awaits => absurd awaits (idle id request)
        working := fun request awaits => absurd awaits (idle id request)
        fulfilled := (bound id).2.fulfilled }

/-- The user approves the request, and its signer signs. -/
def untilSigned (id : RequestId) (request : ExternalRequest) (signature : String) : List Event :=
  untilWaiting id request ++ [.message id .approveSignRequest,
    .signerChecked id ⟨request.method.signer, request.params, none⟩ true,
    .signerEnded id ⟨request.method.signer, request.params, some none⟩ none false
      (.ok ⟨"key", signature⟩)]

end Ancore.Approvals
