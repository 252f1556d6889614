import Ancore.Approvals.Handlers
import Ancore.Library.Runs

/-! # What an event does to one request

`Change` lists all that an event can do to the entry of one request; `change_of_step`
is its inversion of `step`.  Every invariant of the entries is one case analysis on
`Change`, and `Coherent` collects those that hold in every run.
-/

namespace Ancore.Approvals

open Ancore.Library

/-- A request that is enqueued once the allowlist is known. -/
def ExternalRequest.enqueues (request : ExternalRequest) (allowed : Bool) : Bool :=
  if request.method = .requestAccess then !allowed else allowed

/-- When an event sweeps the stale requests, if it does. -/
def Event.sweepsAt (extension : Extension) : Event → Option Millis
  | .checked id now _ =>
    match (extension.entries id).handler with
    | .checking request =>
      if request.enqueues (extension.allowlist request.grant) then some now else none
    | _ => none
  | .opened _ (.ok ()) now => some now
  | .swept now => some now
  | _ => none

/-- How the handler goes on with a request that is enqueued. -/
def ExternalRequest.enqueued (request : ExternalRequest) (publicKey : String) : Handler :=
  if request.method = .requestSessionKey then
    .fulfilled request (.sessionKey publicKey (request.params.expiresAt.getD 0))
  else .opening request

/-- With what a request for access is fulfilled. -/
def ExternalRequest.access (request : ExternalRequest) : Handler :=
  .fulfilled request (.access request.grant.smartAccountId request.grant.network)

/-- What an event makes of the entry of a request. -/
inductive Change (extension : Extension) (id : RequestId) (entry : Entry) : Event → Entry → Prop
  | kept (event : Event) : Change extension id entry event entry
  | swept (event : Event) (now : Millis) (sweeps : event.sweepsAt extension = some now) :
      Change extension id entry event (entry.sweepStaleRequests now)
  | asked (request : ExternalRequest) (now : Millis) (idle : entry.handler = .idle)
      (valid : request.refusal now = none) :
      Change extension id entry (.requested id request now)
        { entry with handler := .checking request }
  | refused (request : ExternalRequest) (now : Millis) (error : Thrown)
      (idle : entry.handler = .idle) (invalid : request.refusal now = some error) :
      Change extension id entry (.requested id request now)
        { entry with handler := .failed request error }
  | admitted (request : ExternalRequest) (now : Millis) (publicKey : String)
      (checking : entry.handler = .checking request) (access : request.method = .requestAccess)
      (allowed : extension.allowlist request.grant = true) :
      Change extension id entry (.checked id now publicKey)
        { entry with handler := request.access }
  | denied (request : ExternalRequest) (now : Millis) (publicKey : String)
      (checking : entry.handler = .checking request)
      (unknown : extension.allowlist request.grant = false) :
      Change extension id entry (.checked id now publicKey)
        { entry with handler := .failed request "Origin not allowed. Call requestAccess first." }
  | enqueued (request : ExternalRequest) (now : Millis) (publicKey : String)
      (checking : entry.handler = .checking request)
      (enqueues : request.enqueues (extension.allowlist request.grant) = true) :
      Change extension id entry (.checked id now publicKey)
        { (entry.sweepStaleRequests now).enqueueApproval request now with
          handler := request.enqueued publicKey }
  | opened (request : ExternalRequest) (now : Millis) (opening : entry.handler = .opening request) :
      Change extension id entry (.opened id (.ok ()) now)
        { (entry.sweepStaleRequests now).waitForApproval now with handler := .waiting request }
  | notOpened (request : ExternalRequest) (now : Millis) (error : Thrown)
      (opening : entry.handler = .opening request) :
      Change extension id entry (.opened id (.error error) now)
        { entry with handler := .failed request error }
  | granted (request : ExternalRequest) (granting : entry.handler = .granting request) :
      Change extension id entry (.granted id) { entry with handler := request.access }
  | received (message : ApprovalMessage) :
      Change extension id entry (.message id message) (entry.receive message)
  | signerChecked (signing : Signing) (unlocked : Bool) (passphrase : Option String)
      (working : signing ∈ entry.signings)
      (valid : signing.check unlocked extension.network = .ok passphrase) :
      Change extension id entry (.signerChecked id signing unlocked)
        { entry with
          signings := { signing with checked := some passphrase } :: entry.signings.erase signing }
  | signerRefused (signing : Signing) (unlocked : Bool) (error : Thrown)
      (working : signing ∈ entry.signings)
      (invalid : signing.check unlocked extension.network = .error error) :
      Change extension id entry (.signerChecked id signing unlocked)
        { entry.rejectRequest error with signings := entry.signings.erase signing }
  | signed (signing : Signing) (passphrase : Option String) (ledger : Bool) (made : Made)
      (working : signing ∈ entry.signings) (checked : signing.checked = some passphrase) :
      Change extension id entry (.signerEnded id signing passphrase ledger (.ok made))
        { entry.resolveRequest (signing.result passphrase ledger made) with
          signings := entry.signings.erase signing }
  | notSigned (signing : Signing) (passphrase : Option String) (ledger : Bool) (error : Thrown)
      (working : signing ∈ entry.signings) :
      Change extension id entry (.signerEnded id signing passphrase ledger (.error error))
        { entry.rejectRequest error with signings := entry.signings.erase signing }
  | expired (timer : entry.timer = true) : Change extension id entry (.expired id) entry.expire
  | closed (pending : entry.pendingApproval.isSome = true) :
      Change extension id entry (.windowClosed id)
        (entry.rejectRequest "User closed approval window")

section Modify

variable {extension : Extension} {id : RequestId} {change : Entry → Entry} {event : Event}

theorem modify_entries (other : RequestId) : (extension.modify id change).entries other =
    if other = id then change (extension.entries id) else extension.entries other :=
  Function.update_apply ..

theorem change_of_modify
    (changed : Change extension id (extension.entries id) event (change (extension.entries id)))
    (other : RequestId) :
    Change extension other (extension.entries other) event
      ((extension.modify id change).entries other) := by
  rw [modify_entries]
  split
  · rename_i same
    rw [same]
    exact changed
  · exact .kept event

/-- The event sweeps all requests, and changes one. -/
theorem change_of_sweep {now : Millis} (sweeps : event.sweepsAt extension = some now)
    (changed : Change extension id (extension.entries id) event
      (change ((extension.entries id).sweepStaleRequests now)))
    (other : RequestId) :
    Change extension other (extension.entries other) event
      (((extension.sweep now).modify id change).entries other) := by
  rw [modify_entries]
  split
  · rename_i same
    rw [same]
    exact changed
  · exact .swept event now sweeps

variable {request : ExternalRequest} {now : Millis} {publicKey : String}

theorem change_of_enqueue (checking : (extension.entries id).handler = .checking request)
    (enqueues : request.enqueues (extension.allowlist request.grant) = true) (other : RequestId) :
    Change extension other (extension.entries other) (.checked id now publicKey)
      ((extension.enqueue id request now (request.enqueued publicKey)).entries other) := by
  apply change_of_sweep
  · simp only [Event.sweepsAt, checking, enqueues, if_true]
  · exact .enqueued request now publicKey checking enqueues

theorem change_of_admit (checking : (extension.entries id).handler = .checking request)
    (other : RequestId) :
    Change extension other (extension.entries other) (.checked id now publicKey)
      ((extension.admitRequest id request now publicKey).entries other) := by
  unfold Extension.admitRequest
  dsimp only
  split
  · rename_i access allowed
    exact change_of_modify (.admitted request now publicKey checking access allowed) other
  · rename_i method allowed
    have enqueued : request.enqueued publicKey = _ := if_pos method
    rw [← enqueued]
    exact change_of_enqueue checking (by simp [ExternalRequest.enqueues, method, allowed]) other
  · rename_i access unknown
    have enqueued : request.enqueued publicKey = .opening request := if_neg (by simp [access])
    rw [← enqueued]
    exact change_of_enqueue checking (by simp [ExternalRequest.enqueues, access, unknown]) other
  · rename_i allowed notAccess notSessionKey
    have enqueued : request.enqueued publicKey = .opening request :=
      if_neg notSessionKey
    rw [← enqueued]
    apply change_of_enqueue checking
    rw [ExternalRequest.enqueues, if_neg notAccess]
    exact allowed
  · rename_i unknown _
    exact change_of_modify (.denied request now publicKey checking unknown) other

end Modify

theorem change_of_step {event : Event} {before after : Extension} {output : Unit}
    (stepped : step event before = some (output, after)) (id : RequestId) :
    Change before id (before.entries id) event (after.entries id) := by
  cases event with
  | requested target request now =>
    simp only [step] at stepped
    split at stepped
    · rename_i idle valid
      cases stepped
      exact change_of_modify (.asked request now idle valid) id
    · rename_i error idle invalid
      cases stepped
      exact change_of_modify (.refused request now error idle invalid) id
    · cases stepped
  | checked target now publicKey =>
    simp only [step] at stepped
    split at stepped
    · rename_i request checking
      cases stepped
      exact change_of_admit checking id
    · cases stepped
  | opened target result now =>
    simp only [step] at stepped
    split at stepped
    · rename_i request opening
      cases stepped
      exact change_of_sweep rfl (.opened request now opening) id
    · rename_i request error opening
      cases stepped
      exact change_of_modify (.notOpened request now error opening) id
    · cases stepped
  | granted target =>
    simp only [step] at stepped
    split at stepped
    · rename_i request granting
      cases stepped
      have changed : Change before id (before.entries id) (.granted target)
          ((before.modify target fun entry =>
            { entry with handler := request.access }).entries id) :=
        change_of_modify (.granted request granting) id
      exact changed
    · cases stepped
  | message target message =>
    cases stepped
    exact change_of_modify (.received message) id
  | signerChecked target signing unlocked =>
    simp only [step] at stepped
    split at stepped
    · rename_i working
      cases stepped
      apply change_of_modify
      split
      · rename_i passphrase valid
        exact .signerChecked signing unlocked passphrase working.1 valid
      · rename_i error invalid
        exact .signerRefused signing unlocked error working.1 invalid
    · cases stepped
  | signerEnded target signing passphrase ledger made =>
    simp only [step] at stepped
    split at stepped
    · rename_i working
      cases stepped
      apply change_of_modify
      cases made with
      | ok made => exact .signed signing passphrase ledger made working.1 working.2
      | error error => exact .notSigned signing passphrase ledger error working.1
    · cases stepped
  | expired target =>
    simp only [step] at stepped
    split at stepped
    · rename_i timer
      cases stepped
      exact change_of_modify (.expired timer) id
    · cases stepped
  | windowClosed target =>
    simp only [step] at stepped
    split at stepped
    · rename_i pending
      cases stepped
      exact change_of_modify (.closed pending) id
    · cases stepped
      exact .kept _
  | swept now =>
    cases stepped
    exact .swept _ now rfl
  | siteChanged grant approved =>
    cases stepped
    exact .kept _
  | networkChanged network =>
    cases stepped
    exact .kept _
  | contractDeployed contractAddress =>
    cases stepped
    exact .kept _

/-! ## What is coherent in every run -/

/-- The request that a handler is at. -/
def Handler.request? : Handler → Option ExternalRequest
  | .idle => none
  | .checking request | .opening request | .waiting request | .granting request
  | .fulfilled request _ | .failed request _ => some request

/-- The request is not enqueued yet. -/
def Handler.starts : Handler → Bool
  | .idle | .checking _ => true
  | _ => false

section Settle

variable {handler : Handler} {error : Thrown} {result : SignerResult} {request : ExternalRequest}

@[simp] theorem request?_reject : (handler.reject error).request? = handler.request? := by
  cases handler <;> rfl

@[simp] theorem request?_resolve : (handler.resolve result).request? = handler.request? := by
  cases handler with
  | waiting request =>
    simp only [Handler.resolve]
    split <;> rfl
  | _ => rfl

@[simp] theorem starts_reject : (handler.reject error).starts = handler.starts := by
  cases handler <;> rfl

@[simp] theorem starts_resolve : (handler.resolve result).starts = handler.starts := by
  cases handler with
  | waiting request =>
    simp only [Handler.resolve]
    split <;> rfl
  | _ => rfl

theorem reject_ne_waiting : handler.reject error ≠ .waiting request := by
  cases handler <;> simp [Handler.reject]

theorem resolve_ne_waiting : handler.resolve result ≠ .waiting request := by
  cases handler with
  | waiting request =>
    simp only [Handler.resolve]
    split <;> simp
  | _ => simp [Handler.resolve]

theorem request?_rejectRequest {entry : Entry} :
    (entry.rejectRequest error).handler.request? = entry.handler.request? := by
  simp only [Entry.rejectRequest]
  split <;> simp

theorem starts_rejectRequest {entry : Entry} :
    (entry.rejectRequest error).handler.starts = entry.handler.starts := by
  simp only [Entry.rejectRequest]
  split <;> simp

theorem starts_resolveRequest {entry : Entry} :
    (entry.resolveRequest result).handler.starts = entry.handler.starts := by
  simp only [Entry.resolveRequest]
  split <;> simp

theorem request?_sweepStaleRequests {entry : Entry} (now : Millis) :
    (entry.sweepStaleRequests now).handler.request? = entry.handler.request? := by
  unfold Entry.sweepStaleRequests
  split
  · exact request?_rejectRequest
  · rfl

end Settle

structure Entry.Coherent (entry : Entry) : Prop where
  quiet : entry.handler.starts = true →
    entry.pendingApproval = none ∧ entry.responseCallbacks = none ∧ entry.signings = []
  waits : ∀ request, entry.handler = .waiting request → entry.responseCallbacks.isSome = true
  pending : ∀ approval, entry.pendingApproval = some approval →
    entry.handler.request? = some approval.request ∧ entry.session = some .pending
  working : ∀ signing ∈ entry.signings, ∃ request,
    entry.handler.request? = some request ∧ signing.params = request.params

namespace Entry.Coherent

variable {entry : Entry}

theorem empty : Entry.empty.Coherent where
  quiet := fun _ => ⟨rfl, rfl, rfl⟩
  waits := fun _ waiting => by cases waiting
  pending := fun _ found => by cases found
  working := fun _ member => by cases member

/-- What ends a request leaves nothing that waits for it. -/
theorem ends (coherent : entry.Coherent) {ended : Entry}
    (request : ended.handler.request? = entry.handler.request?)
    (starts : ended.handler.starts = entry.handler.starts)
    (settled : ∀ request, ended.handler ≠ .waiting request)
    (removed : ended.pendingApproval = none)
    (callbacks : entry.responseCallbacks = none → ended.responseCallbacks = none)
    (working : ended.signings ⊆ entry.signings) : ended.Coherent where
  quiet := by
    intro quiet
    rw [starts] at quiet
    obtain ⟨-, noCallbacks, noSignings⟩ := coherent.quiet quiet
    rw [noSignings] at working
    exact ⟨removed, callbacks noCallbacks, List.subset_nil.mp working⟩
  waits := fun request waiting => absurd waiting (settled request)
  pending := by
    intro approval found
    rw [removed] at found
    cases found
  working := by
    intro signing member
    rw [request]
    exact coherent.working signing (working member)

theorem rejectRequest (coherent : entry.Coherent) (error : Thrown) {signings : List Signing}
    (fewer : signings ⊆ entry.signings) :
    Entry.Coherent { entry.rejectRequest error with signings := signings } := by
  refine coherent.ends request?_rejectRequest starts_rejectRequest ?_ rfl
    (fun _ => rfl) fewer
  intro request
  simp only [Entry.rejectRequest]
  split
  · exact reject_ne_waiting
  · rename_i none
    exact mt (coherent.waits request) none

theorem resolveRequest (coherent : entry.Coherent) (result : SignerResult)
    {signings : List Signing} (fewer : signings ⊆ entry.signings) :
    Entry.Coherent { entry.resolveRequest result with signings := signings } := by
  refine coherent.ends ?_ ?_ ?_ rfl (fun _ => rfl) fewer
  · simp only [Entry.resolveRequest]
    split <;> simp
  · simp only [Entry.resolveRequest]
    split <;> simp
  · intro request
    simp only [Entry.resolveRequest]
    split
    · exact resolve_ne_waiting
    · rename_i none
      exact mt (coherent.waits request) none

theorem sweepStaleRequests (coherent : entry.Coherent) (now : Millis) :
    (entry.sweepStaleRequests now).Coherent := by
  unfold Entry.sweepStaleRequests
  split
  · exact coherent.rejectRequest "Request timed out" (List.Subset.refl _)
  · exact coherent

/-- A signer starts on what is pending. -/
theorem starts (coherent : entry.Coherent) {approval : ApprovalQueueEntry}
    (found : entry.pendingApproval = some approval) (signer : Signer) :
    Entry.Coherent
      { entry with signings := ⟨signer, approval.request.params, none⟩ :: entry.signings } where
  quiet := by
    intro quiet
    rw [(coherent.quiet quiet).1] at found
    cases found
  waits := coherent.waits
  pending := coherent.pending
  working := by
    intro signing member
    cases List.mem_cons.mp member with
    | inl first => exact ⟨approval.request, (coherent.pending approval found).1, by rw [first]⟩
    | inr later => exact coherent.working signing later

theorem receive (coherent : entry.Coherent) (message : ApprovalMessage) :
    (entry.receive message).Coherent := by
  have rejected (error : Thrown) : (entry.rejectRequest error).Coherent :=
    coherent.rejectRequest error (List.Subset.refl _)
  cases message with
  | approveSignRequest =>
    simp only [Entry.receive]
    split
    · exact rejected _
    · rename_i approval found
      exact coherent.starts found _
  | approveAuthEntryRequest =>
    simp only [Entry.receive]
    split
    · exact rejected _
    · rename_i approval found
      split
      · exact rejected _
      · exact coherent.starts found _
  | rejectSignRequest => exact rejected _
  | rejectAuthEntryRequest => exact rejected _
  | approveAccessRequest => exact coherent
  | rejectAccessRequest => exact coherent

theorem sweep_of_quiet (coherent : entry.Coherent) (quiet : entry.handler.starts = true)
    (now : Millis) : entry.sweepStaleRequests now = entry := by
  obtain ⟨noApproval, noCallbacks, -⟩ := coherent.quiet quiet
  have fresh : entry.stale now = false := by
    unfold Entry.stale
    rw [noApproval, noCallbacks]
    rfl
  rw [Entry.sweepStaleRequests, fresh]
  rfl

/-- The handler of an entry goes on while nothing else of it changes. -/
theorem proceeds (coherent : entry.Coherent) {handler : Handler}
    (request : handler.request? = entry.handler.request? ∨ entry.handler = .idle)
    (starts : handler.starts = true → entry.handler.starts = true)
    (notWaiting : ∀ request, handler ≠ .waiting request) :
    Entry.Coherent { entry with handler := handler } where
  quiet := fun quiet => coherent.quiet (starts quiet)
  waits := fun request waiting => absurd waiting (notWaiting request)
  pending := by
    intro approval found
    cases request with
    | inl same => exact same ▸ coherent.pending approval found
    | inr idle =>
      rw [(coherent.quiet (by rw [idle]; rfl)).1] at found
      cases found
  working := by
    intro signing member
    cases request with
    | inl same => exact same ▸ coherent.working signing member
    | inr idle =>
      rw [(coherent.quiet (by rw [idle]; rfl)).2.2] at member
      cases member

theorem enqueued (coherent : entry.Coherent) (quiet : entry.handler.starts = true)
    (request : ExternalRequest) (now : Millis) (publicKey : String) :
    Entry.Coherent
      { entry.enqueueApproval request now with handler := request.enqueued publicKey } where
  quiet := by
    intro starts
    simp only [ExternalRequest.enqueued] at starts
    split at starts <;> cases starts
  waits := by
    intro other waiting
    simp only [ExternalRequest.enqueued] at waiting
    split at waiting <;> cases waiting
  pending := by
    intro approval found
    cases found
    refine ⟨?_, rfl⟩
    simp only [ExternalRequest.enqueued]
    split <;> rfl
  working := by
    intro signing member
    have nothing : entry.signings = [] := (coherent.quiet quiet).2.2
    simp only [Entry.enqueueApproval, nothing] at member
    cases member

theorem opened (coherent : entry.Coherent) {request : ExternalRequest}
    (opening : entry.handler = .opening request) (now : Millis) :
    Entry.Coherent { (entry.sweepStaleRequests now).waitForApproval now with
      handler := .waiting request } := by
  have swept := coherent.sweepStaleRequests now
  have same : (entry.sweepStaleRequests now).handler.request? = some request := by
    rw [request?_sweepStaleRequests, opening]
    rfl
  constructor
  case quiet =>
    intro quiet
    cases quiet
  case waits =>
    intro _ _
    rfl
  case pending =>
    intro approval found
    have pending := swept.pending approval found
    rw [same] at pending
    exact pending
  case working =>
    intro signing member
    have working := swept.working signing member
    rw [same] at working
    exact working

/-- A signer goes on once it has checked what it signs. -/
theorem checked (coherent : entry.Coherent) {signing : Signing}
    (working : signing ∈ entry.signings) (passphrase : Option String) :
    Entry.Coherent { entry with signings :=
      { signing with checked := some passphrase } :: entry.signings.erase signing } where
  quiet := by
    intro quiet
    rw [(coherent.quiet quiet).2.2] at working
    cases working
  waits := coherent.waits
  pending := coherent.pending
  working := by
    intro other member
    cases List.mem_cons.mp member with
    | inl first =>
      obtain ⟨request, found, same⟩ := coherent.working signing working
      exact ⟨request, found, by rw [first, ← same]⟩
    | inr later => exact coherent.working other (List.mem_of_mem_erase later)

theorem change {extension : Extension} {id : RequestId} {event : Event} {after : Entry}
    (coherent : entry.Coherent) (changed : Change extension id entry event after) :
    after.Coherent := by
  cases changed with
  | kept => exact coherent
  | swept _ now => exact coherent.sweepStaleRequests now
  | asked request now idle =>
    exact coherent.proceeds (.inr idle) (fun _ => by rw [idle]; rfl) (fun _ => by simp)
  | refused request now error idle =>
    exact coherent.proceeds (.inr idle) (fun _ => by rw [idle]; rfl) (fun _ => by simp)
  | admitted request now publicKey checking =>
    exact coherent.proceeds (.inl (by rw [checking]; rfl)) (fun _ => by rw [checking]; rfl)
      (fun _ => by simp [ExternalRequest.access])
  | denied request now publicKey checking =>
    exact coherent.proceeds (.inl (by rw [checking]; rfl)) (fun _ => by rw [checking]; rfl)
      (fun _ => by simp)
  | enqueued request now publicKey checking =>
    have quiet : entry.handler.starts = true := by rw [checking]; rfl
    rw [coherent.sweep_of_quiet quiet]
    exact coherent.enqueued quiet request now publicKey
  | opened request now opening => exact coherent.opened opening now
  | notOpened request now error opening =>
    exact coherent.proceeds (.inl (by rw [opening]; rfl)) (fun quiet => by cases quiet)
      (fun _ => by simp)
  | granted request granting =>
    exact coherent.proceeds (.inl (by rw [granting]; rfl)) (fun quiet => by cases quiet)
      (fun _ => by simp [ExternalRequest.access])
  | received message => exact coherent.receive message
  | signerChecked signing unlocked passphrase working =>
    exact coherent.checked working passphrase
  | signerRefused signing unlocked error =>
    exact coherent.rejectRequest error (List.erase_subset)
  | signed signing passphrase ledger made =>
    exact coherent.resolveRequest _ (List.erase_subset)
  | notSigned signing passphrase ledger error =>
    exact coherent.rejectRequest error (List.erase_subset)
  | expired =>
    exact coherent.ends request?_reject starts_reject (fun _ => reject_ne_waiting) rfl
      (fun none => none) (List.Subset.refl _)
  | closed => exact coherent.rejectRequest _ (List.Subset.refl _)

end Entry.Coherent

/-- Every entry is coherent in every run. -/
theorem coherentInvariant (allowlist : Grant → Bool) (network : NetworkMode)
    (contractAddress : Option String) :
    HistoryInvariant step (.start allowlist network contractAddress)
      fun _ extension => ∀ id, (extension.entries id).Coherent :=
  stateInvariant (fun _ => .empty) fun _ current performed id =>
    (current id).change (change_of_step performed id)

end Ancore.Approvals
