import Ancore.Approvals.Endings

/-! # Decisions of the user and what a page receives

What a page receives goes back to an approval of its request, or to an origin that
had access already (`fulfilled_goes_back`).  The other way round a handler that waits
follows the decision: a rejection rejects its promise at once, an approval starts the
signer of its method, and the end of that signer settles the promise.
-/

namespace Ancore.Approvals

open Ancore.Library

/-- The user approves what a signer is then started for. -/
def ApprovalMessage.approves : ApprovalMessage → Bool
  | .approveSignRequest | .approveAuthEntryRequest => true
  | _ => false

abbrev Past : Type := List (Transition Extension Event Unit)

/-- The user approved the request after it was enqueued. -/
def ApprovedIn (past : Past) (id : RequestId) : Prop :=
  ∃ transition ∈ past, ∃ message : ApprovalMessage, transition.input = .message id message ∧
    message.approves = true ∧ (transition.before.entries id).pendingApproval.isSome = true

/-- The origin asked for access that it had already. -/
def AdmittedIn (past : Past) (id : RequestId) (request : ExternalRequest) : Prop :=
  request.method = .requestAccess ∧ ∃ transition ∈ past, ∃ now publicKey,
    transition.input = .checked id now publicKey ∧
      (transition.before.entries id).handler = .checking request ∧
      transition.before.allowlist request.grant = true

/-! ## Only what was approved is fulfilled -/

/-- What there is of a request goes back to an approval. -/
structure GoesBack (past : Past) (id : RequestId) (entry : Entry) : Prop where
  working : entry.signings ≠ [] → ApprovedIn past id
  granting : ∀ request, entry.handler = .granting request → ApprovedIn past id
  fulfilled : ∀ request reply, entry.handler = .fulfilled request reply →
    request.method ≠ .requestSessionKey → AdmittedIn past id request ∨ ApprovedIn past id

section Settle

variable {entry : Entry} {handler : Handler} {error : Thrown} {request : ExternalRequest}
  {reply : Reply}

theorem granting_of_reject (granting : handler.reject error = .granting request) :
    handler = .granting request := by
  cases handler with
  | waiting => cases granting
  | _ => exact granting

theorem fulfilled_of_reject (fulfilled : handler.reject error = .fulfilled request reply) :
    handler = .fulfilled request reply := by
  cases handler with
  | waiting => cases fulfilled
  | _ => exact fulfilled

end Settle

namespace GoesBack

variable {past : Past} {id : RequestId} {entry : Entry}

theorem empty : GoesBack [] id .empty where
  working := fun working => absurd rfl working
  granting := fun _ granting => by cases granting
  fulfilled := fun _ _ fulfilled => by cases fulfilled

theorem of_approved (approved : ApprovedIn past id) : GoesBack past id entry where
  working := fun _ => approved
  granting := fun _ _ => approved
  fulfilled := fun _ _ _ _ => .inr approved

theorem later (back : GoesBack past id entry) (transition : Transition Extension Event Unit) :
    GoesBack (past ++ [transition]) id entry := by
  have approved : ApprovedIn past id → ApprovedIn (past ++ [transition]) id := by
    intro ⟨earlier, member, approval⟩
    exact ⟨earlier, List.mem_append_left _ member, approval⟩
  constructor
  case working => exact fun working => approved (back.working working)
  case granting => exact fun request granting => approved (back.granting request granting)
  case fulfilled =>
    intro request reply fulfilled notKey
    obtain ⟨access, earlier, member, admission⟩ | earlier :=
      back.fulfilled request reply fulfilled notKey
    · exact .inl ⟨access, earlier, List.mem_append_left _ member, admission⟩
    · exact .inr (approved earlier)

/-- Nothing is granted or fulfilled that was not before. -/
theorem fewer (back : GoesBack past id entry) {after : Entry}
    (signings : after.signings ⊆ entry.signings)
    (granting : ∀ request, after.handler = .granting request → entry.handler = .granting request)
    (fulfilled : ∀ request reply, after.handler = .fulfilled request reply →
      request.method ≠ .requestSessionKey → entry.handler = .fulfilled request reply) :
    GoesBack past id after where
  working := by
    intro working
    apply back.working
    intro nothing
    rw [nothing] at signings
    exact working (List.subset_nil.mp signings)
  granting := fun request waits => back.granting request (granting request waits)
  fulfilled := fun request reply done notKey =>
    back.fulfilled request reply (fulfilled request reply done notKey) notKey

theorem rejectRequest (back : GoesBack past id entry) (error : Thrown) :
    GoesBack past id (entry.rejectRequest error) := by
  have signings : (entry.rejectRequest error).signings ⊆ entry.signings := List.Subset.refl _
  apply back.fewer signings
  · intro request granting
    simp only [Entry.rejectRequest] at granting
    split at granting
    · exact granting_of_reject granting
    · exact granting
  · intro request reply fulfilled _
    simp only [Entry.rejectRequest] at fulfilled
    split at fulfilled
    · exact fulfilled_of_reject fulfilled
    · exact fulfilled

theorem sweepStaleRequests (back : GoesBack past id entry) (now : Millis) :
    GoesBack past id (entry.sweepStaleRequests now) := by
  unfold Entry.sweepStaleRequests
  split
  · exact back.rejectRequest "Request timed out"
  · exact back

/-- The handler goes on to something that is not granted or fulfilled yet. -/
theorem proceeds (back : GoesBack past id entry) {after : Entry}
    (signings : after.signings = entry.signings)
    (granting : ∀ request, after.handler ≠ .granting request)
    (fulfilled : ∀ request reply, request.method ≠ .requestSessionKey →
      after.handler ≠ .fulfilled request reply) : GoesBack past id after :=
  back.fewer (by rw [signings]; exact List.Subset.refl _)
    (fun request waits => absurd waits (granting request))
    (fun request reply done notKey => absurd done (fulfilled request reply notKey))

theorem receive {transition : Transition Extension Event Unit} {message : ApprovalMessage}
    (back : GoesBack (past ++ [transition]) id (transition.before.entries id))
    (input : transition.input = .message id message) :
    GoesBack (past ++ [transition]) id ((transition.before.entries id).receive message) := by
  have approved {approval : ApprovalQueueEntry}
      (found : (transition.before.entries id).pendingApproval = some approval)
      (approves : message.approves = true) : ApprovedIn (past ++ [transition]) id := by
    refine ⟨transition, List.mem_append_right _ (List.mem_singleton_self _), message, input,
      approves, ?_⟩
    rw [found]
    rfl
  cases message with
  | approveSignRequest =>
    simp only [Entry.receive]
    split
    · exact back.rejectRequest _
    · rename_i approval found
      exact .of_approved (approved found rfl)
  | approveAuthEntryRequest =>
    simp only [Entry.receive]
    split
    · exact back.rejectRequest _
    · rename_i approval found
      exact .of_approved (approved found rfl)
  | rejectSignRequest => exact back.rejectRequest _
  | rejectAuthEntryRequest => exact back.rejectRequest _
  | approveAccessRequest => exact back
  | rejectAccessRequest => exact back

theorem change {transition : Transition Extension Event Unit} {after : Entry}
    (back : GoesBack past id (transition.before.entries id))
    (changed : Change transition.before id (transition.before.entries id) transition.input after) :
    GoesBack (past ++ [transition]) id after := by
  have recorded : transition ∈ past ++ [transition] :=
    List.mem_append_right _ (List.mem_singleton_self _)
  have signed {signing : Signing} (working : signing ∈ (transition.before.entries id).signings) :
      ApprovedIn (past ++ [transition]) id :=
    (back.later transition).working (List.ne_nil_of_mem working)
  have later := back.later transition
  obtain ⟨event, before, ⟨⟩, next⟩ := transition
  dsimp only at changed later signed back
  cases changed with
  | kept => exact later
  | swept _ now => exact later.sweepStaleRequests now
  | asked => exact later.proceeds rfl (fun _ => by simp) (fun _ _ _ => by simp)
  | refused => exact later.proceeds rfl (fun _ => by simp) (fun _ _ _ => by simp)
  | admitted request now publicKey checking access allowed =>
    constructor
    case working => exact later.working
    case granting => exact fun _ granting => by cases granting
    case fulfilled =>
      intro other reply fulfilled _
      cases fulfilled
      exact .inl ⟨access, _, recorded, now, publicKey, rfl, checking, allowed⟩
  | denied => exact later.proceeds rfl (fun _ => by simp) (fun _ _ _ => by simp)
  | enqueued request now publicKey =>
    refine (later.sweepStaleRequests now).proceeds rfl ?_ ?_
    · intro other
      simp only [ExternalRequest.enqueued]
      split <;> simp
    · intro other reply notKey
      simp only [ExternalRequest.enqueued]
      split
      · rename_i sessionKey
        rintro ⟨⟩
        exact notKey sessionKey
      · simp
  | opened request now =>
    exact (later.sweepStaleRequests now).proceeds rfl (fun _ => by simp) (fun _ _ _ => by simp)
  | notOpened => exact later.proceeds rfl (fun _ => by simp) (fun _ _ _ => by simp)
  | granted request granting => exact .of_approved (later.granting request granting)
  | received message => exact later.receive rfl
  | signerChecked signing unlocked passphrase working => exact .of_approved (signed working)
  | signerRefused signing unlocked error working => exact .of_approved (signed working)
  | signed signing passphrase ledger made working => exact .of_approved (signed working)
  | notSigned signing passphrase ledger error working => exact .of_approved (signed working)
  | expired =>
    exact later.fewer (List.Subset.refl _) (fun _ => granting_of_reject)
      (fun _ _ fulfilled _ => fulfilled_of_reject fulfilled)
  | closed => exact later.rejectRequest _

end GoesBack

/-- What a page receives goes back to an approval or an admission, in every run. -/
theorem goesBackInvariant (allowlist : Grant → Bool) (network : NetworkMode)
    (contractAddress : Option String) :
    HistoryInvariant step (.start allowlist network contractAddress)
      fun past extension => ∀ id, GoesBack past id (extension.entries id) where
  init := fun _ => .empty
  preserved := fun _ _ current performed id => (current id).change (change_of_step performed id)

/-! ## What a waiting handler does with a decision -/

/-- The methods whose requests a signer answers. -/
def Method.signs : Method → Bool
  | .signTransaction | .signAuthEntry | .signMessage | .signRelayPayload => true
  | .requestAccess | .requestSessionKey => false

/-- What the screen of a method sends when the user approves. -/
def Method.approval : Method → ApprovalMessage
  | .signAuthEntry => .approveAuthEntryRequest
  | _ => .approveSignRequest

/-- What the screen of a method sends when the user rejects. -/
def Method.rejection : Method → ApprovalMessage
  | .signAuthEntry => .rejectAuthEntryRequest
  | _ => .rejectSignRequest

/-- The error of a rejection. -/
def Method.rejected : Method → Thrown
  | .signAuthEntry => "User rejected the auth entry sign request"
  | _ => "User rejected the sign request"

/-- The signer that the approval of a method starts. -/
def Method.approvalSigner : Method → Signer
  | .signAuthEntry => .signAuthEntry
  | method => method.signer

/-- A handler that waits follows what the user decides and what the signer comes to. -/
structure Follows (transition : Transition Extension Event Unit) (id : RequestId)
    (request : ExternalRequest) : Prop where
  rejected : transition.input = .message id request.method.rejection →
    (transition.after.entries id).handler = .failed request request.method.rejected
  approved : transition.input = .message id request.method.approval →
    (transition.before.entries id).pendingApproval.isSome = true →
      (transition.after.entries id).handler = .waiting request ∧
        (transition.after.entries id).signings =
          ⟨request.method.approvalSigner, request.params, none⟩ ::
            (transition.before.entries id).signings
  signed : ∀ signing passphrase ledger made,
    transition.input = .signerEnded id signing passphrase ledger (.ok made) →
      (transition.after.entries id).handler =
        .fulfilled request (.signed (signing.result passphrase ledger made))
  notSigned : ∀ signing passphrase ledger error,
    transition.input = .signerEnded id signing passphrase ledger (.error error) →
      (transition.after.entries id).handler = .failed request error
  refused : ∀ signing unlocked error, transition.input = .signerChecked id signing unlocked →
    signing.check unlocked transition.before.network = .error error →
      (transition.after.entries id).handler = .failed request error

section Performed

variable {before after : Extension} {output : Unit} {id : RequestId} {signing : Signing}
  {passphrase : Option String} {ledger unlocked : Bool} {error : Thrown}

theorem entries_of_message {message : ApprovalMessage}
    (performed : step (.message id message) before = some (output, after)) :
    after.entries id = (before.entries id).receive message := by
  cases performed
  rw [modify_entries, if_pos rfl]

theorem entries_of_signed {made : Made}
    (performed : step (.signerEnded id signing passphrase ledger (.ok made)) before =
      some (output, after)) :
    after.entries id = { (before.entries id).resolveRequest (signing.result passphrase ledger made)
      with signings := (before.entries id).signings.erase signing } := by
  simp only [step] at performed
  split at performed
  · cases performed
    rw [Extension.endSigning, modify_entries, if_pos rfl]
  · cases performed

theorem entries_of_notSigned
    (performed : step (.signerEnded id signing passphrase ledger (.error error)) before =
      some (output, after)) :
    after.entries id = { (before.entries id).rejectRequest error with
      signings := (before.entries id).signings.erase signing } := by
  simp only [step] at performed
  split at performed
  · cases performed
    rw [Extension.endSigning, modify_entries, if_pos rfl]
  · cases performed

theorem entries_of_refused
    (performed : step (.signerChecked id signing unlocked) before = some (output, after))
    (invalid : signing.check unlocked before.network = .error error) :
    after.entries id = { (before.entries id).rejectRequest error with
      signings := (before.entries id).signings.erase signing } := by
  simp only [step] at performed
  split at performed
  · cases performed
    rw [Extension.checkSigning, modify_entries, if_pos rfl, invalid]
  · cases performed

end Performed

section Waiting

variable {entry : Entry} {request : ExternalRequest}

theorem reject_of_waiting (coherent : entry.Coherent) (waiting : entry.handler = .waiting request)
    (error : Thrown) : (entry.rejectRequest error).handler = .failed request error := by
  simp only [Entry.rejectRequest, coherent.waits request waiting, if_true, waiting, Handler.reject]

theorem resolve_of_waiting (coherent : entry.Coherent) (waiting : entry.handler = .waiting request)
    (signs : request.method.signs = true) (result : SignerResult) :
    (entry.resolveRequest result).handler = .fulfilled request (.signed result) := by
  have notAccess : request.method ≠ .requestAccess := by
    intro access
    rw [access] at signs
    cases signs
  simp only [Entry.resolveRequest, coherent.waits request waiting, if_true, waiting,
    Handler.resolve, if_neg notAccess]

end Waiting

/-- A request that has not come to its end got past the checks of its handler. -/
def Handler.Checked (handler : Handler) : Prop :=
  ∀ request, handler = .checking request ∨ handler = .opening request ∨ handler = .waiting request →
    ∃ now, request.refusal now = none

theorem given_of_no_issues {field : String} {value : Option String}
    (none : issuesOf field value = []) : ∃ text, value = some text ∧ text ≠ "" := by
  cases value with
  | none => cases none
  | some text =>
    refine ⟨text, rfl, ?_⟩
    intro empty
    rw [issuesOf, if_pos empty] at none
    cases none

theorem authEntry_of_refusal {request : ExternalRequest} {now : Millis}
    (method : request.method = .signAuthEntry) (valid : request.refusal now = none) :
    orDefault request.params.authEntry "" ≠ "" := by
  unfold ExternalRequest.refusal at valid
  rw [method] at valid
  obtain ⟨issues, -⟩ := Option.or_eq_none_iff.mp valid
  unfold invalidParams at issues
  split at issues
  · rename_i noIssues
    obtain ⟨text, given, notEmpty⟩ := given_of_no_issues noIssues
    rw [given, orDefault, if_neg notEmpty]
    exact notEmpty
  · cases issues

namespace Handler.Checked

variable {entry : Entry}

theorem reject {handler : Handler} (checked : handler.Checked) (error : Thrown) :
    (handler.reject error).Checked := by
  cases handler with
  | waiting request => simp [Handler.reject, Handler.Checked]
  | _ => exact checked

theorem resolve {handler : Handler} (checked : handler.Checked) (result : SignerResult) :
    (handler.resolve result).Checked := by
  cases handler with
  | waiting request =>
    simp only [Handler.resolve]
    split <;> simp [Handler.Checked]
  | _ => exact checked

theorem rejectRequest (checked : entry.handler.Checked) (error : Thrown) :
    (entry.rejectRequest error).handler.Checked := by
  simp only [Entry.rejectRequest]
  split
  · exact checked.reject error
  · exact checked

theorem sweepStaleRequests (checked : entry.handler.Checked) (now : Millis) :
    (entry.sweepStaleRequests now).handler.Checked := by
  unfold Entry.sweepStaleRequests
  split
  · exact checked.rejectRequest "Request timed out"
  · exact checked

theorem receive (checked : entry.handler.Checked) (message : ApprovalMessage) :
    (entry.receive message).handler.Checked := by
  cases message with
  | approveSignRequest =>
    simp only [Entry.receive]
    split
    · exact checked.rejectRequest _
    · exact checked
  | approveAuthEntryRequest =>
    simp only [Entry.receive]
    split
    · exact checked.rejectRequest _
    · split
      · exact checked.rejectRequest _
      · exact checked
  | rejectSignRequest => exact checked.rejectRequest _
  | rejectAuthEntryRequest => exact checked.rejectRequest _
  | approveAccessRequest => exact checked
  | rejectAccessRequest => exact checked

theorem change {extension : Extension} {id : RequestId} {event : Event} {after : Entry}
    (checked : entry.handler.Checked) (changed : Change extension id entry event after) :
    after.handler.Checked := by
  cases changed with
  | kept => exact checked
  | swept _ now => exact checked.sweepStaleRequests now
  | asked request now idle valid =>
    intro other early
    obtain ⟨⟨⟩⟩ | ⟨⟨⟩⟩ | ⟨⟨⟩⟩ := early
    exact ⟨now, valid⟩
  | enqueued request now publicKey checking =>
    intro other early
    simp only [ExternalRequest.enqueued] at early
    split at early
    · simp at early
    · simp only [reduceCtorEq, Handler.opening.injEq, false_or, or_false] at early
      exact checked other (.inl (early ▸ checking))
  | opened request now opening =>
    intro other early
    simp only [reduceCtorEq, Handler.waiting.injEq, false_or] at early
    exact checked other (.inr (.inl (early ▸ opening)))
  | received message => exact checked.receive message
  | signerChecked => exact checked
  | signerRefused signing unlocked error => exact checked.rejectRequest error
  | signed signing passphrase ledger made =>
    simp only [Entry.resolveRequest]
    split
    · exact checked.resolve _
    · exact checked
  | notSigned signing passphrase ledger error => exact checked.rejectRequest error
  | expired => exact checked.reject _
  | closed => exact checked.rejectRequest _
  | _ =>
    -- the promise is settled
    intro other early
    simp [ExternalRequest.access] at early

end Handler.Checked

/-- Every entry is coherent, and its request got past the checks, in every run. -/
theorem checkedInvariant (allowlist : Grant → Bool) (network : NetworkMode)
    (contractAddress : Option String) :
    HistoryInvariant step (.start allowlist network contractAddress)
      fun _ extension => ∀ id, (extension.entries id).handler.Checked :=
  stateInvariant (fun _ _ early => by simp [Extension.start, Entry.empty] at early)
    fun _ current performed id => (current id).change (change_of_step performed id)

theorem follows_of_performed {transition : Transition Extension Event Unit} {id : RequestId}
    {request : ExternalRequest} (performed : transition.Performed step)
    (coherent : (transition.before.entries id).Coherent)
    (checked : (transition.before.entries id).handler.Checked)
    (waiting : (transition.before.entries id).handler = .waiting request)
    (signs : request.method.signs = true) : Follows transition id request := by
  obtain ⟨event, before, output, after⟩ := transition
  dsimp only at performed coherent checked waiting
  constructor
  case rejected =>
    rintro ⟨⟩
    rw [entries_of_message performed]
    cases method : request.method with
    | signAuthEntry => exact reject_of_waiting coherent waiting _
    | requestAccess => rw [method] at signs; cases signs
    | requestSessionKey => rw [method] at signs; cases signs
    | _ => exact reject_of_waiting coherent waiting _
  case approved =>
    rintro ⟨⟩ pending
    dsimp only at pending
    obtain ⟨approval, found⟩ := Option.isSome_iff_exists.mp pending
    have asked := (coherent.pending approval found).1
    rw [waiting, Handler.request?, Option.some.injEq] at asked
    rw [entries_of_message performed]
    cases method : request.method with
    | signAuthEntry =>
      obtain ⟨now, valid⟩ := checked request (.inr (.inr waiting))
      have given := authEntry_of_refusal method valid
      rw [asked] at given
      simp only [Method.approval, Entry.receive, found, if_neg given, waiting, asked,
        Method.approvalSigner, and_self]
    | requestAccess => rw [method] at signs; cases signs
    | requestSessionKey => rw [method] at signs; cases signs
    | _ =>
      simp only [Method.approval, Entry.receive, found, waiting, Method.approvalSigner, ← asked,
        method, and_self]
  case signed =>
    rintro signing passphrase ledger made ⟨⟩
    rw [entries_of_signed performed]
    exact resolve_of_waiting coherent waiting signs _
  case notSigned =>
    rintro signing passphrase ledger error ⟨⟩
    rw [entries_of_notSigned performed]
    exact reject_of_waiting coherent waiting error
  case refused =>
    rintro signing unlocked error ⟨⟩ invalid
    rw [entries_of_refused performed invalid]
    exact reject_of_waiting coherent waiting error

/-- In every run, what a page receives goes back to an approval of its request or to access that it
had, and a handler of a signing request that waits follows what is decided. -/
theorem decisions_govern (allowlist : Grant → Bool) (network : NetworkMode)
    (contractAddress : Option String) (events : List Event) :
    (∀ id request reply,
      ((final step (.start allowlist network contractAddress) events).entries id).handler =
          .fulfilled request reply → request.method ≠ .requestSessionKey →
        AdmittedIn (history step (.start allowlist network contractAddress) events) id request ∨
          ApprovedIn (history step (.start allowlist network contractAddress) events) id) ∧
    ∀ transition ∈ history step (.start allowlist network contractAddress) events,
      ∀ id request, (transition.before.entries id).handler = .waiting request →
        request.method.signs = true → Follows transition id request := by
  constructor
  · intro id
    exact ((goesBackInvariant allowlist network contractAddress).holds_final events id).fulfilled
  · intro transition member id request waiting signs
    obtain ⟨earlier, later, located⟩ := List.append_of_mem member
    obtain ⟨coherent, performed⟩ :=
      (coherentInvariant allowlist network contractAddress).holds_before located
    have checked := ((checkedInvariant allowlist network contractAddress).holds_before located).1
    exact follows_of_performed performed (coherent id) (checked id) waiting signs

/-- An origin that has access asks for it again: the page is answered, and the user is not asked. -/
theorem access_without_approval :
    let request := accessRequest "https://dapp.example"
    let events : List Event := [.requested "1" request 0, .checked "1" 0 "key"]
    ((final step (.start (fun _ => true) .testnet none) events).entries "1").handler =
        .fulfilled request (.access defaultMockSmartAccountId "testnet") ∧
      ∀ event ∈ events, ∀ id message, event ≠ .message id message := by
  refine ⟨by decide +kernel, ?_⟩
  simp

end Ancore.Approvals
