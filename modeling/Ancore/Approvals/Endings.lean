import Ancore.Approvals.Changes

/-! # How often a request ends

Messages, signers, timers, sweeps and the closing of the window all write the
session entry of a request, whether it has ended or not.  Where everything that
decides about a request finds it undecided, an entry that has ended stays as it is
(`ending_kept`): the signer is then the only one left to end a request that the user
approved.
-/

namespace Ancore.Approvals

open Ancore.Library

/-! ## Deciding -/

/-- The entry is not polled any more. -/
def SessionQueueEntry.isFinal : SessionQueueEntry → Bool
  | .pending => false
  | .resolved _ | .rejected _ | .timedOut => true

def Entry.ended (entry : Entry) : Bool := entry.session.any SessionQueueEntry.isFinal

/-- The request is pending, and no signer is at work for it. -/
def Entry.undecided (entry : Entry) : Bool :=
  entry.pendingApproval.isSome && entry.signings.isEmpty

/-- The listener of the service worker knows the message. -/
def ApprovalMessage.known : ApprovalMessage → Bool
  | .approveAccessRequest | .rejectAccessRequest => false
  | _ => true

/-- The event decides about the request: the user, the timer, the closing of the window or a sweep
that finds it stale. -/
def Event.decides (extension : Extension) (id : RequestId) (event : Event) : Bool :=
  (match event with
    | .message target decision => target = id && decision.known
    | .expired target => target = id
    | .windowClosed target => target = id && (extension.entries id).pendingApproval.isSome
    | _ => false) ||
  (event.sweepsAt extension).any (extension.entries id).stale

/-- Whatever the event decides about is undecided. -/
def Event.DecidesOnce (extension : Extension) (event : Event) : Prop :=
  ∀ id, event.decides extension id = true → (extension.entries id).undecided = true

/-! ## One step -/

/-- A signer is at work only for a request that is pending, and it is the only one. -/
structure Entry.Single (entry : Entry) : Prop where
  coherent : entry.Coherent
  atWork : entry.signings ≠ [] → entry.pendingApproval.isSome = true
  alone : entry.signings.length ≤ 1
  fresh : entry.handler.starts = true → entry.session = none

namespace Entry

variable {entry : Entry}

theorem undecided_iff : entry.undecided = true ↔
    entry.pendingApproval.isSome = true ∧ entry.signings = [] := by
  rw [undecided, Bool.and_eq_true, List.isEmpty_iff]

theorem Coherent.not_ended (coherent : entry.Coherent)
    (pending : entry.pendingApproval.isSome = true) : entry.ended = false := by
  obtain ⟨approval, found⟩ := Option.isSome_iff_exists.mp pending
  rw [Entry.ended, (coherent.pending approval found).2]
  rfl

namespace Single

theorem empty : Entry.empty.Single where
  coherent := .empty
  atWork := fun working => absurd rfl working
  alone := Nat.zero_le 1
  fresh := fun _ => rfl

/-- What ends a request leaves no signer behind. -/
theorem ends (single : entry.Single) {ended : Entry} (coherent : ended.Coherent)
    (starts : ended.handler.starts = entry.handler.starts)
    (quiet : ended.signings = []) (pending : entry.pendingApproval.isSome = true) :
    ended.Single where
  coherent := coherent
  atWork := fun working => absurd quiet working
  alone := by
    rw [quiet]
    exact Nat.zero_le 1
  fresh := by
    intro quiet
    rw [starts] at quiet
    rw [(single.coherent.quiet quiet).1] at pending
    cases pending

/-- The handler goes on while nothing else changes. -/
theorem proceeds (single : entry.Single) {handler : Handler}
    (coherent : Entry.Coherent { entry with handler := handler })
    (starts : handler.starts = true → entry.handler.starts = true) :
    Entry.Single { entry with handler := handler } where
  coherent := coherent
  atWork := single.atWork
  alone := single.alone
  fresh := fun quiet => single.fresh (starts quiet)

theorem erase_eq_nil (single : entry.Single) {signing : Signing}
    (working : signing ∈ entry.signings) : entry.signings.erase signing = [] := by
  have length := List.length_erase_of_mem working
  have alone := single.alone
  exact List.length_eq_zero_iff.mp (by omega)

theorem rejectRequest (single : entry.Single) (error : Thrown)
    (undecided : entry.undecided = true) : (entry.rejectRequest error).Single := by
  obtain ⟨pending, quiet⟩ := undecided_iff.mp undecided
  exact single.ends (single.coherent.rejectRequest error (List.Subset.refl _))
    starts_rejectRequest quiet pending

theorem sweepStaleRequests (single : entry.Single) {now : Millis}
    (undecided : entry.stale now = true → entry.undecided = true) :
    (entry.sweepStaleRequests now).Single := by
  unfold Entry.sweepStaleRequests
  split
  · rename_i stale
    exact single.rejectRequest _ (undecided stale)
  · exact single

theorem starts (single : entry.Single) {approval : ApprovalQueueEntry}
    (found : entry.pendingApproval = some approval) (signer : Signer)
    (undecided : entry.undecided = true) :
    Entry.Single
      { entry with signings := ⟨signer, approval.request.params, none⟩ :: entry.signings } where
  coherent := single.coherent.starts found signer
  atWork := fun _ => by
    rw [found]
    rfl
  alone := by
    rw [(undecided_iff.mp undecided).2]
    exact Nat.le_refl 1
  fresh := single.fresh

theorem receive (single : entry.Single) {message : ApprovalMessage}
    (undecided : message.known = true → entry.undecided = true) :
    (entry.receive message).Single := by
  cases message with
  | approveSignRequest =>
    simp only [Entry.receive]
    split
    · exact single.rejectRequest _ (undecided rfl)
    · rename_i approval found
      exact single.starts found _ (undecided rfl)
  | approveAuthEntryRequest =>
    simp only [Entry.receive]
    split
    · exact single.rejectRequest _ (undecided rfl)
    · rename_i approval found
      split
      · exact single.rejectRequest _ (undecided rfl)
      · exact single.starts found _ (undecided rfl)
  | rejectSignRequest => exact single.rejectRequest _ (undecided rfl)
  | rejectAuthEntryRequest => exact single.rejectRequest _ (undecided rfl)
  | approveAccessRequest => exact single
  | rejectAccessRequest => exact single

end Single

end Entry

section Step

variable {extension : Extension} {id : RequestId} {event : Event} {after : Entry}

theorem undecided_of_stale (once : event.DecidesOnce extension) {now : Millis}
    (sweeps : event.sweepsAt extension = some now)
    (stale : (extension.entries id).stale now = true) :
    (extension.entries id).undecided = true := by
  apply once id
  refine (Bool.or_eq_true _ _).mpr (.inr ?_)
  rw [sweeps]
  exact stale

theorem Entry.Single.change (single : (extension.entries id).Single)
    (changed : Change extension id (extension.entries id) event after)
    (once : event.DecidesOnce extension) : after.Single := by
  have coherent := single.coherent.change changed
  cases changed with
  | kept => exact single
  | swept _ now sweeps => exact single.sweepStaleRequests (undecided_of_stale once sweeps)
  | asked request now idle => exact single.proceeds coherent fun _ => by rw [idle]; rfl
  | refused request now error idle => exact single.proceeds coherent fun quiet => by cases quiet
  | admitted request now publicKey checking =>
    exact single.proceeds coherent fun quiet => by cases quiet
  | denied request now publicKey checking =>
    exact single.proceeds coherent fun quiet => by cases quiet
  | enqueued request now publicKey checking =>
    have quiet : (extension.entries id).handler.starts = true := by rw [checking]; rfl
    rw [single.coherent.sweep_of_quiet quiet] at coherent ⊢
    constructor
    case coherent => exact coherent
    case atWork =>
      intro _
      rfl
    case alone => exact single.alone
    case fresh =>
      intro starts
      simp only [ExternalRequest.enqueued] at starts
      split at starts <;> cases starts
  | opened request now opening =>
    have undecided : (extension.entries id).stale now = true →
        (extension.entries id).undecided = true := undecided_of_stale once rfl
    have swept := single.sweepStaleRequests undecided
    constructor
    case coherent => exact coherent
    case atWork => exact swept.atWork
    case alone => exact swept.alone
    case fresh =>
      intro quiet
      cases quiet
  | notOpened request now error opening =>
    exact single.proceeds coherent fun quiet => by cases quiet
  | granted request granting =>
    exact single.proceeds coherent fun quiet => by cases quiet
  | received message =>
    apply single.receive
    intro known
    apply once id
    simp only [Event.decides, known, decide_true, Bool.and_self, Bool.true_or]
  | signerChecked signing unlocked passphrase working =>
    constructor
    case coherent => exact coherent
    case atWork => exact fun _ => single.atWork (List.ne_nil_of_mem working)
    case alone =>
      dsimp only
      rw [single.erase_eq_nil working]
      exact Nat.le_refl 1
    case fresh => exact single.fresh
  | signerRefused signing unlocked error working =>
    exact single.ends coherent starts_rejectRequest (single.erase_eq_nil working)
      (single.atWork (List.ne_nil_of_mem working))
  | signed signing passphrase ledger made working =>
    exact single.ends coherent starts_resolveRequest (single.erase_eq_nil working)
      (single.atWork (List.ne_nil_of_mem working))
  | notSigned signing passphrase ledger error working =>
    exact single.ends coherent starts_rejectRequest (single.erase_eq_nil working)
      (single.atWork (List.ne_nil_of_mem working))
  | expired =>
    have undecided : (extension.entries id).undecided = true := by
      apply once id
      simp only [Event.decides, decide_true, Bool.true_or]
    obtain ⟨pending, quiet⟩ := Entry.undecided_iff.mp undecided
    exact single.ends coherent starts_reject quiet pending
  | closed pending =>
    apply single.rejectRequest
    apply once id
    simp only [Event.decides, pending, decide_true, Bool.and_self, Bool.true_or]

/-- An entry that has ended stays as it is. -/
theorem Entry.Single.session_kept (single : (extension.entries id).Single)
    (changed : Change extension id (extension.entries id) event after)
    (once : event.DecidesOnce extension) (ended : (extension.entries id).ended = true) :
    after.session = (extension.entries id).session := by
  have noApproval : ¬(extension.entries id).pendingApproval.isSome = true := by
    intro pending
    rw [single.coherent.not_ended pending] at ended
    cases ended
  have decided : ¬(extension.entries id).undecided = true :=
    fun undecided => noApproval (Entry.undecided_iff.mp undecided).1
  have noSigner {signing : Signing} : signing ∉ (extension.entries id).signings :=
    fun working => noApproval (single.atWork (List.ne_nil_of_mem working))
  have unswept {now : Millis} (sweeps : event.sweepsAt extension = some now) :
      (extension.entries id).sweepStaleRequests now = extension.entries id :=
    if_neg fun stale => decided (undecided_of_stale once sweeps stale)
  cases changed with
  | kept => rfl
  | swept _ now sweeps => rw [unswept sweeps]
  | asked => rfl
  | refused => rfl
  | admitted => rfl
  | denied => rfl
  | enqueued request now publicKey checking =>
    rw [Entry.ended, single.fresh (by rw [checking]; rfl)] at ended
    cases ended
  | opened request now =>
    rw [unswept rfl]
    rfl
  | notOpened => rfl
  | granted => rfl
  | received message =>
    have unknown : ¬message.known = true := by
      intro known
      apply decided
      apply once id
      simp only [Event.decides, known, decide_true, Bool.and_self, Bool.true_or]
    cases message with
    | approveAccessRequest => rfl
    | rejectAccessRequest => rfl
    | _ => exact absurd rfl unknown
  | signerChecked => rfl
  | signerRefused signing unlocked error working => exact absurd working noSigner
  | signed signing passphrase ledger made working => exact absurd working noSigner
  | notSigned signing passphrase ledger error working => exact absurd working noSigner
  | expired =>
    refine absurd (once id ?_) decided
    simp only [Event.decides, decide_true, Bool.true_or]
  | closed pending => exact absurd pending noApproval

end Step

/-! ## Runs -/

/-- No request has more than one signer at work. -/
def Extension.Single (extension : Extension) : Prop := ∀ id, (extension.entries id).Single

theorem Extension.Single.step {transition : Transition Extension Event Unit}
    (single : transition.before.Single) (performed : transition.Performed step)
    (once : transition.input.DecidesOnce transition.before) : transition.after.Single :=
  fun id => (single id).change (change_of_step performed id) once

theorem final_single {allowlist : Grant → Bool} {network : NetworkMode}
    {contractAddress : Option String} (events : List Event)
    (once : ∀ transition ∈ history step (.start allowlist network contractAddress) events,
      transition.input.DecidesOnce transition.before) :
    (final step (.start allowlist network contractAddress) events).Single := by
  apply final_of_history step (fun _ => .empty)
  intro transition member (single : Extension.Single _)
  exact single.step (performed_of_mem_history step member) (once transition member)

/-- A page asks for the signature of a message. -/
def greeting (origin : String) : ExternalRequest where
  method := .signMessage
  origin := origin
  params := {
    xdr := none
    authEntry := none
    message := some "hello"
    relay := ⟨none, none, none, none, none⟩
    networkPassphrase := none
    network := none
    smartAccountId := none
    expiresAt := none
    permissions := none }

/-- A page asks for access. -/
def accessRequest (origin : String) : ExternalRequest :=
  { greeting origin with method := .requestAccess }

/-- Where every event of a run decides only about requests that are undecided, a request that has
ended stays as it ended. -/
theorem ending_kept (allowlist : Grant → Bool) (network : NetworkMode)
    (contractAddress : Option String) (first second : List Event)
    (once : ∀ transition ∈ history step (.start allowlist network contractAddress)
      (first ++ second), transition.input.DecidesOnce transition.before) (id : RequestId)
    (ended : ((final step (.start allowlist network contractAddress) first).entries id).ended =
      true) :
    ((final step (.start allowlist network contractAddress) (first ++ second)).entries id).session =
      ((final step (.start allowlist network contractAddress) first).entries id).session := by
  rw [history_append] at once
  rw [final_append]
  have single := final_single first fun transition member =>
    once transition (List.mem_append_left _ member)
  generalize final step (.start allowlist network contractAddress) first = middle at *
  have kept : middle.Single ∧ (middle.entries id).session = (middle.entries id).session :=
    ⟨single, rfl⟩
  refine (@final_of_history _ _ _ step (fun extension => extension.Single ∧
    (extension.entries id).session = (middle.entries id).session) _ second kept ?_).2
  intro transition member current
  have performed := performed_of_mem_history step member
  have met := once transition (List.mem_append_right _ member)
  refine ⟨current.1.step performed met, ?_⟩
  rw [← current.2]
  apply (current.1 id).session_kept (change_of_step performed id) met
  rw [Entry.ended, current.2]
  exact ended

/-- A rejection stays what the user decided, whatever is swept later. -/
theorem ending_kept_of_rejection :
    let start : Extension := .start (fun _ => false) .testnet none
    let first : List Event := [.requested "1" (accessRequest "https://dapp.example") 0,
      .checked "1" 0 "key", .message "1" .rejectSignRequest]
    let second : List Event := [.swept 1000000]
    ((final step start (first ++ second)).entries "1").session =
      ((final step start first).entries "1").session := by
  intro start first second
  let request := accessRequest "https://dapp.example"
  let asked := start.modify "1" fun entry => { entry with handler := .checking request }
  let pending := asked.enqueue "1" request 0 (.opening request)
  let rejected := pending.modify "1" (Entry.receive .rejectSignRequest)
  have checking : (asked.entries "1").handler = .checking request := by
    rw [modify_entries, if_pos rfl]
  have performed₁ : step (.requested "1" request 0) start = some ((), asked) := rfl
  have performed₂ : step (.checked "1" 0 "key") asked = some ((), pending) := by
    rw [step, checking]
    rfl
  have performed₃ : step (.message "1" .rejectSignRequest) pending = some ((), rejected) := rfl
  have performed₄ : step (.swept 1000000) rejected = some ((), rejected.sweep 1000000) := rfl
  have ended : ((final step start first).entries "1").ended = true := by decide +kernel
  have fresh (id : RequestId) : (asked.entries id).stale 0 = false := by
    rw [modify_entries]
    split <;> rfl
  have waiting : (pending.entries "1").undecided = true := by decide +kernel
  have settled (id : RequestId) : (rejected.entries id).stale 1000000 = false := by
    simp only [rejected, modify_entries]
    split
    · rfl
    · rename_i other
      have empty : (asked.entries id) = .empty := by rw [modify_entries, if_neg other]; rfl
      simp only [pending, Extension.enqueue, modify_entries, if_neg other]
      change Entry.stale 1000000 (Entry.sweepStaleRequests 0 (asked.entries id)) = false
      rw [empty]
      rfl
  apply ending_kept _ _ _ first second ?_ "1" ended
  change ∀ transition ∈ history step start [.requested "1" request 0, .checked "1" 0 "key",
    .message "1" .rejectSignRequest, .swept 1000000], _
  rw [history_of_performed step performed₁, history_of_performed step performed₂,
    history_of_performed step performed₃, history_of_performed step performed₄, history_nil]
  intro transition member id decides
  simp only [List.mem_cons, List.not_mem_nil, or_false] at member
  obtain rfl | rfl | rfl | rfl := member
  · cases decides
  · simp only [Event.decides, Event.sweepsAt, checking, Bool.false_or] at decides
    have stale : (asked.entries id).stale 0 = true := decides
    rw [fresh id] at stale
    cases stale
  · have same : id = "1" := by
      by_contra other
      simp [Event.decides, Event.sweepsAt, Ne.symm other] at decides
    rw [same]
    exact waiting
  · have stale : (rejected.entries id).stale 1000000 = true := decides
    rw [settled id] at stale
    cases stale

/-- The events up to the decision of the user. -/
def untilWaiting (id : RequestId) (request : ExternalRequest) : List Event :=
  [.requested id request 0, .checked id 0 "key", .opened id (.ok ()) 0]

/-- A second approval, or a signer that comes to its end after a rejection, replaces what the page
could already read. -/
theorem ending_replaced :
    let request := greeting "https://dapp.example"
    let start : Extension := .start (fun _ => true) .testnet none
    let signing : Signing := ⟨.signMessage, request.params, none⟩
    let signer : List Event := [.signerChecked "1" signing true,
      .signerEnded "1" { signing with checked := some none } none false (.ok ⟨"key", "signed"⟩)]
    let approve : Event := .message "1" .approveSignRequest
    let reject : Event := .message "1" .rejectSignRequest
    let session := fun events =>
      ((final step start (untilWaiting "1" request ++ events)).entries "1").session
    (session (approve :: signer) = some (.resolved (.signature "signed")) ∧
      session (approve :: signer ++ [approve]) = some (.rejected "Approval request not found")) ∧
    (session [approve, reject] = some (.rejected "User rejected the sign request") ∧
      session (approve :: reject :: signer) = some (.resolved (.signature "signed"))) := by
  decide +kernel

end Ancore.Approvals
