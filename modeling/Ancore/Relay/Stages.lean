import Ancore.Relay.Service

/-! # The stages of a request

What `executeRelay` can do of a service with a nonce store, said once: at which
stage of a request it makes which call, and where it goes on. -/

namespace Ancore.Relay

open Ancore.Library

/-- Where a worker stands with its request. -/
inductive Stage where
  | idle
  | fresh (task : RelayTask)
  | validated (task : RelayTask)
  | tracked (request : RelayExecuteRequest)
  | simulated (request : RelayExecuteRequest) (transaction : SimulatedTransaction)

/-- The request may end here: without a submitter nothing follows the record of its nonce. -/
def Stage.Rests : Stage → Prop
  | idle => True
  | tracked _ => True
  | _ => False

/-- From a stage, the calls and where they lead. -/
inductive Stage.Next (service : RelayService) : Outline Stage RelayAnswer
  | fresh {stage task} (rests : stage.Rests) :
      Next service stage (.assertFresh task.request.sessionKey task.request.nonce) (.ok ())
        (fresh task)
  | stale {stage sessionKey nonce thrown} (rests : stage.Rests) :
      Next service stage (.assertFresh sessionKey nonce) (.error thrown) idle
  | validated {task}
      (valid : (service.validateSigned task.request task.options).valid = true) :
      Next service (fresh task)
        (.getSessionKey (task.request.parameters "accountAddress") task.request.sessionKey)
        (.ok true) (validated task)
  | refused {task answer} :
      Next service (fresh task)
        (.getSessionKey (task.request.parameters "accountAddress") task.request.sessionKey)
        answer idle
  | tracked {task} :
      Next service (validated task) (.track task.request.sessionKey task.request.nonce) (.ok ())
        (tracked task.request)
  | untracked {task thrown} :
      Next service (validated task) (.track task.request.sessionKey task.request.nonce)
        (.error thrown) idle
  | mocked {request transactionId} :
      Next service (tracked request) (.mockTxId request.replayKey) transactionId idle
  | simulated {request signedXdr transaction}
      (extracted : extractSignedTransactionXdr request = some signedXdr) :
      Next service (tracked request) (.simulateAndAssembleTransaction signedXdr)
        (.ok transaction) (simulated request transaction)
  | unsimulated {request signedXdr thrown}
      (extracted : extractSignedTransactionXdr request = some signedXdr) :
      Next service (tracked request) (.simulateAndAssembleTransaction signedXdr)
        (.error thrown) idle
  | submitted {request transaction answer} :
      Next service (simulated request transaction)
        (.submitSignedTransaction request.replayKey transaction.assembledXdr) answer idle

/-! ## The service follows the stages -/

namespace RelayService

open Stage

variable {service : RelayService} {task : RelayTask} {stage : Stage}

/-- Where the validation leaves the request. -/
def ValidatedAt (task : RelayTask) (result : ValidationResult) (stage : Stage) : Prop :=
  if result.valid && !result.requiresStepUp then stage = validated task else stage.Rests

/-- A result that is valid asks for no further confirmation. -/
theorem requiresStepUp_of_valid
    (valid : (service.validateSigned task.request task.options).valid = true) :
    (service.validateSigned task.request task.options).requiresStepUp = false := by
  unfold validateSigned refusal at *
  dsimp only at *
  split at valid
  · cases valid
  · split at valid
    · simp_all
    · split at valid
      · cases valid
      · simp_all

theorem validateOnChain_follows :
    (service.validateOnChain task.request task.options).Follows (Next service) (ValidatedAt task)
      (fresh task) := by
  intro onChainKey
  cases onChainKey with
  | error thrown => exact ⟨idle, .refused, trivial⟩
  | ok found =>
    cases found with
    | false => exact ⟨idle, .refused, trivial⟩
    | true =>
      by_cases valid : (service.validateSigned task.request task.options).valid = true
      · refine ⟨validated task, .validated valid, ?_⟩
        change ValidatedAt _ (service.validateSigned _ _) _
        rw [ValidatedAt, if_pos (by rw [valid, requiresStepUp_of_valid valid]; rfl)]
      · refine ⟨idle, .refused, ?_⟩
        change ValidatedAt _ (service.validateSigned _ _) _
        rw [ValidatedAt, if_neg (by simp [valid])]
        trivial

theorem validateRelay_follows (stored : service.hasNonceStore = true) (rests : stage.Rests) :
    (service.validateRelay task.request task.options).Follows (Next service) (ValidatedAt task)
      stage := by
  unfold validateRelay
  split
  · exact rests
  · split
    · exact rests
    · intro fresh
      cases fresh with
      | error thrown => exact ⟨idle, .stale rests, trivial⟩
      | ok _ => exact ⟨_, .fresh rests, validateOnChain_follows⟩

theorem submitTransaction_tracks {request : RelayExecuteRequest} {signedXdr : String}
    (extracted : extractSignedTransactionXdr request = some signedXdr) :
    Tracks (Next service) (fun _ => Rests) Rests (submitTransaction request signedXdr)
      (tracked request) := by
  intro transaction
  cases transaction with
  | error thrown => exact ⟨idle, .unsimulated extracted, trivial⟩
  | ok transaction =>
    refine ⟨_, .simulated extracted, fun submitted => ⟨idle, .submitted, ?_⟩⟩
    cases submitted with
    | error thrown => exact trivial
    | ok transactionHash => exact trivial

theorem submit_tracks (request : RelayExecuteRequest) :
    Tracks (Next service) (fun _ => Rests) Rests (service.submit request) (tracked request) := by
  unfold submit
  split
  · exact fun transactionId => ⟨idle, .mocked, trivial⟩
  · split
    · exact Tracks.pure trivial
    · split
      · exact Tracks.pure trivial
      · rename_i signedXdr extracted
        refine (Tracks.observe (submitTransaction_tracks extracted)).bind ?_
        intro submitted stage rests
        cases submitted with
        | ok response => exact Tracks.pure rests
        | error thrown => exact Tracks.pure rests

theorem executeRelay_tracks (stored : service.hasNonceStore = true) (rests : stage.Rests) :
    Tracks (Next service) (fun _ => Rests) Rests
      (service.executeRelay task.request task.options) stage := by
  have validates : Tracks (Next service) (ValidatedAt task) Rests
      (ExceptT.lift (service.validateRelay task.request task.options) : Async _) stage :=
    Program.Follows.bind (Program.Follows.mono (validateRelay_follows stored rests)
      fun _ _ ended => ended)
  refine validates.bind ?_
  intro validation stage ended
  split
  · rename_i refused
    rw [ValidatedAt, if_neg (by simpa [Bool.or_eq_true, imp_iff_not_or] using refused)] at ended
    exact Tracks.pure ended
  · rename_i accepted
    rw [ValidatedAt, if_pos (by simpa using accepted)] at ended
    subst ended
    intro recorded
    cases recorded with
    | error thrown => exact ⟨idle, .untracked, trivial⟩
    | ok _ => exact ⟨_, .tracked, submit_tracks task.request⟩

theorem execute_follows (stored : service.hasNonceStore = true) (task : RelayTask) (stage : Stage)
    (rests : stage.Rests) :
    (service.execute task).Follows (Next service) (fun _ => Rests) stage := by
  refine Program.Follows.bind (Program.Follows.mono (executeRelay_tracks stored rests) ?_)
  intro result stage ended
  cases result with
  | ok _ => exact ended
  | error _ => exact ended

end RelayService

end Ancore.Relay
