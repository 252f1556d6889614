import Ancore.Relay.Stages

/-! # One submission for a nonce

A nonce is checked by one call and recorded by another, and the record is made
whether or not it is there already.  Where every record is a new one, no two
submissions are protected by the same session key and nonce. -/

namespace Ancore.Relay

open Ancore.Library

variable {Worker : Type}

/-- The nonce a call recorded and answered. -/
def trackedBy (exchange : RelayExchange Worker) : Option (String × Nonce) :=
  match exchange with
  | ⟨_, _, .track sessionKey nonce, _, .ok ()⟩ => some (sessionKey, nonce)
  | _ => none

/-- The nonce a call submits with. -/
def submittedBy (exchange : RelayExchange Worker) : Option (String × Nonce) :=
  match exchange.request with
  | .mockTxId replayKey => some replayKey
  | .submitSignedTransaction replayKey _ => some replayKey
  | _ => none

/-- The session keys and nonces that requests were submitted with, the latest first. -/
def submittedNonces (exchanges : List (RelayExchange Worker)) : List (String × Nonce) :=
  exchanges.filterMap submittedBy

/-- A call finds nothing recorded that has outlived its time to live. -/
def WithinTtl (exchange : RelayExchange Worker) : Prop :=
  exchange.found.Unexpired exchange.circumstance.dateNow

instance (exchange : RelayExchange Worker) : Decidable (WithinTtl exchange) :=
  inferInstanceAs (Decidable (NonceStore.Unexpired _ _))

/-- A nonce that is to be recorded is not recorded yet. -/
def TracksUnrecorded (exchange : RelayExchange Worker) : Prop :=
  match exchange.request with
  | .track sessionKey nonce => ¬ exchange.found.Records (sessionKey, nonce)
  | _ => True

instance (exchange : RelayExchange Worker) : Decidable (TracksUnrecorded exchange) :=
  match exchange with
  | ⟨_, _, .track _ _, _, _⟩ => inferInstanceAs (Decidable (¬ _))
  | ⟨_, _, .assertFresh _ _, _, _⟩ => isTrue trivial
  | ⟨_, _, .getSessionKey _ _, _, _⟩ => isTrue trivial
  | ⟨_, _, .mockTxId _, _, _⟩ => isTrue trivial
  | ⟨_, _, .simulateAndAssembleTransaction _, _, _⟩ => isTrue trivial
  | ⟨_, _, .submitSignedTransaction _ _, _, _⟩ => isTrue trivial

/-! ## At each stage -/

/-- The nonce that is recorded and still to be submitted. -/
def Stage.pending : Stage → Option (String × Nonce)
  | .tracked request => some request.replayKey
  | .simulated request _ => some request.replayKey
  | _ => none

/-- What is pending was recorded by the worker, which has not submitted it. -/
def Pending (worker : Worker) (stage : Stage) (world : RelayWorld Worker) : Prop :=
  ∀ replayKey ∈ stage.pending, (worker, replayKey) ∈ attributed trackedBy world.exchanges ∧
    (worker, replayKey) ∉ attributed submittedBy world.exchanges

/-- What was submitted was recorded by its worker before, every nonce once. -/
structure SubmittedSoundly (world : RelayWorld Worker) : Prop where
  nodup : (attributed submittedBy world.exchanges).Nodup
  tracked : ∀ submission ∈ attributed submittedBy world.exchanges,
    submission ∈ attributed trackedBy world.exchanges
  once : ((attributed trackedBy world.exchanges).map Prod.snd).Nodup
  recorded : ∀ tracking ∈ attributed trackedBy world.exchanges, world.state.Records tracking.2

/-- Then no nonce was submitted twice. -/
theorem SubmittedSoundly.nodup_nonces {world : RelayWorld Worker}
    (soundly : SubmittedSoundly world) :
    (submittedNonces world.exchanges).Nodup := by
  rw [submittedNonces, ← map_snd_attributed]
  refine soundly.nodup.map_on fun submission member submission' member' same => ?_
  exact List.inj_on_of_nodup_map soundly.once (soundly.tracked _ member)
    (soundly.tracked _ member') same

/-! ## The calls -/

section Steps

variable {worker other : Worker} {stage onward : Stage} {request : RelayCall}
  {circumstance : Circumstance} {world : RelayWorld Worker} {store : NonceStore}
  {replayKey : String × Nonce}

/-- Within the time to live what is recorded stays recorded. -/
theorem records_perform (unexpired : store.Unexpired circumstance.dateNow)
    (recorded : store.Records replayKey) :
    (perform worker request circumstance store).2.Records replayKey := by
  have queries {α : Type} {carriedOut : Except Thrown α × NonceStore}
      (kept : carriedOut.2.Records replayKey) :
      (queried circumstance.fault store carriedOut).2.Records replayKey := by
    unfold queried
    split
    · exact kept
    · exact kept
    · exact recorded
    · exact kept
  cases request with
  | assertFresh sessionKey nonce =>
    refine queries ?_
    rw [(NonceStore.assertFresh_of_unexpired unexpired).1]
    exact recorded
  | track sessionKey nonce =>
    exact queries ((NonceStore.records_track unexpired).mpr (.inr recorded))
  | getSessionKey accountAddress sessionKey => exact recorded
  | mockTxId replayKey => exact recorded
  | simulateAndAssembleTransaction signedXdr => exact recorded
  | submitSignedTransaction replayKey assembledXdr => exact recorded

/-- A record that answers was made. -/
theorem records_of_tracked {sessionKey : String} {nonce : Nonce}
    (unexpired : store.Unexpired circumstance.dateNow)
    (answered : (perform worker (.track sessionKey nonce) circumstance store).1 = .ok ()) :
    (perform worker (.track sessionKey nonce) circumstance store).2.Records
      (sessionKey, nonce) := by
  have made : (store.track sessionKey nonce circumstance.dateNow).Records (sessionKey, nonce) :=
    (NonceStore.records_track unexpired).mpr (.inl rfl)
  simp only [perform, queried] at answered ⊢
  split at answered
  · exact made
  · exact made
  · cases answered
  · cases answered

/-- The calls of a worker leave what is pending at the others. -/
theorem Pending.after_other (pending : Pending other stage world) (different : other ≠ worker) :
    Pending other stage (world.after perform worker request circumstance) := by
  intro replayKey member
  obtain ⟨tracked, unsubmitted⟩ := pending replayKey member
  exact ⟨(mem_attributed_after_of_ne different).mpr tracked,
    fun submitted => unsubmitted ((mem_attributed_after_of_ne different).mp submitted)⟩

/-- A call that records no nonce and submits none. -/
theorem submitted_of_quiet (soundly : SubmittedSoundly world) (pending : Pending worker stage world)
    (unexpired : world.state.Unexpired circumstance.dateNow)
    (untracked : trackedBy (world.exchange perform worker request circumstance) = none)
    (unsubmitted : submittedBy (world.exchange perform worker request circumstance) = none)
    (kept : ∀ replayKey ∈ onward.pending, replayKey ∈ stage.pending) :
    SubmittedSoundly (world.after perform worker request circumstance) ∧
      Pending worker onward (world.after perform worker request circumstance) := by
  refine ⟨⟨?_, ?_, ?_, ?_⟩, fun replayKey member => ?_⟩
  · rw [attributed_after_of_none unsubmitted]
    exact soundly.nodup
  · rw [attributed_after_of_none unsubmitted, attributed_after_of_none untracked]
    exact soundly.tracked
  · rw [attributed_after_of_none untracked]
    exact soundly.once
  · rw [attributed_after_of_none untracked]
    exact fun tracking member => records_perform unexpired (soundly.recorded tracking member)
  · rw [attributed_after_of_none unsubmitted, attributed_after_of_none untracked]
    exact pending replayKey (kept replayKey member)

/-- A nonce that was not recorded is recorded. -/
theorem submitted_of_tracked {task : RelayTask} (soundly : SubmittedSoundly world)
    (unexpired : world.state.Unexpired circumstance.dateNow)
    (unrecorded : ¬ world.state.Records task.request.replayKey)
    (answered : (perform worker (.track task.request.sessionKey task.request.nonce) circumstance
      world.state).1 = .ok ()) :
    SubmittedSoundly (world.after perform worker
        (.track task.request.sessionKey task.request.nonce) circumstance) ∧
      Pending worker (.tracked task.request) (world.after perform worker
        (.track task.request.sessionKey task.request.nonce) circumstance) := by
  have tracked : trackedBy (world.exchange perform worker
      (.track task.request.sessionKey task.request.nonce) circumstance) =
        some task.request.replayKey := by
    unfold World.exchange
    rw [answered]
    rfl
  have fresh : ∀ tracking ∈ attributed trackedBy world.exchanges,
      tracking.2 ≠ task.request.replayKey :=
    fun tracking member same => unrecorded (same ▸ soundly.recorded tracking member)
  have unsubmitted : submittedBy (world.exchange perform worker
      (.track task.request.sessionKey task.request.nonce) circumstance) = none := rfl
  refine ⟨⟨?_, ?_, ?_, ?_⟩, fun replayKey member => ?_⟩
  · rw [attributed_after_of_none unsubmitted]
    exact soundly.nodup
  · rw [attributed_after_of_none unsubmitted, attributed_after_of_some tracked]
    exact fun submission member => List.mem_cons_of_mem _ (soundly.tracked submission member)
  · rw [attributed_after_of_some tracked, List.map_cons, List.nodup_cons]
    refine ⟨fun member => ?_, soundly.once⟩
    obtain ⟨tracking, member, same⟩ := List.mem_map.mp member
    exact fresh tracking member same
  · rw [attributed_after_of_some tracked, List.forall_mem_cons]
    exact ⟨records_of_tracked unexpired answered,
      fun tracking member => records_perform unexpired (soundly.recorded tracking member)⟩
  · cases member
    rw [attributed_after_of_none unsubmitted, attributed_after_of_some tracked]
    exact ⟨List.mem_cons_self, fun submitted => fresh _ (soundly.tracked _ submitted) rfl⟩

/-- What is pending is submitted. -/
theorem submitted_of_submission (soundly : SubmittedSoundly world)
    (pending : Pending worker stage world) (isPending : stage.pending = some replayKey)
    (unexpired : world.state.Unexpired circumstance.dateNow)
    (untracked : trackedBy (world.exchange perform worker request circumstance) = none)
    (submitted : submittedBy (world.exchange perform worker request circumstance) =
      some replayKey) :
    SubmittedSoundly (world.after perform worker request circumstance) ∧
      Pending worker .idle (world.after perform worker request circumstance) := by
  obtain ⟨tracked, unsubmitted⟩ := pending replayKey isPending
  refine ⟨⟨?_, ?_, ?_, ?_⟩, fun replayKey member => by cases member⟩
  · rw [attributed_after_of_some submitted]
    exact List.nodup_cons.mpr ⟨unsubmitted, soundly.nodup⟩
  · rw [attributed_after_of_some submitted, attributed_after_of_none untracked,
      List.forall_mem_cons]
    exact ⟨tracked, soundly.tracked⟩
  · rw [attributed_after_of_none untracked]
    exact soundly.once
  · rw [attributed_after_of_none untracked]
    exact fun tracking member => records_perform unexpired (soundly.recorded tracking member)

end Steps

/-- Each call of a request. -/
theorem submitted_step (service : RelayService) :
    OutlineStep (@perform Worker) (Stage.Next service)
      (fun exchange _ => WithinTtl exchange ∧ TracksUnrecorded exchange)
      SubmittedSoundly Pending := by
  intro worker stage request circumstance onward world soundly pending made ⟨unexpired, unrecorded⟩
  suffices own : SubmittedSoundly (world.after perform worker request circumstance) ∧
      Pending worker onward (world.after perform worker request circumstance) from
    ⟨own.1, own.2, fun other different stage pending => pending.after_other different⟩
  generalize answer : (perform worker request circumstance world.state).1 = answered at made
  cases made with
  | fresh rests => exact submitted_of_quiet soundly pending unexpired rfl rfl nofun
  | stale rests => exact submitted_of_quiet soundly pending unexpired rfl rfl nofun
  | validated valid => exact submitted_of_quiet soundly pending unexpired rfl rfl nofun
  | refused => exact submitted_of_quiet soundly pending unexpired rfl rfl nofun
  | tracked => exact submitted_of_tracked soundly unexpired unrecorded answer
  | untracked =>
    refine submitted_of_quiet soundly pending unexpired ?_ rfl nofun
    unfold World.exchange
    rw [answer]
    rfl
  | mocked => exact submitted_of_submission soundly pending rfl unexpired rfl rfl
  | simulated extracted =>
    exact submitted_of_quiet soundly pending unexpired rfl rfl fun _ member => member
  | unsimulated extracted => exact submitted_of_quiet soundly pending unexpired rfl rfl nofun
  | submitted => exact submitted_of_submission soundly pending rfl unexpired rfl rfl

/-! ## Runs -/

/-- Within the time to live no two submissions are for the same session key and nonce, in every run
in which no nonce is recorded again. -/
theorem nonce_submitted_once [DecidableEq Worker] (service : RelayService)
    (stored : service.hasNonceStore = true) (store : NonceStore)
    (turns : List (Turn Worker RelayTask Circumstance))
    (withinTtl : ∀ exchange ∈ (relayRun service store turns).world.exchanges, WithinTtl exchange)
    (unrecorded : ∀ exchange ∈ (relayRun service store turns).world.exchanges,
      TracksUnrecorded exchange) :
    (submittedNonces (relayRun service store turns).world.exchanges).Nodup := by
  have nothingYet : SubmittedSoundly (World.mk store [] : RelayWorld Worker) :=
    ⟨List.nodup_nil, nofun, List.nodup_nil, nofun⟩
  have nothingPending (worker : Worker) : Pending worker .idle (World.mk store []) := nofun
  exact (invariant_of_outline (service.execute_follows stored) (submitted_step service) nothingYet
    (fun worker => ⟨.idle, trivial, nothingPending worker⟩) turns
    (historically_of_forall fun exchange member _ =>
      ⟨withinTtl exchange member, unrecorded exchange member⟩)).1.nodup_nonces

/-! ### Two requests with one nonce -/

/-- A service that submits nothing to the network. -/
def mockService : RelayService where
  useMockSubmission := true
  hasTransactionSubmitter := false
  hasNonceStore := true
  verify := fun _ _ signature => signature = "valid"
  numberText := fun _ => ""

def signedTask (nonce : Nonce) : RelayTask where
  request :=
    { sessionKey := String.ofList (List.replicate 64 'a')
      operation := .relayExecute
      parameters := fun _ => none
      signature := "valid"
      nonce := nonce
      transferPolicy := none }
  options := ⟨none⟩

/-- A call at the epoch that succeeds. -/
def smoothly : Circumstance where
  dateNow := 0
  fault := none
  onChainKey := .ok true
  mockTxId := "transaction"
  simulation := .ok ⟨"assembled", 100⟩
  submission := .ok "transaction"

def emptyStore : NonceStore := .memory { ttlMs := 300000, seen := [] }

/-- A request from its start to its end. -/
def executed (worker : Bool) (nonce : Nonce) : List (Turn Bool RelayTask Circumstance) :=
  .start worker (signedTask nonce) :: List.replicate 4 (.resume worker smoothly)

theorem nonce_submitted_once_of_sample :
    (submittedNonces (relayRun mockService emptyStore
      (executed true 1 ++ executed false 1 ++ executed true 2)).world.exchanges).Nodup :=
  nonce_submitted_once mockService rfl emptyStore
    (executed true 1 ++ executed false 1 ++ executed true 2) (by decide) (by decide)

/-- Two requests at once. -/
def atOnce : List (Turn Bool RelayTask Circumstance) :=
  [.start true (signedTask 1), .start false (signedTask 1)] ++
    (List.replicate 4 [.resume true smoothly, .resume false smoothly]).flatten

/-- Both find the nonce fresh, and both are submitted. -/
theorem one_nonce_submitted_twice :
    (∀ exchange ∈ (relayRun mockService emptyStore atOnce).world.exchanges, WithinTtl exchange) ∧
      ¬ (submittedNonces (relayRun mockService emptyStore atOnce).world.exchanges).Nodup := by
  decide

end Ancore.Relay
