import Ancore.Wallet.Stages

/-! # Whether the backoff escalates

A failed attempt is counted on the attempts as they were when its message was
loaded, and attempts whose lockout has passed count for nothing.  So the sixth
password in a row is followed by no lockout at all, and overlapping messages count
as one.  The backoff is kept where the attempts that a message loaded are all that
were made, or where it is sent late enough by itself. -/

namespace Ancore.Wallet

open Ancore.Library Ancore.Vault

variable {Worker Value : Type} {sealing : Sealing (Plaintext Value)}

/-! ## What the log tells -/

/-- When a password is evaluated. -/
def evaluatedAt (exchange : WalletExchange Worker sealing) : Option Millis :=
  match exchange.request with
  | .inl (.deriveEncryptionKey _ _) => some exchange.circumstance.dateNow
  | _ => none

/-- When a message is sent. -/
def sentAt (exchange : WalletExchange Worker sealing) : Option Millis :=
  match exchange.request with
  | .inr (.sent _) => some exchange.circumstance.dateNow
  | _ => none

/-- The stored attempts that are loaded. -/
def loadedBy : WalletExchange Worker sealing → Option (Option UnlockAttemptState)
  | ⟨_, _, .inr .getUnlockAttempts, _, stored⟩ => some stored
  | _ => none

theorem dateNow_of_evaluatedAt {exchange : WalletExchange Worker sealing} {now : Millis}
    (evaluated : evaluatedAt exchange = some now) : exchange.circumstance.dateNow = now := by
  unfold evaluatedAt at evaluated
  split at evaluated
  · exact Option.some.inj evaluated
  · cases evaluated

theorem dateNow_of_sentAt {exchange : WalletExchange Worker sealing} {now : Millis}
    (sent : sentAt exchange = some now) : exchange.circumstance.dateNow = now := by
  unfold sentAt at sent
  split at sent
  · exact Option.some.inj sent
  · cases sent

/-- The times at which passwords were evaluated, the latest first. -/
def evaluations (log : WalletLog Worker sealing) : List Millis :=
  log.filterMap evaluatedAt

/-- A password is evaluated only when the backoff for those before it has passed. -/
def BacksOff (exchange : WalletExchange Worker sealing)
    (earlier : WalletLog Worker sealing) : Prop :=
  ∀ now ∈ evaluatedAt exchange, ∀ last ∈ (evaluations earlier).head?,
    unlockMaxAttempts ≤ (evaluations earlier).length →
      last + calculateUnlockBackoffMs (evaluations earlier).length ≤ now

/-- Time does not go back, and no unlocking is successful. -/
def Guessing (exchange : WalletExchange Worker sealing)
    (earlier : WalletLog Worker sealing) : Prop :=
  (∀ before ∈ earlier, before.circumstance.dateNow ≤ exchange.circumstance.dateNow) ∧
    exchange.request ≠ .inr (.saveUnlockAttemptState resetUnlockAttempts)

instance (exchange : WalletExchange Worker sealing) (earlier : WalletLog Worker sealing) :
    Decidable (BacksOff exchange earlier) :=
  inferInstanceAs (Decidable (∀ now ∈ evaluatedAt exchange, ∀ last ∈ _, _ → _))

instance : (exchange : WalletExchange Worker sealing) → (earlier : WalletLog Worker sealing) →
    Decidable (Guessing exchange earlier)
  | ⟨_, _, .inl _, conditions, _⟩, earlier =>
    decidable_of_iff (∀ before ∈ earlier, before.circumstance.dateNow ≤ conditions.dateNow)
      ⟨fun passed => ⟨passed, nofun⟩, And.left⟩
  | ⟨_, _, .inr call, conditions, _⟩, earlier =>
    decidable_of_iff ((∀ before ∈ earlier, before.circumstance.dateNow ≤ conditions.dateNow) ∧
      call ≠ .saveUnlockAttemptState resetUnlockAttempts)
      (and_congr_right fun _ => not_congr Sum.inr_injective.eq_iff.symm)

variable [DecidableEq Worker]

/-- The message of an evaluated password loaded attempts that count all the passwords evaluated
before, or was sent when the backoff for these had passed. -/
def CountsAll (exchange : WalletExchange Worker sealing)
    (earlier : WalletLog Worker sealing) : Prop :=
  (evaluatedAt exchange).isSome → ∀ last ∈ (evaluations earlier).head?,
    unlockMaxAttempts ≤ (evaluations earlier).length →
      (∃ stored ∈ ((attributed loadedBy earlier).lookup exchange.worker).join,
        stored.failedAttempts = (evaluations earlier).length) ∨
      ∃ sent ∈ (attributed sentAt earlier).lookup exchange.worker,
        last + calculateUnlockBackoffMs (evaluations earlier).length ≤ sent

instance (exchange : WalletExchange Worker sealing) (earlier : WalletLog Worker sealing) :
    Decidable (CountsAll exchange earlier) :=
  inferInstanceAs (Decidable (_ → ∀ last ∈ _, _ → (∃ stored ∈ _, _) ∨ ∃ sent ∈ _, _))

/-! ## Attempts -/

/-- Attempts count passwords that were evaluated, and lock out from the evaluation of the last of
these. -/
def Escalated (state : UnlockAttemptState) (times : List Millis) : Prop :=
  0 < state.failedAttempts → ∃ last before, last :: before <:+ times ∧
    state.failedAttempts ≤ before.length + 1 ∧
    (unlockMaxAttempts ≤ state.failedAttempts → ∃ lockedUntil ∈ state.lockedUntil,
      last + calculateUnlockBackoffMs state.failedAttempts ≤ lockedUntil)

theorem Escalated.mono {state : UnlockAttemptState} {times later : List Millis}
    (escalated : Escalated state times) (grown : times <:+ later) : Escalated state later := by
  intro counted
  obtain ⟨last, before, suffix, rest⟩ := escalated counted
  exact ⟨last, before, suffix.trans grown, rest⟩

theorem Escalated.le_length {state : UnlockAttemptState} {times : List Millis}
    (escalated : Escalated state times) : state.failedAttempts ≤ times.length := by
  obtain none | counted := Nat.eq_zero_or_pos state.failedAttempts
  · rw [none]
    exact Nat.zero_le _
  · obtain ⟨last, before, suffix, bounded, -⟩ := escalated counted
    exact bounded.trans suffix.length_le

/-- Attempts that count all evaluations lock out from the last one. -/
theorem Escalated.lockout {state : UnlockAttemptState} {last : Millis} {before : List Millis}
    (escalated : Escalated state (last :: before))
    (all : state.failedAttempts = (last :: before).length)
    (many : unlockMaxAttempts ≤ state.failedAttempts) :
    ∃ lockedUntil ∈ state.lockedUntil,
      last + calculateUnlockBackoffMs state.failedAttempts ≤ lockedUntil := by
  obtain ⟨last', before', suffix, bounded, locks⟩ := escalated (all ▸ Nat.succ_pos _)
  have whole : last' :: before' = last :: before :=
    suffix.eq_of_length_le (all ▸ bounded)
  obtain ⟨rfl, rfl⟩ := List.cons.inj whole
  exact locks many

theorem calculateUnlockBackoffMs_pos {failedAttempts : Nat}
    (many : unlockMaxAttempts ≤ failedAttempts) : 0 < calculateUnlockBackoffMs failedAttempts := by
  rw [calculateUnlockBackoffMs, if_neg (not_lt.mpr many)]
  exact lt_min (mul_pos (by decide) (pow_pos (by decide) _)) (by decide)

/-- A failure counts one evaluation more. -/
theorem escalated_recordUnlockFailure {state : UnlockAttemptState} {now last : Millis}
    {before times : List Millis} (suffix : last :: before <:+ times)
    (counted : state.failedAttempts ≤ before.length) (passed : last ≤ now) :
    Escalated (recordUnlockFailure state now) times := by
  intro _
  have failed : (recordUnlockFailure state now).failedAttempts = state.failedAttempts + 1 := by
    unfold recordUnlockFailure
    dsimp only
    split <;> rfl
  refine ⟨last, before, suffix, by rw [failed]; omega, fun many => ?_⟩
  rw [failed] at many ⊢
  have positive := calculateUnlockBackoffMs_pos many
  refine ⟨now + calculateUnlockBackoffMs (state.failedAttempts + 1), ?_,
    Int.add_le_add_right passed _⟩
  unfold recordUnlockFailure
  dsimp only
  rw [if_neg positive.ne']
  rfl

/-! ## Where a message stands -/

/-- The lockout of the attempts has passed. -/
def Elapsed (state : UnlockAttemptState) (log : WalletLog Worker sealing) : Prop :=
  ∀ lockedUntil ∈ state.lockedUntil, ∃ exchange ∈ log, lockedUntil ≤ exchange.circumstance.dateNow

/-- The attempts that a message goes by: those it loaded, or none where their lockout has passed. -/
structure Loaded (worker : Worker) (attempts : Attempts)
    (log : WalletLog Worker sealing) : Prop where
  loaded : (attributed loadedBy log).lookup worker = some attempts.stored
  escalated : ∀ stored ∈ attempts.stored, Escalated stored (evaluations log)
  counted : attempts.state.failedAttempts ≤ (evaluations log).length
  chosen : ∀ stored ∈ attempts.stored, attempts.state = stored ∨ Elapsed stored log

/-- The password of the message was evaluated, after as many as it counts. -/
def Evaluated (attempts : Attempts) (log : WalletLog Worker sealing) : Prop :=
  ∃ last before, last :: before <:+ evaluations log ∧
    attempts.state.failedAttempts ≤ before.length

/-- What holds at a stage. -/
def Stage.Holds (worker : Worker) (log : WalletLog Worker sealing) : Stage → Prop
  | .loaded stored => (attributed loadedBy log).lookup worker = some (some stored) ∧
      Escalated stored (evaluations log)
  | .counted attempts => Loaded worker attempts log
  | .admitted attempts => Loaded worker attempts log ∧
      ∀ stored ∈ attempts.stored, Elapsed stored log
  | .evaluated attempts | .installed attempts | .mismatched attempts | .rejected attempts =>
      Evaluated attempts log
  | .dated next => Escalated next (evaluations log)
  | _ => True

section Steps

variable {request : WalletCall sealing} {conditions : Conditions sealing}
  {worker other : Worker} {stage onward : Stage}
  {world : WalletWorld Worker sealing}

omit [DecidableEq Worker] in
theorem evaluations_suffix :
    evaluations world.exchanges <:+
      evaluations (afterCall world worker request conditions).exchanges :=
  (List.suffix_cons _ _).filterMap _

omit [DecidableEq Worker] in
theorem Elapsed.after {state : UnlockAttemptState} (elapsed : Elapsed state world.exchanges) :
    Elapsed state (afterCall world worker request conditions).exchanges := by
  intro lockedUntil locked
  obtain ⟨exchange, member, passed⟩ := elapsed lockedUntil locked
  exact ⟨exchange, List.mem_cons_of_mem _ member, passed⟩

theorem Loaded.after {attempts : Attempts} (loaded : Loaded other attempts world.exchanges)
    (kept : (attributed loadedBy
        (afterCall world worker request conditions).exchanges).lookup other =
      (attributed loadedBy world.exchanges).lookup other) :
    Loaded other attempts (afterCall world worker request conditions).exchanges where
  loaded := kept.trans loaded.loaded
  escalated stored found := (loaded.escalated stored found).mono evaluations_suffix
  counted := loaded.counted.trans evaluations_suffix.length_le
  chosen stored found := (loaded.chosen stored found).imp_right Elapsed.after

/-- A call that loads no attempts of the worker leaves what holds. -/
theorem Stage.Holds.after (holds : stage.Holds other world.exchanges)
    (kept : (attributed loadedBy
        (afterCall world worker request conditions).exchanges).lookup other =
      (attributed loadedBy world.exchanges).lookup other) :
    stage.Holds other (afterCall world worker request conditions).exchanges := by
  cases stage with
  | loaded stored => exact ⟨kept.trans holds.1, holds.2.mono evaluations_suffix⟩
  | counted attempts => exact Loaded.after holds kept
  | admitted attempts =>
    exact ⟨holds.1.after kept, fun stored found => (holds.2 stored found).after⟩
  | evaluated attempts | installed attempts | mismatched attempts | rejected attempts =>
    obtain ⟨last, before, suffix, counted⟩ := holds
    exact ⟨last, before, suffix.trans evaluations_suffix, counted⟩
  | dated next => exact Escalated.mono holds evaluations_suffix
  | idle | entered | refused | passed | thrown | locking _ => trivial

theorem le_of_free {state : UnlockAttemptState} {now : Millis}
    (free : (checkUnlockRateLimit state now).locked = false) :
    ∀ lockedUntil ∈ state.lockedUntil, lockedUntil ≤ now := by
  intro lockedUntil locked
  by_contra later
  have limited : (checkUnlockRateLimit state now).locked = true := by
    rw [checkUnlockRateLimit, Option.mem_def.mp locked]
    exact congrArg UnlockRateLimitResult.locked (if_pos (not_le.mp later))
  exact absurd (limited.symm.trans free) nofun

/-- Attempts count as they are, or their lockout has passed. -/
theorem countedAt_cases (state : UnlockAttemptState) (now : Millis) :
    state.countedAt now = state ∨
      state.countedAt now = resetUnlockAttempts ∧
        ∀ lockedUntil ∈ state.lockedUntil, lockedUntil ≤ now := by
  unfold UnlockAttemptState.countedAt
  split
  · rename_i elapsed
    have free : (checkUnlockRateLimit state now).locked = false := by simp_all
    exact .inr ⟨rfl, le_of_free free⟩
  · exact .inl rfl

/-- What was loaded is told by the log. -/
theorem lookup_loaded {found : Option UnlockAttemptState}
    (answer : world.state.background.unlockAttempts = found) :
    (attributed loadedBy
      (afterCall world worker (.inr .getUnlockAttempts) conditions).exchanges).lookup worker =
        some found := by
  subst answer
  exact List.lookup_cons_self

/-- What a step of the run is given. -/
structure GuessFrom (world : WalletWorld Worker sealing) (worker : Worker)
    (request : WalletCall sealing) (conditions : Conditions sealing) (stage onward : Stage) :
    Prop where
  stored : ∀ stored ∈ world.state.background.unlockAttempts,
    Escalated stored (evaluations world.exchanges)
  holds : stage.Holds worker world.exchanges
  made : WalletNext stage request (performWallet request conditions world.state).1 onward
  guessing : Guessing (world.exchange (fun _ => performWallet) worker request conditions)
    world.exchanges
  countsAll : CountsAll (world.exchange (fun _ => performWallet) worker request conditions)
    world.exchanges

namespace GuessFrom

variable (step : GuessFrom world worker request conditions stage onward)

include step

/-- What has passed already has passed now. -/
theorem le_now {last : Millis} (member : last ∈ evaluations world.exchanges) :
    last ≤ conditions.dateNow := by
  obtain ⟨exchange, made, evaluated⟩ := List.mem_filterMap.mp member
  exact dateNow_of_evaluatedAt evaluated ▸ step.guessing.1 exchange made

/-- The attempts that were loaded count at a time. -/
theorem loaded_counted {stored : UnlockAttemptState}
    (held : Stage.Holds worker world.exchanges (.loaded stored)) (timed : request = .inr .dateNow) :
    Loaded worker ⟨some stored, stored.countedAt conditions.dateNow⟩
      (afterCall world worker request conditions).exchanges := by
  subst timed
  obtain ⟨loaded, escalated⟩ := held
  have grown : Escalated stored
      (evaluations (afterCall world worker (.inr .dateNow) conditions).exchanges) :=
    escalated.mono evaluations_suffix
  refine ⟨loaded, ?_, ?_, ?_⟩
  · rintro _ ⟨⟩
    exact grown
  · obtain same | ⟨reset, -⟩ := countedAt_cases stored conditions.dateNow
    · dsimp only
      rw [same]
      exact grown.le_length
    · dsimp only
      rw [reset]
      exact Nat.zero_le _
  · rintro _ ⟨⟩
    refine (countedAt_cases stored conditions.dateNow).imp id fun passed lockedUntil locked => ?_
    exact ⟨_, List.mem_cons_self, passed.2 lockedUntil locked⟩

theorem holds_after :
    onward.Holds worker (afterCall world worker request conditions).exchanges := by
  have made := step.made
  have holds := step.holds
  obtain call | call := request
  · generalize (performWallet (.inl call) conditions world.state).1 = answered at made
    cases made with
    | locked | salted | drawn | installed | timed | read | missing | shut | removed =>
      exact Stage.Holds.after holds rfl
    | derived =>
      exact ⟨conditions.dateNow, evaluations world.exchanges, List.suffix_refl _, holds.1.counted⟩
    | unlocked | encrypted | unencrypted | stored | unstored | opened | cleared => trivial
  · generalize answer : (performWallet (.inr call) conditions world.state).1 = answered at made
    cases made with
    | unloaded =>
      exact ⟨lookup_loaded answer, nofun, Nat.zero_le _, nofun⟩
    | @loaded stored =>
      exact ⟨lookup_loaded answer, (step.stored stored answer).mono evaluations_suffix⟩
    | counted =>
      cases answer
      exact step.loaded_counted holds rfl
    | @admitted attempts now free =>
      cases answer
      refine ⟨Loaded.after holds rfl, fun stored found => ?_⟩
      obtain same | elapsed := holds.chosen stored found
      · exact fun lockedUntil locked =>
          ⟨_, List.mem_cons_self, le_of_free free lockedUntil (same ▸ locked)⟩
      · exact elapsed.after
    | onboarded => exact Stage.Holds.after holds rfl
    | dated =>
      cases answer
      obtain ⟨last, before, suffix, counted⟩ := holds
      have passed := step.le_now (suffix.subset List.mem_cons_self)
      exact escalated_recordUnlockFailure (suffix.trans evaluations_suffix) counted passed
    | _ => trivial

/-- Only what a failed attempt records is stored. -/
theorem stored_after : ∀ stored ∈ (afterCall world worker request
      conditions).state.background.unlockAttempts,
    Escalated stored (evaluations (afterCall world worker request conditions).exchanges) := by
  have made := step.made
  have holds := step.holds
  have kept (same : (performWallet request conditions world.state).2.background.unlockAttempts =
      world.state.background.unlockAttempts) : ∀ stored ∈ (afterCall world worker request
        conditions).state.background.unlockAttempts,
      Escalated stored (evaluations (afterCall world worker request conditions).exchanges) :=
    fun stored found => (step.stored stored (same ▸ found)).mono evaluations_suffix
  obtain call | call := request
  · exact kept rfl
  · generalize (performWallet (.inr call) conditions world.state).1 = answered at made
    cases made with
    | recorded =>
      rintro _ ⟨⟩
      exact Escalated.mono holds evaluations_suffix
    | reset => exact absurd rfl step.guessing.2
    | _ => exact kept rfl

/-- A password is evaluated by an admitted message. -/
theorem admitted_of_evaluated {now : Millis}
    (evaluated : evaluatedAt (world.exchange (fun _ => performWallet) worker request conditions) =
      some now) : ∃ attempts, stage = .admitted attempts := by
  have made := step.made
  obtain call | call := request
  · generalize (performWallet (.inl call) conditions world.state).1 = answered at made
    cases made with
    | derived => exact ⟨_, rfl⟩
    | _ => cases evaluated
  · cases evaluated

theorem backsOff_after :
    BacksOff (world.exchange (fun _ => performWallet) worker request conditions)
      world.exchanges := by
  intro now evaluated last latest many
  obtain rfl : conditions.dateNow = now := dateNow_of_evaluatedAt evaluated
  obtain ⟨attempts, rfl⟩ := step.admitted_of_evaluated evaluated
  obtain ⟨loaded, elapsed⟩ := step.holds
  obtain ⟨stored, found, all⟩ | ⟨sent, found, late⟩ :=
    step.countsAll (Option.isSome_of_mem evaluated) last latest many
  · have member : attempts.stored = some stored := by
      have found : ((attributed loadedBy world.exchanges).lookup worker).join = some stored := found
      rwa [loaded.loaded, Option.join_some] at found
    obtain ⟨before, times⟩ := List.head?_eq_some_iff.mp latest
    rw [times] at all many ⊢
    obtain ⟨lockedUntil, locked, backoff⟩ :=
      (times ▸ loaded.escalated stored member).lockout all (all ▸ many)
    obtain ⟨exchange, made, passed⟩ := elapsed stored member lockedUntil locked
    rw [← all]
    exact (backoff.trans passed).trans (step.guessing.1 exchange made)
  · obtain ⟨exchange, made, seen⟩ := exists_of_lookup_attributed found
    exact late.trans (dateNow_of_sentAt seen ▸ step.guessing.1 exchange made)

end GuessFrom

end Steps

/-! ## Every run -/

/-- What is stored counts evaluated passwords, and the backoff was kept so far. -/
structure Backing (world : WalletWorld Worker sealing) : Prop where
  stored : ∀ stored ∈ world.state.background.unlockAttempts,
    Escalated stored (evaluations world.exchanges)
  backsOff : Historically BacksOff world.exchanges

theorem backoff_outlineStep :
    OutlineStep (fun _ => performWallet) WalletNext
      (fun exchange earlier => Guessing exchange earlier ∧ CountsAll exchange earlier)
      (@Backing Worker _ sealing) fun worker stage world =>
        stage.Holds worker world.exchanges := by
  intro worker stage request conditions onward world backing holds made met
  have step : GuessFrom world worker request conditions stage onward :=
    ⟨backing.stored, holds, made, met.1, met.2⟩
  exact ⟨⟨step.stored_after, step.backsOff_after, backing.backsOff⟩, step.holds_after,
    fun other different stage holds => holds.after (lookup_attributed_after_of_ne different)⟩

/-- In every run of guesses that count all before them, or come late enough, the backoff is kept. -/
theorem backoff_escalates (start : ServiceWorker sealing)
    (unguessed : ∀ stored ∈ start.background.unlockAttempts, stored = resetUnlockAttempts)
    (turns : List (Turn Worker Message (Conditions sealing)))
    (guessing : Historically Guessing (messagesHandled start turns).exchanges)
    (countsAll : Historically CountsAll (messagesHandled start turns).exchanges) :
    Historically BacksOff (messagesHandled start turns).exchanges := by
  have initial : Backing (⟨start, []⟩ : WalletWorld Worker sealing) := by
    refine ⟨fun stored found counted => ?_, trivial⟩
    rw [unguessed stored found] at counted
    exact absurd counted (by decide)
  exact (invariant_of_outline handled_follows backoff_outlineStep initial
    (fun _ => ⟨.idle, rfl, trivial⟩) turns (historically_and guessing countsAll)).1.backsOff

/-- Five wrong passwords, and a sixth after a second. -/
def sixGuesses : List (Turn Unit Message (Conditions (Sealing.symbolic (Plaintext String)))) :=
  turnsOf () (.unlockWallet "wrong") 15 0 ++
    (List.replicate 4 (turnsOf () (.unlockWallet "wrong") 16 0)).flatten ++
    turnsOf () (.unlockWallet "wrong") 16 1000

theorem backoff_escalates_six :
    Historically BacksOff (messagesHandled lockedWallet sixGuesses).exchanges := by
  have kept := backoff_escalates lockedWallet nofun sixGuesses
  exact kept (by decide +kernel) (by decide +kernel)

/-- A seventh password is evaluated at once, and not after two seconds. -/
theorem seventh_guess_at_once :
    ¬ (Historically Guessing (messagesHandled lockedWallet
        (sixGuesses ++ turnsOf () (.unlockWallet "wrong") 8 1000)).exchanges →
      Historically BacksOff (messagesHandled lockedWallet
        (sixGuesses ++ turnsOf () (.unlockWallet "wrong") 8 1000)).exchanges) := by
  decide +kernel

end Ancore.Wallet
