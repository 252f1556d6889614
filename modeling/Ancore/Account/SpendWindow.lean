import Ancore.Account.SessionKeys
import Ancore.Library.WindowBudget

/-! # The cumulative spend cap

The spend fields of a session key are a `Window`; the check before an execution
and the accounting after it roll it alike (`SessionKey.window_roll`).  Between a
registration and the next revocation the executions through the key are then
`Budgeted` by the key's limit.
-/

namespace Ancore.Account

open Ancore.Library Ancore.Library.FixedWidth Ancore.Soroban

/-! ## One spend -/

/-- The spend window of a key. -/
def SessionKey.window (session : SessionKey) : Window Int :=
  ⟨session.spendWindowStart.toNat, session.spentInWindow.val⟩

section Spend

variable {now : UInt64} {session after : SessionKey} {args : List Val} {limit amount : Int128}

theorem SessionKey.window_roll :
    (session.rollWindow now).window =
      session.window.roll session.spendWindowSeconds.toNat now.toNat := by
  -- Saturation does not show: no time lies above the largest one.
  have passed : now > saturatingAdd session.spendWindowStart session.spendWindowSeconds ↔
      session.spendWindowStart.toNat + session.spendWindowSeconds.toNat < now.toNat :=
    saturatingAdd_uint64_lt
  by_cases late : session.spendWindowStart.toNat + session.spendWindowSeconds.toNat < now.toNat
  · simp only [SessionKey.rollWindow, Window.roll, SessionKey.window, passed, late, if_true]
    rfl
  · simp only [SessionKey.rollWindow, Window.roll, SessionKey.window, passed, late, if_false]

theorem SessionKey.rollWindow_spent_nonneg (nonnegative : 0 ≤ session.spentInWindow.val)
    (now : UInt64) : 0 ≤ (session.rollWindow now).spentInWindow.val := by
  unfold SessionKey.rollWindow
  split
  · exact le_rfl
  · exact nonnegative

/-- The cumulative check looks at the window as the accounting will roll it. -/
theorem checked_fits (limited : session.cumulativeLimit = some limit)
    (extracted : extractSpendAmount args = some amount)
    (checked : checkSessionSpendLimits now session args = .ok ()) :
    (session.rollWindow now).spentInWindow.val + amount.val ≤ limit.val := by
  have positive := extractSpendAmount_positive extracted
  rw [checkSessionSpendLimits, checkSpendLimits_ok extracted positive] at checked
  have cumulative := checked.2
  simp only [checkCumulativeLimit, limited] at cumulative
  split at cumulative
  · cases cumulative
  · rename_i next sum
    rw [Int128.checkedAdd_eq_some] at sum
    rw [ite_error_eq_ok, Int128.lt_def] at cumulative
    -- The check forgets what was spent exactly when the accounting opens a new window.
    have spent : (session.rollWindow now).spentInWindow =
        if saturatingAdd session.spendWindowStart session.spendWindowSeconds < now then 0
          else session.spentInWindow := by
      unfold SessionKey.rollWindow
      split <;> simp_all
    rw [spent]
    omega

/-- Accounting a positive amount charges the window. -/
theorem applySpendUsage_window (limited : session.cumulativeLimit = some limit)
    (extracted : extractSpendAmount args = some amount)
    (applied : applySpendUsage now session args = .ok after) :
    after.window = session.window.charge session.spendWindowSeconds.toNat now.toNat amount.val := by
  simp only [applySpendUsage, extracted, limited] at applied
  split at applied
  · cases applied
  · rename_i spent sum
    rw [Int128.checkedAdd_eq_some] at sum
    cases applied
    rw [Window.charge, ← SessionKey.window_roll]
    simp only [SessionKey.window, sum]

theorem applySpendUsage_nothing (extracted : extractSpendAmount args = none)
    (applied : applySpendUsage now session args = .ok after) : after = session := by
  simp only [applySpendUsage, extracted] at applied
  cases applied
  rfl

end Spend

/-! ## The spend of a run -/

/-- What a call spends through the key: its accounted amount if it is an execution by the key. -/
def AccountTransition.spentBy (publicKey : PublicKey) (transition : AccountTransition) : Int :=
  match transition.call with
  | .execute request =>
    if request.caller = .sessionKey publicKey then accountedAmount request.args else 0
  | _ => 0

/-- The ledger time of a call. -/
def AccountTransition.time (transition : AccountTransition) : ℕ := transition.env.timestamp.toNat

/-- What each call of a run spends through the key, and when. -/
def spendsBy (publicKey : PublicKey) (run : List AccountTransition) : List (ℕ × Int) :=
  run.map fun transition => (AccountTransition.time transition,
    AccountTransition.spentBy publicKey transition)

/-- The key is stored with its limit and window, and what it spent is budgeted by them. -/
def KeyBudgeted (publicKey : PublicKey) (limit : Int128) (width opened : ℕ)
    (past : List AccountTransition) (state : Storage) : Prop :=
  ∃ session, state.sessionKey publicKey = some session ∧
    session.cumulativeLimit = some limit ∧ session.spendWindowSeconds.toNat = width ∧
    0 ≤ session.spentInWindow.val ∧
    Budgeted limit.val width opened (spendsBy publicKey past) session.window

theorem AccountTransition.spentBy_other {publicKey : PublicKey} {transition : AccountTransition}
    (other : transition.call.sessionKey ≠ some publicKey) :
    AccountTransition.spentBy publicKey transition = 0 := by
  unfold AccountTransition.spentBy
  split
  · rename_i request isExecute
    split
    · rename_i caller
      simp [isExecute, Call.sessionKey, caller] at other
    · rfl
  · rfl

/-- One step keeps the budget of a key it does not revoke. -/
theorem KeyBudgeted.preserved {publicKey : PublicKey} {limit : Int128} {width opened : ℕ}
    {past : List AccountTransition} {transition : AccountTransition} (nonnegative : 0 ≤ limit.val)
    (budgeted : KeyBudgeted publicKey limit width opened past transition.before)
    (performed : transition.Performed step)
    (kept : transition.call ≠ .revokeSessionKey publicKey)
    (begun : opened ≤ AccountTransition.time transition)
    (latest : ∀ earlier ∈ past,
      AccountTransition.time earlier ≤ AccountTransition.time transition) :
    KeyBudgeted publicKey limit width opened (past ++ [transition]) transition.after := by
  obtain ⟨session, stored, limited, seconds, spent, budget⟩ := budgeted
  have change := (AccountTransition.change performed).key publicKey
  have extended : spendsBy publicKey (past ++ [transition]) = spendsBy publicKey past ++
      [(AccountTransition.time transition, AccountTransition.spentBy publicKey transition)] := by
    simp [spendsBy]
  rw [stored] at change
  unfold KeyBudgeted
  rw [extended]
  generalize isCall : AccountTransition.call transition = call at change kept
  generalize transition.after.sessionKey publicKey = record at change ⊢
  cases change with
  | unchanged other =>
    rw [AccountTransition.spentBy_other (isCall ▸ other)]
    exact ⟨session, rfl, limited, seconds, spent, budget.idle⟩
  | @spent request _ after caller applied checked =>
    have spends :
        AccountTransition.spentBy publicKey transition = accountedAmount request.args := by
      simp [AccountTransition.spentBy, isCall, caller]
    rw [spends, accountedAmount]
    cases extracted : extractSpendAmount request.args with
    | none =>
      -- No positive amount: nothing is charged, and the window does not roll.
      cases applySpendUsage_nothing extracted applied
      exact ⟨session, rfl, limited, seconds, spent, budget.idle⟩
    | some amount =>
      have charged := applySpendUsage_window limited extracted applied
      have fits := checked_fits limited extracted checked
      have positive := extractSpendAmount_positive extracted
      have rolled := SessionKey.rollWindow_spent_nonneg spent transition.env.timestamp
      have spentAfter : after.spentInWindow.val =
          (session.rollWindow transition.env.timestamp).spentInWindow.val + amount.val := by
        have same := congrArg Window.spent charged
        rwa [Window.charge, ← SessionKey.window_roll] at same
      have charge := budget.charge nonnegative begun (by simpa [spendsBy] using latest)
        (show _ + amount.val ≤ _ by
          rw [← seconds, AccountTransition.time, ← SessionKey.window_roll]
          exact fits)
      refine ⟨after, rfl, ?_, ?_, by omega, ?_⟩
      · obtain ⟨_, _, rfl⟩ := applySpendUsage_ok applied
        exact limited
      · obtain ⟨_, _, rfl⟩ := applySpendUsage_ok applied
        exact seconds
      · rw [charged, seconds]
        exact charge
  | revoked => exact absurd rfl kept
  | allowlistSet =>
    have nothing : AccountTransition.spentBy publicKey transition = 0 := by
      simp [AccountTransition.spentBy, isCall]
    rw [nothing]
    exact ⟨_, rfl, limited, seconds, spent, budget.idle⟩
  | refreshed =>
    have nothing : AccountTransition.spentBy publicKey transition = 0 := by
      simp [AccountTransition.spentBy, isCall]
    rw [nothing]
    exact ⟨_, rfl, limited, seconds, spent, budget.idle⟩

/-! ## Whole runs -/

/-- From the registration on, as long as the key is not revoked and time does not run backwards,
the key stays budgeted. -/
theorem keyBudgeted_invariant {publicKey : PublicKey} {limit : Int128} {width opened : ℕ}
    {start : Storage} (nonnegative : 0 ≤ limit.val)
    (initial : KeyBudgeted publicKey limit width opened [] start) :
    HistoryInvariant step start fun past state =>
      (∀ transition ∈ past, transition.input.2 ≠ .revokeSessionKey publicKey) →
      (opened :: past.map AccountTransition.time).Pairwise (· ≤ ·) →
        KeyBudgeted publicKey limit width opened past state where
  init := fun _ _ => initial
  preserved := by
    intro past transition current performed kept ordered
    rw [List.map_append, ← List.cons_append, List.pairwise_append] at ordered
    obtain ⟨earlier, _, latest⟩ := ordered
    refine (current (fun other member => kept other (by simp [member])) earlier).preserved
      nonnegative performed (kept transition (by simp)) (latest opened (by simp) _ (by simp)) ?_
    intro other member
    exact latest _ (List.mem_cons_of_mem _ (List.mem_map_of_mem member)) _ (by simp)

/-- A fresh key with a cumulative limit is budgeted from its registration on. -/
theorem keyBudgeted_of_added {added : AccountTransition} {request : SessionKeyRequest}
    {limit : Int128} (performed : added.Performed step)
    (isAdd : added.input.2 = .addSessionKey request)
    (limited : request.cumulativeLimit = some limit) :
    0 ≤ limit.val ∧ KeyBudgeted request.publicKey limit request.spendWindowSeconds.toNat
      (AccountTransition.time added) [] added.after := by
  have change := (AccountTransition.change performed).key request.publicKey
  rw [AccountTransition.call, isAdd] at change
  unfold KeyBudgeted
  generalize added.before.sessionKey request.publicKey = before at change
  generalize added.after.sessionKey request.publicKey = after at change
  cases change with
  | unchanged other => simp [Call.sessionKey] at other
  | added _ policy =>
    have positive := ((validateSpendPolicy_ok.mp policy).2.1 limit limited).1
    exact ⟨positive.le, _, rfl, limited, rfl, le_rfl, .opening positive.le⟩

/-- The cumulative spend cap over whole runs. -/
theorem cumulative_spend_capped (added : AccountTransition) (request : SessionKeyRequest)
    (limit : Int128) (calls : List (Env × Call)) (performed : added.Performed step)
    (isAdd : added.input.2 = .addSessionKey request)
    (limited : request.cumulativeLimit = some limit)
    (ordered : ((added.input :: calls).map fun input => input.1.timestamp.toNat).Pairwise (· ≤ ·))
    (kept : ∀ transition ∈ history step added.after calls,
      transition.input.2 ≠ .revokeSessionKey request.publicKey) :
    (∃ session, (final step added.after calls).sessionKey request.publicKey = some session ∧
      0 ≤ session.spentInWindow.val ∧ session.spentInWindow.val ≤ limit.val) ∧
    (∀ time, AccountTransition.time added ≤ time →
      totalUpTo time (spendsBy request.publicKey (history step added.after calls)) ≤
        limit.val * (1 + (time - AccountTransition.time added) /
          (request.spendWindowSeconds.toNat + 1) : ℕ)) ∧
    ∀ time < AccountTransition.time added,
      totalUpTo time (spendsBy request.publicKey (history step added.after calls)) = 0 := by
  obtain ⟨nonnegative, initial⟩ := keyBudgeted_of_added performed isAdd limited
  -- The successful calls are among all calls, so their times are in order too.
  have times : (AccountTransition.time added ::
      (history step added.after calls).map AccountTransition.time).Pairwise (· ≤ ·) := by
    refine ordered.sublist ?_
    have succeeded := (history_inputs_sublist step added.after calls).map
      fun input : Env × Call => input.1.timestamp.toNat
    rw [List.map_map] at succeeded
    exact succeeded.cons_cons _
  obtain ⟨session, stored, _, _, spent, budget⟩ :=
    (keyBudgeted_invariant nonnegative initial).holds_final calls kept times
  refine ⟨⟨session, stored, spent, budget.spent_le⟩, ?_, ?_⟩
  · intro time begun
    have bound := budget.bounded time begun
    rwa [nsmul_eq_mul, mul_comm] at bound
  · intro time early
    have none : ∀ charge ∈ spendsBy request.publicKey (history step added.after calls),
        ¬ charge.1 ≤ time := by
      intro charge member
      obtain ⟨transition, ran, rfl⟩ := List.mem_map.mp member
      have later := (List.pairwise_cons.mp times).1 _ (List.mem_map_of_mem ran)
      exact not_le.mpr (early.trans_le later)
    rw [totalUpTo, List.filter_eq_nil_iff.mpr (by simpa using none)]
    rfl

/-- The sample key spends 5 of its 20 at time 100. -/
theorem cumulative_spend_capped_of_sample :
    ∃ first added, history step Storage.empty (sampleSetup sampleAccount 1000) = [first, added] ∧
      totalUpTo 100 (spendsBy samplePublicKey (history step added.after [sampleExecute])) = 5 ∧
      totalUpTo 100 (spendsBy samplePublicKey (history step added.after [sampleExecute])) ≤
        20 * (1 + (100 - AccountTransition.time added) / 61 : ℕ) := by
  obtain ⟨first, added, located⟩ := List.length_eq_two.mp
    (show (history step Storage.empty (sampleSetup sampleAccount 1000)).length = 2 from rfl)
  have inputs : [first, added].map (·.input) = sampleSetup sampleAccount 1000 := by
    rw [← located]
    rfl
  have reached : [first, added].map (·.after) =
      [final step Storage.empty ((sampleSetup sampleAccount 1000).take 1),
        final step Storage.empty (sampleSetup sampleAccount 1000)] := by
    rw [← located]
    rfl
  simp only [List.map_cons, List.map_nil, sampleSetup, List.cons.injEq] at inputs reached
  have executed : (history step added.after [sampleExecute]).map (·.input) = [sampleExecute] := by
    rw [reached.2.1]
    rfl
  have spends : spendsBy samplePublicKey (history step added.after [sampleExecute]) =
      [(100, 5)] := by
    rw [reached.2.1]
    rfl
  have performed : added.Performed step :=
    performed_of_mem_history step (by rw [located]; exact List.mem_cons_of_mem _ (by simp))
  have capped := cumulative_spend_capped added (sampleRegistration 1000)
    ⟨20, by decide, by decide⟩ [sampleExecute] performed (by rw [inputs.2.1]) rfl
    (by rw [inputs.2.1]; decide) (by
      intro transition member
      have listed := List.mem_map_of_mem (f := fun t : AccountTransition => t.input) member
      rw [executed] at listed
      rw [List.mem_singleton.mp listed]
      simp [sampleExecute])
  refine ⟨first, added, located, ?_, ?_⟩
  · rw [spends]
    rfl
  · exact capped.2.1 100 (by rw [AccountTransition.time, AccountTransition.env, inputs.2.1]; decide)

end Ancore.Account
