import Mathlib

/-! # Budgets over reset windows

A budget caps what is spent in a window.  The window is not sliding: it opens at
some time, and the first charge more than `width` after its opening opens the
next one with nothing spent.  `Budgeted` is the invariant of such an account; it
bounds what is charged up to any time by one limit for every `width + 1` units of
time begun since the first opening (`Budgeted.bounded`).

Amounts are taken from any ordered commutative monoid.
-/

namespace Ancore.Library

/-- When the current window opened and what was spent in it. -/
structure Window (M : Type) where
  start : ℕ
  spent : M

variable {M : Type} [AddCommMonoid M]

/-- Open the next window if the current one has passed. -/
def Window.roll (width now : ℕ) (window : Window M) : Window M :=
  if window.start + width < now then ⟨now, 0⟩ else window

/-- Spend an amount now. -/
def Window.charge (width now : ℕ) (amount : M) (window : Window M) : Window M :=
  ⟨(window.roll width now).start, (window.roll width now).spent + amount⟩

/-- What was charged up to a time; a charge is its time and its amount. -/
def totalUpTo (time : ℕ) (charges : List (ℕ × M)) : M :=
  ((charges.filter fun charge => charge.1 ≤ time).map Prod.snd).sum

section Total

variable {time now : ℕ} {amount : M} {charges : List (ℕ × M)}

theorem totalUpTo_append_after (after : time < now) :
    totalUpTo time (charges ++ [(now, amount)]) = totalUpTo time charges := by
  simp [totalUpTo, List.filter_append, not_le.mpr after]

theorem totalUpTo_append_before (before : now ≤ time) :
    totalUpTo time (charges ++ [(now, amount)]) = totalUpTo time charges + amount := by
  simp [totalUpTo, List.filter_append, before]

/-- Once every charge is past, all of them count. -/
theorem totalUpTo_of_forall_le (all : ∀ charge ∈ charges, charge.1 ≤ time) :
    totalUpTo time charges = (charges.map Prod.snd).sum := by
  rw [totalUpTo, List.filter_eq_self.mpr (by simpa using all)]

end Total

variable [PartialOrder M]

/-- The charges so far went through a window of this width and limit, opened at `opened`. -/
structure Budgeted (limit : M) (width opened : ℕ) (charges : List (ℕ × M)) (window : Window M) :
    Prop where
  spent_le : window.spent ≤ limit
  started : window.start = opened ∨ ∃ charge ∈ charges, charge.1 = window.start
  /-- Every reset came at least `width + 1` after the opening before it, and what is not in the
  current window was within one limit for each reset. -/
  resets : ∃ count : ℕ, opened + count * (width + 1) ≤ window.start ∧
    (charges.map Prod.snd).sum ≤ count • limit + window.spent
  bounded : ∀ time, opened ≤ time →
    totalUpTo time charges ≤ (1 + (time - opened) / (width + 1)) • limit

namespace Budgeted

variable {limit : M} {width opened now : ℕ} {charges : List (ℕ × M)} {window : Window M}
  {amount : M}

theorem start_le (budgeted : Budgeted limit width opened charges window) (begun : opened ≤ now)
    (latest : ∀ charge ∈ charges, charge.1 ≤ now) : window.start ≤ now := by
  rcases budgeted.started with start | ⟨charge, member, start⟩
  · omega
  · exact start ▸ latest charge member

/-- The window an account is opened with. -/
theorem opening [IsOrderedAddMonoid M] (nonnegative : 0 ≤ limit) :
    Budgeted limit width opened [] (⟨opened, 0⟩ : Window M) where
  spent_le := nonnegative
  started := .inl rfl
  resets := ⟨0, by simp, by simp⟩
  bounded := fun time _ => nsmul_nonneg nonnegative _

/-- Charging nothing may leave the window alone. -/
theorem idle (budgeted : Budgeted limit width opened charges window) :
    Budgeted limit width opened (charges ++ [(now, 0)]) window where
  spent_le := budgeted.spent_le
  started := budgeted.started.imp_right fun ⟨charge, member, start⟩ =>
    ⟨charge, List.mem_append_left _ member, start⟩
  resets := by simpa using budgeted.resets
  bounded := by
    intro time begun
    rcases lt_or_ge time now with after | before
    · rw [totalUpTo_append_after after]
      exact budgeted.bounded time begun
    · rw [totalUpTo_append_before before, add_zero]
      exact budgeted.bounded time begun

variable [IsOrderedAddMonoid M]

/-- Rolling the window keeps the account of the resets. -/
theorem roll_resets (budgeted : Budgeted limit width opened charges window) (now : ℕ) :
    ∃ count : ℕ, opened + count * (width + 1) ≤ (window.roll width now).start ∧
      (charges.map Prod.snd).sum ≤ count • limit + (window.roll width now).spent := by
  obtain ⟨count, opening, total⟩ := budgeted.resets
  unfold Window.roll
  split
  -- The window has passed: one more limit pays for what was spent in it.
  · rename_i passed
    refine ⟨count + 1, ?_, ?_⟩
    · change opened + (count + 1) * (width + 1) ≤ now
      rw [Nat.add_mul, one_mul]
      omega
    · calc (charges.map Prod.snd).sum
          ≤ count • limit + window.spent := total
        _ ≤ count • limit + limit := by gcongr; exact budgeted.spent_le
        _ = (count + 1) • limit + 0 := by rw [succ_nsmul, add_zero]
  · exact ⟨count, opening, total⟩

/-- A charge that fits the window as rolled keeps the budget. -/
theorem charge (nonnegative : 0 ≤ limit) (budgeted : Budgeted limit width opened charges window)
    (begun : opened ≤ now) (latest : ∀ charge ∈ charges, charge.1 ≤ now)
    (fits : (window.roll width now).spent + amount ≤ limit) :
    Budgeted limit width opened (charges ++ [(now, amount)]) (window.charge width now amount) := by
  obtain ⟨count, opening, total⟩ := budgeted.roll_resets now
  have charged : ((charges ++ [(now, amount)]).map Prod.snd).sum ≤
      count • limit + ((window.roll width now).spent + amount) := by
    rw [List.map_append, List.sum_append, List.map_singleton, List.sum_singleton, ← add_assoc]
    gcongr
  have rolled : (window.roll width now).start ≤ now := by
    unfold Window.roll
    split
    · exact le_rfl
    · exact budgeted.start_le begun latest
  refine ⟨fits, ?_, ⟨count, opening, charged⟩, ?_⟩
  · unfold Window.charge Window.roll
    split
    -- A window that was just opened starts at the charge itself.
    · exact .inr ⟨(now, amount), by simp, rfl⟩
    · exact budgeted.started.imp_right fun ⟨charge, member, start⟩ =>
        ⟨charge, List.mem_append_left _ member, start⟩
  · intro time begunTime
    rcases lt_or_ge time now with after | before
    · rw [totalUpTo_append_after after]
      exact budgeted.bounded time begunTime
    · have all : ∀ charge ∈ charges ++ [(now, amount)], charge.1 ≤ time := by
        intro charge member
        rcases List.mem_append.mp member with member | member
        · exact (latest charge member).trans before
        · cases List.mem_singleton.mp member
          exact before
      -- `count` resets, each `width + 1` after the one before, have all happened by now, and now is
      -- no later than `time`.
      have windows : count + 1 ≤ 1 + (time - opened) / (width + 1) := by
        have enough : count ≤ (time - opened) / (width + 1) := by
          rw [Nat.le_div_iff_mul_le (by omega)]
          omega
        omega
      calc totalUpTo time (charges ++ [(now, amount)])
          = ((charges ++ [(now, amount)]).map Prod.snd).sum := totalUpTo_of_forall_le all
        _ ≤ count • limit + ((window.roll width now).spent + amount) := charged
        _ ≤ count • limit + limit := by gcongr
        _ = (count + 1) • limit := (succ_nsmul limit count).symm
        _ ≤ (1 + (time - opened) / (width + 1)) • limit := nsmul_le_nsmul_left nonnegative windows

end Budgeted

end Ancore.Library
