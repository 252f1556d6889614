import Mathlib.Data.Nat.Basic

/-! # Repeating a call

Calls are numbered, and the outcome of a call says whether another one is asked for.  A
repetition goes on while it is asked for and while its budget lasts.  Repetitions nest: one
that repeats whole repetitions has the product of the two budgets.
-/

namespace Ancore.Library

variable {again : ℕ → Prop} {budget rounds first middle last : ℕ}

/-- The calls with numbers from `first` on and before `last` are those that a repetition makes. -/
structure Repeats (again : ℕ → Prop) (budget first last : ℕ) : Prop where
  some_call : first < last
  within : last ≤ first + budget
  asked : ∀ call, first ≤ call → call + 1 < last → again call
  ended : last = first + budget ∨ ¬ again (last - 1)

namespace Repeats

theorem of_not_again (budgeted : 0 < budget) (stops : ¬ again first) :
    Repeats again budget first (first + 1) where
  some_call := by omega
  within := by omega
  asked call from_first before := by omega
  ended := .inr stops

theorem single : Repeats again 1 first (first + 1) where
  some_call := by omega
  within := Nat.le_refl _
  asked call from_first before := by omega
  ended := .inl rfl

/-- A call that asks for another one is followed by what the budget that is left allows. -/
theorem cons (goes_on : again first) (rest : Repeats again budget (first + 1) last) :
    Repeats again (budget + 1) first last where
  some_call := by have := rest.some_call; omega
  within := by have := rest.within; omega
  asked call from_first before := by
    rcases Nat.eq_or_lt_of_le from_first with rfl | later
    · exact goes_on
    · exact rest.asked call later before
  ended := by
    refine rest.ended.imp (fun exhausted => ?_) id
    omega

theorem length_of_again (round : Repeats again budget first last) (asks : again (last - 1)) :
    last = first + budget :=
  round.ended.resolve_right (absurd asks)

/-- A repetition that was stopped is also one with a larger budget. -/
theorem stopped {larger : ℕ} (round : Repeats again budget first last) (stops : ¬ again (last - 1))
    (allowed : budget ≤ larger) : Repeats again larger first last where
  some_call := round.some_call
  within := Nat.le_trans round.within (Nat.add_le_add_left allowed first)
  asked := round.asked
  ended := .inr stops

/-- One round that used its budget up and the rounds after it. -/
theorem trans (round : Repeats again budget first middle) (asks : again (middle - 1))
    (rest : Repeats again (rounds * budget) middle last) :
    Repeats again ((rounds + 1) * budget) first last where
  some_call := Nat.lt_trans round.some_call rest.some_call
  within := by
    have used := round.length_of_again asks
    have := rest.within
    rw [Nat.succ_mul]
    omega
  asked call from_first before := by
    rcases Nat.lt_or_ge call middle with early | late
    · rcases Nat.eq_or_lt_of_le (Nat.succ_le_of_lt early) with end_of_round | inside
      · have : call = middle - 1 := by omega
        rwa [this]
      · exact round.asked call from_first inside
    · exact rest.asked call late before
  ended := by
    have used := round.length_of_again asks
    refine rest.ended.imp (fun exhausted => ?_) id
    rw [Nat.succ_mul]
    omega

/-- The calls stay within a part of the budget exactly when one of the first calls does not ask
for another one, or when the part is all of it. -/
theorem le_iff {allowed : ℕ} (repeats : Repeats again budget first last)
    (part : allowed ≤ budget) :
    last ≤ first + allowed ↔
      allowed = budget ∨ ∃ call, first ≤ call ∧ call < first + allowed ∧ ¬ again call := by
  have started := repeats.some_call
  constructor
  · intro few
    rcases repeats.ended with exhausted | stopped
    · exact .inl (by omega)
    · exact .inr ⟨last - 1, by omega, by omega, stopped⟩
  · rintro (rfl | ⟨call, from_first, early, stops⟩)
    · exact repeats.within
    · by_contra many
      exact stops (repeats.asked call from_first (by omega))

end Repeats

end Ancore.Library
