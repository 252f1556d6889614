import Ancore.Library.Calendar

/-! # Scheduled transfers and their times

The record of a scheduled transfer, when its next run is, and how long a failed
run is backed off.  Dates are time values in milliseconds. -/

namespace Ancore.Relayer

open Ancore.Library

abbrev Date := Int

/-- A `randomUUID`; only whether two of them are equal matters. -/
abbrev TransferId := Nat

inductive ScheduleFrequency where
  | once
  | daily
  | weekly
  | monthly
  deriving DecidableEq, Repr

inductive ScheduledTransferStatus where
  | active
  | paused
  | cancelled
  | completed
  | failed
  deriving DecidableEq, Repr

inductive RelayOperation where
  | relayExecute
  | addSessionKey
  | revokeSessionKey
  deriving DecidableEq, Repr

/-- The payload the user approved; `parameters` is its JSON object as text. -/
structure RelayPayload where
  sessionKey : String
  operation : RelayOperation
  parameters : String
  signature : String
  nonce : Nat
  deriving DecidableEq, Repr

structure ScheduledTransfer where
  id : TransferId
  callerId : String
  frequency : ScheduleFrequency
  status : ScheduledTransferStatus
  nextRunAt : Date
  endAt : Option Date
  relayPayload : RelayPayload
  consecutiveFailures : Nat
  lastExecutionAt : Option Date
  deriving DecidableEq, Repr

/-! ## The next run -/

/-- `Date.UTC` reads a year from 0 to 99 as one of the twentieth century. -/
def fullYear (year : Int) : Int := if 0 ≤ year ∧ year ≤ 99 then 1900 + year else year

/-- The day before the first of the next month. -/
def daysInUTCMonth (year month : Int) : Int :=
  Calendar.date (Calendar.makeDate (Calendar.makeDay (fullYear year) (month + 1) 0) 0)

def addOneUTCMonthClamped (date : Date) : Date :=
  let originalDay := Calendar.date date
  let targetYear := Calendar.year date
  let targetMonth := Calendar.month date + 1
  let targetMonthLastDay := daysInUTCMonth targetYear targetMonth
  Calendar.setDate (Calendar.setMonth (Calendar.setDate date 1) targetMonth)
    (min originalDay targetMonthLastDay)

/-- `null` once the recurrence has ended. -/
def unlessEnded (endAt : Option Date) (next : Date) : Option Date :=
  match endAt with
  | some endAt => if endAt < next then none else some next
  | none => some next

def computeNextRunAt (start : Date) (frequency : ScheduleFrequency) (endAt : Option Date) :
    Option Date :=
  match frequency with
  | .once => none
  | .daily => unlessEnded endAt (Calendar.setDate start (Calendar.date start + 1))
  | .weekly => unlessEnded endAt (Calendar.setDate start (Calendar.date start + 7))
  | .monthly => unlessEnded endAt (addOneUTCMonthClamped start)

def isDue (nextRunAt now : Date) : Bool := nextRunAt ≤ now

theorem eq_of_unlessEnded {endAt : Option Date} {date next : Date}
    (goesOn : unlessEnded endAt date = some next) : next = date := by
  unfold unlessEnded at goesOn
  split at goesOn
  · split at goesOn
    · cases goesOn
    · exact (Option.some.inj goesOn).symm
  · exact (Option.some.inj goesOn).symm

theorem lt_addOneUTCMonthClamped (date : Date) : date < addOneUTCMonthClamped date := by
  apply Calendar.lt_setDate_next_month
  exact le_min (Calendar.one_le_date date) (Calendar.one_le_date _)

/-- A recurrence goes forward. -/
theorem lt_of_computeNextRunAt {start next : Date} {frequency : ScheduleFrequency}
    {endAt : Option Date} (recurs : computeNextRunAt start frequency endAt = some next) :
    start < next := by
  cases frequency with
  | once => cases recurs
  | daily =>
    rw [eq_of_unlessEnded recurs, Calendar.setDate_add]
    exact Int.lt_add_of_pos_right _ (by decide)
  | weekly =>
    rw [eq_of_unlessEnded recurs, Calendar.setDate_add]
    exact Int.lt_add_of_pos_right _ (by decide)
  | monthly =>
    rw [eq_of_unlessEnded recurs]
    exact lt_addOneUTCMonthClamped start

-- 31 January 2025 at noon runs next on 28 February.
example : computeNextRunAt 1738324800000 .monthly none = some 1740744000000 := by decide

/-! ## Backoff -/

/-- A value of `Math.random()`. -/
structure Random where
  value : ℚ
  nonneg : 0 ≤ value
  lt_one : value < 1

def baseMs : Nat := 1000

def capMs : Nat := 60000

def computeBackoffMs (attempt : Nat) (random : Random) : Int :=
  let exponential := min capMs (baseMs * 2 ^ attempt)
  ⌊random.value * exponential⌋

def nextRetryAfter (attempt : Nat) (now : Date) (random : Random) : Date :=
  now + computeBackoffMs attempt random

theorem computeBackoffMs_nonneg (attempt : Nat) (random : Random) :
    0 ≤ computeBackoffMs attempt random :=
  Int.floor_nonneg.mpr (mul_nonneg random.nonneg (Nat.cast_nonneg _))

theorem computeBackoffMs_le_capMs (attempt : Nat) (random : Random) :
    computeBackoffMs attempt random ≤ capMs := by
  unfold computeBackoffMs
  apply Int.floor_le_iff.mpr
  have capped : ((min capMs (baseMs * 2 ^ attempt) : Nat) : ℚ) ≤ capMs :=
    Nat.cast_le.mpr (min_le_left _ _)
  calc random.value * ((min capMs (baseMs * 2 ^ attempt) : Nat) : ℚ)
      ≤ 1 * ((min capMs (baseMs * 2 ^ attempt) : Nat) : ℚ) :=
        mul_le_mul_of_nonneg_right random.lt_one.le (Nat.cast_nonneg _)
    _ ≤ capMs := by rwa [one_mul]
    _ < ((capMs : Int) : ℚ) + 1 := by norm_num

/-- A retry is never before the run it retries. -/
theorem le_nextRetryAfter (attempt : Nat) (now : Date) (random : Random) :
    now ≤ nextRetryAfter attempt now random :=
  Int.le_add_of_nonneg_right (computeBackoffMs_nonneg attempt random)

end Ancore.Relayer
