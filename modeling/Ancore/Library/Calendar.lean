import Mathlib

/-! # The UTC calendar

Time values are milliseconds since 1970-01-01T00:00:00Z, and the proleptic
Gregorian calendar gives each of them a year, a month (from 0) and a day of the
month (from 1).  `makeDay` goes the other way and accepts months and days outside
their ranges, which carry over into the next year or month.
-/

namespace Ancore.Library.Calendar

def millisecondsPerDay : Int := 86400000

/-- The days since the epoch. -/
def day (time : Int) : Int := time / millisecondsPerDay

def timeWithinDay (time : Int) : Int := time % millisecondsPerDay

def makeDate (day timeWithinDay : Int) : Int := day * millisecondsPerDay + timeWithinDay

/-- The day a year begins on. -/
def dayFromYear (year : Int) : Int :=
  365 * (year - 1970) + (year - 1969) / 4 - (year - 1901) / 100 + (year - 1601) / 400

/-- 1 in a leap year, 0 in a common one. -/
def leapDay (year : Int) : Int :=
  if year % 4 = 0 ∧ (year % 100 ≠ 0 ∨ year % 400 = 0) then 1 else 0

/-- The year of a day: the mean year gives it up to one. -/
def yearFromDay (day : Int) : Int :=
  let year := 1970 + day * 400 / 146097
  if day < dayFromYear year then year - 1
  else if dayFromYear (year + 1) ≤ day then year + 1
  else year

/-- The lengths of the months of a year. -/
def monthLengths (leapDay : Int) : List Int :=
  [31, 28 + leapDay, 31, 30, 31, 30, 31, 31, 30, 31, 30, 31]

/-- The day of the year a month begins on; the month after the last is the next year. -/
def dayFromMonth (lengths : List Int) (month : Nat) : Int := (lengths.take month).sum

def monthFromDayOfYear : List Int → Int → Nat
  | [], _ => 0
  | length :: lengths, dayOfYear =>
    if dayOfYear < length then 0 else monthFromDayOfYear lengths (dayOfYear - length) + 1

def year (time : Int) : Int := yearFromDay (day time)

def monthFromDay (day : Int) : Int :=
  monthFromDayOfYear (monthLengths (leapDay (yearFromDay day)))
    (day - dayFromYear (yearFromDay day))

def month (time : Int) : Int := monthFromDay (day time)

/-- The day a month begins on, where months beyond the twelfth are those of later years. -/
def dayFromYearMonth (year month : Int) : Int :=
  dayFromYear (year + month / 12) +
    dayFromMonth (monthLengths (leapDay (year + month / 12))) (month % 12).toNat

def makeDay (year month date : Int) : Int := dayFromYearMonth year month + (date - 1)

def date (time : Int) : Int := day time - dayFromYearMonth (year time) (month time) + 1

/-- The time value with another day of the month. -/
def setDate (time date : Int) : Int :=
  makeDate (makeDay (year time) (month time) date) (timeWithinDay time)

/-- The time value with another month. -/
def setMonth (time month : Int) : Int :=
  makeDate (makeDay (year time) month (date time)) (timeWithinDay time)

/-! ## Days and the time within them -/

theorem makeDate_day (time : Int) : makeDate (day time) (timeWithinDay time) = time := by
  unfold makeDate day timeWithinDay
  rw [Int.mul_comm]
  exact Int.mul_ediv_add_emod ..

theorem day_makeDate (other time : Int) : day (makeDate other (timeWithinDay time)) = other := by
  unfold day makeDate timeWithinDay millisecondsPerDay
  omega

theorem timeWithinDay_makeDate (other time : Int) :
    timeWithinDay (makeDate other (timeWithinDay time)) = timeWithinDay time := by
  unfold timeWithinDay makeDate millisecondsPerDay
  omega

theorem lt_makeDate {time other : Int} (later : day time < other) :
    time < makeDate other (timeWithinDay time) := by
  conv_lhs => rw [← makeDate_day time]
  unfold makeDate millisecondsPerDay
  omega

/-! ## Years and months -/

theorem leapDay_eq_zero_or_one (year : Int) : leapDay year = 0 ∨ leapDay year = 1 := by
  unfold leapDay
  split
  · exact .inr rfl
  · exact .inl rfl

theorem dayFromYear_succ (year : Int) :
    dayFromYear (year + 1) = dayFromYear year + 365 + leapDay year := by
  unfold dayFromYear leapDay
  split <;> omega

theorem dayFromYear_strictMono : StrictMono dayFromYear := by
  refine strictMono_int_of_lt_succ fun year => ?_
  have one := dayFromYear_succ year
  have leap := leapDay_eq_zero_or_one year
  omega

/-- A day lies in its year. -/
theorem yearFromDay_spec (day : Int) :
    dayFromYear (yearFromDay day) ≤ day ∧ day < dayFromYear (yearFromDay day + 1) := by
  unfold yearFromDay
  dsimp only
  by_cases early : day < dayFromYear (1970 + day * 400 / 146097)
  · rw [if_pos early, Int.sub_add_cancel]
    unfold dayFromYear at *
    omega
  · rw [if_neg early]
    by_cases late : dayFromYear (1970 + day * 400 / 146097 + 1) ≤ day
    · rw [if_pos late]
      unfold dayFromYear at *
      omega
    · rw [if_neg late]
      omega

theorem yearFromDay_eq {day year : Int} (begun : dayFromYear year ≤ day)
    (notOver : day < dayFromYear (year + 1)) : yearFromDay day = year := by
  obtain ⟨begun', notOver'⟩ := yearFromDay_spec day
  have first := dayFromYear_strictMono.lt_iff_lt.mp (begun.trans_lt notOver')
  have second := dayFromYear_strictMono.lt_iff_lt.mp (begun'.trans_lt notOver)
  omega

/-- A day of the year lies in its month. -/
theorem monthFromDayOfYear_spec {lengths : List Int} {dayOfYear : Int} (begun : 0 ≤ dayOfYear)
    (notOver : dayOfYear < lengths.sum) :
    monthFromDayOfYear lengths dayOfYear < lengths.length ∧
      dayFromMonth lengths (monthFromDayOfYear lengths dayOfYear) ≤ dayOfYear ∧
      dayOfYear < dayFromMonth lengths (monthFromDayOfYear lengths dayOfYear + 1) := by
  induction lengths generalizing dayOfYear with
  | nil =>
    rw [List.sum_nil] at notOver
    omega
  | cons length lengths inductionHypothesis =>
    unfold monthFromDayOfYear
    split
    · simp [dayFromMonth, *]
    · rw [List.sum_cons] at notOver
      obtain ⟨inside, monthBegun, monthNotOver⟩ :=
        inductionHypothesis (by omega : 0 ≤ dayOfYear - length) (by omega)
      simp only [dayFromMonth, List.take_succ_cons, List.sum_cons, List.length_cons] at *
      exact ⟨by omega, by omega, by omega⟩

theorem dayFromMonth_bounds {lengths : List Int} (positive : ∀ length ∈ lengths, 0 < length)
    {month : Nat} (inside : month < lengths.length) :
    0 ≤ dayFromMonth lengths month ∧ dayFromMonth lengths month < lengths.sum := by
  induction lengths generalizing month with
  | nil => cases inside
  | cons length lengths inductionHypothesis =>
    rw [List.forall_mem_cons] at positive
    cases month with
    | zero =>
      have rest : 0 ≤ lengths.sum := List.sum_nonneg fun length member =>
        (positive.2 length member).le
      simp only [dayFromMonth, List.take_zero, List.sum_nil, List.sum_cons]
      omega
    | succ month =>
      have rest := inductionHypothesis positive.2 (Nat.lt_of_succ_lt_succ inside)
      simp only [dayFromMonth, List.take_succ_cons, List.sum_cons] at *
      omega

theorem monthFromDayOfYear_dayFromMonth {lengths : List Int}
    (positive : ∀ length ∈ lengths, 0 < length) {month : Nat} (inside : month < lengths.length) :
    monthFromDayOfYear lengths (dayFromMonth lengths month) = month := by
  induction lengths generalizing month with
  | nil => cases inside
  | cons length lengths inductionHypothesis =>
    rw [List.forall_mem_cons] at positive
    cases month with
    | zero => simp [dayFromMonth, monthFromDayOfYear, positive.1]
    | succ month =>
      have shorter := Nat.lt_of_succ_lt_succ inside
      have rest := inductionHypothesis positive.2 shorter
      have bounds := dayFromMonth_bounds positive.2 shorter
      simp only [dayFromMonth, List.take_succ_cons, List.sum_cons, monthFromDayOfYear,
        add_sub_cancel_left] at *
      rw [if_neg (by omega), rest]

theorem monthLengths_pos (year : Int) : ∀ length ∈ monthLengths (leapDay year), 0 < length := by
  obtain leap | leap := leapDay_eq_zero_or_one year <;> rw [leap] <;> decide

theorem monthLengths_sum (year : Int) :
    (monthLengths (leapDay year)).sum = 365 + leapDay year := by
  obtain leap | leap := leapDay_eq_zero_or_one year <;> rw [leap] <;> rfl

/-! ## Months of a year -/

theorem dayFromYearMonth_of_lt (year : Int) {month : Int} (lower : 0 ≤ month) (upper : month < 12) :
    dayFromYearMonth year month =
      dayFromYear year + dayFromMonth (monthLengths (leapDay year)) month.toNat := by
  unfold dayFromYearMonth
  rw [Int.ediv_eq_zero_of_lt lower upper, Int.emod_eq_of_lt lower upper, Int.add_zero]

/-- The month after the last of a year is the first of the next. -/
theorem dayFromYearMonth_succ (year : Int) {month : Int} (lower : 0 ≤ month) (upper : month < 12) :
    dayFromYearMonth year (month + 1) =
      dayFromYear year + dayFromMonth (monthLengths (leapDay year)) (month.toNat + 1) := by
  by_cases last : month = 11
  · subst last
    have next := dayFromYear_succ year
    have whole := monthLengths_sum year
    change dayFromYear (year + 1) + 0 = dayFromYear year + (monthLengths (leapDay year)).sum
    omega
  · rw [dayFromYearMonth_of_lt year (by omega) (by omega), Int.toNat_add lower (by decide)]
    rfl

/-- A day lies in its month. -/
theorem monthFromDay_spec (day : Int) :
    0 ≤ monthFromDay day ∧ monthFromDay day < 12 ∧
      dayFromYearMonth (yearFromDay day) (monthFromDay day) ≤ day ∧
      day < dayFromYearMonth (yearFromDay day) (monthFromDay day + 1) := by
  obtain ⟨begun, notOver⟩ := yearFromDay_spec day
  rw [dayFromYear_succ] at notOver
  have whole := monthLengths_sum (yearFromDay day)
  have notNext : day - dayFromYear (yearFromDay day) <
      (monthLengths (leapDay (yearFromDay day))).sum := by omega
  obtain ⟨inside, monthBegun, monthNotOver⟩ := monthFromDayOfYear_spec (by omega) notNext
  have lower : 0 ≤ monthFromDay day := Int.natCast_nonneg _
  have upper : monthFromDay day < 12 := Int.ofNat_lt.mpr inside
  have first := dayFromYearMonth_of_lt (yearFromDay day) lower upper
  have second := dayFromYearMonth_succ (yearFromDay day) lower upper
  simp only [monthFromDay, Int.toNat_natCast] at *
  exact ⟨lower, upper, by omega, by omega⟩

/-- A time lies in its month. -/
theorem month_spec (time : Int) :
    0 ≤ month time ∧ month time < 12 ∧ dayFromYearMonth (year time) (month time) ≤ day time ∧
      day time < dayFromYearMonth (year time) (month time + 1) :=
  monthFromDay_spec (day time)

theorem year_makeDate (other time : Int) :
    year (makeDate other (timeWithinDay time)) = yearFromDay other := by
  rw [year, day_makeDate]

theorem month_makeDate (other time : Int) :
    month (makeDate other (timeWithinDay time)) = monthFromDay other := by
  rw [month, day_makeDate]

/-- The first of a month is in that month. -/
theorem fields_dayFromYearMonth (year month : Int) :
    yearFromDay (dayFromYearMonth year month) = year + month / 12 ∧
      monthFromDay (dayFromYearMonth year month) = month % 12 := by
  have positive := monthLengths_pos (year + month / 12)
  have whole := monthLengths_sum (year + month / 12)
  have lower : 0 ≤ month % 12 := Int.emod_nonneg _ (by decide)
  have upper : month % 12 < 12 := Int.emod_lt_of_pos _ (by decide)
  have inside : (month % 12).toNat < (monthLengths (leapDay (year + month / 12))).length :=
    (Int.toNat_lt lower).mpr upper
  have bounds := dayFromMonth_bounds positive inside
  have sameYear : yearFromDay (dayFromYearMonth year month) = year + month / 12 := by
    apply yearFromDay_eq
    · unfold dayFromYearMonth
      omega
    · rw [dayFromYear_succ]
      unfold dayFromYearMonth
      omega
  refine ⟨sameYear, ?_⟩
  unfold monthFromDay
  rw [sameYear]
  unfold dayFromYearMonth
  rw [add_sub_cancel_left, monthFromDayOfYear_dayFromMonth positive inside,
    Int.toNat_of_nonneg lower]

/-! ## Setting the day and the month -/

theorem one_le_date (time : Int) : 1 ≤ date time := by
  have inMonth := (month_spec time).2.2.1
  unfold date
  omega

/-- Going on by days of the month is going on by days. -/
theorem setDate_add (time days : Int) :
    setDate time (date time + days) = time + days * millisecondsPerDay := by
  have same := makeDate_day time
  unfold setDate makeDay date
  unfold makeDate at *
  have shifted : dayFromYearMonth (year time) (month time) +
      (day time - dayFromYearMonth (year time) (month time) + 1 + days - 1) =
        day time + days := by omega
  rw [shifted, Int.add_mul]
  omega

/-- The first of the month, at the same time of day. -/
theorem setMonth_setDate_one (time month' : Int) :
    setMonth (setDate time 1) month' =
      makeDate (dayFromYearMonth (year time) month') (timeWithinDay time) := by
  have first : makeDay (year time) (month time) 1 =
      dayFromYearMonth (year time) (month time) := by
    unfold makeDay
    omega
  obtain ⟨sameYear, sameMonth⟩ := fields_dayFromYearMonth (year time) (month time)
  obtain ⟨lower, upper, -, -⟩ := month_spec time
  have dayOfFirst : day (setDate time 1) = dayFromYearMonth (year time) (month time) := by
    rw [setDate, day_makeDate, first]
  have yearOfFirst : year (setDate time 1) = year time := by
    rw [setDate, year_makeDate, first, sameYear, Int.ediv_eq_zero_of_lt lower upper, Int.add_zero]
  have monthOfFirst : month (setDate time 1) = month time := by
    rw [setDate, month_makeDate, first, sameMonth, Int.emod_eq_of_lt lower upper]
  have dateOfFirst : date (setDate time 1) = 1 := by
    rw [date, dayOfFirst, yearOfFirst, monthOfFirst]
    omega
  unfold setMonth
  rw [yearOfFirst, dateOfFirst]
  unfold setDate
  rw [timeWithinDay_makeDate]
  congr 1
  unfold makeDay
  omega

/-- Any day of the next month is later. -/
theorem lt_setDate_next_month {time date' : Int} (positive : 1 ≤ date') :
    time < setDate (setMonth (setDate time 1) (month time + 1)) date' := by
  obtain ⟨sameYear, sameMonth⟩ := fields_dayFromYearMonth (year time) (month time + 1)
  have later := (month_spec time).2.2.2
  rw [setMonth_setDate_one]
  unfold setDate
  rw [timeWithinDay_makeDate]
  apply lt_makeDate
  rw [year_makeDate, month_makeDate, sameYear, sameMonth]
  have sameStart : dayFromYearMonth (year time + (month time + 1) / 12) ((month time + 1) % 12) =
      dayFromYearMonth (year time) (month time + 1) := by
    rw [dayFromYearMonth_of_lt _ (Int.emod_nonneg _ (by decide))
      (Int.emod_lt_of_pos _ (by decide))]
    rfl
  unfold makeDay
  omega

end Ancore.Library.Calendar
