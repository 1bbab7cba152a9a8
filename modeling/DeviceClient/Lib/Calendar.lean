import Mathlib.Data.Int.Notation

/-!
# Days and dates

The proleptic Gregorian calendar, counted from 1 March of the year 0: a leap day is then
the last day of its year, and of its cycles of 4 and of 400 years.

* `daysOfCivil_civilOfDays`: the date of a day is that of no other day.
* `secondsOf_civilOf`: and the same for a date with a time of the day.
-/

namespace Lib

/-- A date and a time of the day. -/
structure CivilTime where
  year : ℤ
  month : ℤ
  day : ℤ
  hour : ℤ
  minute : ℤ
  second : ℤ
deriving DecidableEq, Repr

namespace Calendar

/-- Days from 1 January 1970 to a date; a day past the month's end counts on. -/
def daysOfCivil (year month day : ℤ) : ℤ :=
  let m := (month + 9) % 12
  let y := year - m / 10
  365 * y + y / 4 - y / 100 + y / 400 + (153 * m + 2) / 5 + (day - 1) - 719468

/-- The years of a cycle of 400 years that are over on a day of it. -/
def yearOfEra (dayOfEra : ℤ) : ℤ :=
  let century := min (dayOfEra / 36524) 3
  let rest := dayOfEra - 36524 * century
  100 * century + 4 * (rest / 1461) + min (rest % 1461 / 365) 3

/-- Days before a year of the cycle. -/
def daysBeforeYear (year : ℤ) : ℤ := 365 * year + year / 4 - year / 100

theorem yearOfEra_spec {dayOfEra : ℤ} (hlow : 0 ≤ dayOfEra) (hhigh : dayOfEra < 146097) :
    0 ≤ yearOfEra dayOfEra ∧ yearOfEra dayOfEra < 400 ∧
      daysBeforeYear (yearOfEra dayOfEra) ≤ dayOfEra ∧
      dayOfEra ≤ daysBeforeYear (yearOfEra dayOfEra) + 365 := by
  unfold yearOfEra daysBeforeYear
  dsimp only
  generalize hc : min (dayOfEra / 36524) 3 = c
  generalize hrest : dayOfEra - 36524 * c = rest
  generalize hq : rest / 1461 = q
  generalize hr : min (rest % 1461 / 365) 3 = r
  have hcentury : 0 ≤ c ∧ c ≤ 3 ∧ 0 ≤ rest ∧ rest ≤ 36524 := by omega
  have hcycle : 0 ≤ q ∧ q ≤ 24 := by omega
  have hyear : 0 ≤ r ∧ r ≤ 3 ∧ 365 * r ≤ rest - 1461 * q ∧ rest - 1461 * q ≤ 365 * r + 365 := by
    omega
  have hfour : (100 * c + 4 * q + r) / 4 = 25 * c + q := by omega
  have hhundred : (100 * c + 4 * q + r) / 100 = c := by omega
  rw [hfour, hhundred]
  omega

/-- The date of a day. -/
def civilOfDays (days : ℤ) : ℤ × ℤ × ℤ :=
  let dayOfEra := (days + 719468) % 146097
  let year := yearOfEra dayOfEra
  let dayOfYear := dayOfEra - daysBeforeYear year
  let m := (5 * dayOfYear + 2) / 153
  (400 * ((days + 719468) / 146097) + year + m / 10, (m + 2) % 12 + 1,
    dayOfYear - (153 * m + 2) / 5 + 1)

theorem month_bounds (days : ℤ) : 1 ≤ (civilOfDays days).2.1 ∧ (civilOfDays days).2.1 ≤ 12 := by
  unfold civilOfDays
  dsimp only
  omega

theorem day_bounds (days : ℤ) : 1 ≤ (civilOfDays days).2.2 ∧ (civilOfDays days).2.2 ≤ 31 := by
  obtain ⟨_, _, hlow, hhigh⟩ :=
    @yearOfEra_spec ((days + 719468) % 146097) (by omega) (by omega)
  unfold civilOfDays
  dsimp only
  omega

theorem daysOfCivil_civilOfDays (days : ℤ) :
    daysOfCivil (civilOfDays days).1 (civilOfDays days).2.1 (civilOfDays days).2.2 = days := by
  obtain ⟨hyear, hyears, hlow, hhigh⟩ :=
    @yearOfEra_spec ((days + 719468) % 146097) (by omega) (by omega)
  unfold civilOfDays daysOfCivil
  dsimp only
  generalize hera : (days + 719468) / 146097 = era at *
  generalize hdoe : (days + 719468) % 146097 = doe at *
  generalize yearOfEra doe = yoe at *
  unfold daysBeforeYear at *
  generalize hdoy : doe - (365 * yoe + yoe / 4 - yoe / 100) = doy at *
  generalize hm : (5 * doy + 2) / 153 = m at *
  have hmonth : 0 ≤ m ∧ m ≤ 11 := by omega
  -- the month and the year that are counted from March
  have hback : ((m + 2) % 12 + 1 + 9) % 12 = m := by omega
  have hmarch : 400 * era + yoe + m / 10 - m / 10 = 400 * era + yoe := by omega
  have h4 : (400 * era + yoe) / 4 = 100 * era + yoe / 4 := by omega
  have h100 : (400 * era + yoe) / 100 = 4 * era + yoe / 100 := by omega
  have h400 : (400 * era + yoe) / 400 = era := by omega
  rw [hback, hmarch, h4, h100, h400]
  omega

/-- The year of a day, by its cycle of 400 years. -/
theorem year_bounds (days : ℤ) :
    400 * ((days + 719468) / 146097) ≤ (civilOfDays days).1 ∧
      (civilOfDays days).1 ≤ 400 * ((days + 719468) / 146097) + 400 := by
  obtain ⟨hyear, hyears, hlow, hhigh⟩ :=
    @yearOfEra_spec ((days + 719468) % 146097) (by omega) (by omega)
  unfold civilOfDays
  dsimp only
  generalize hdoy : (days + 719468) % 146097 -
    daysBeforeYear (yearOfEra ((days + 719468) % 146097)) = doy
  have hmonth : 0 ≤ (5 * doy + 2) / 153 / 10 ∧ (5 * doy + 2) / 153 / 10 ≤ 1 := by omega
  omega

/-- Years below a bound in whole cycles are days below one. -/
theorem days_lt_of_year_lt {days n : ℤ} (h : (civilOfDays days).1 < 400 * n) :
    days + 719468 < 146097 * n := by
  have hera : (days + 719468) / 146097 < n := by
    have hyear := (year_bounds days).1
    omega
  omega

/-! ## Times of the day -/

/-- The date and time that many seconds after 1 January 1970. -/
def civilOf (seconds : ℤ) : CivilTime :=
  let date := civilOfDays (seconds / 86400)
  ⟨date.1, date.2.1, date.2.2, seconds % 86400 / 3600, seconds % 3600 / 60, seconds % 60⟩

/-- The seconds of a date and time. -/
def secondsOf (t : CivilTime) : ℤ :=
  daysOfCivil t.year t.month t.day * 86400 + t.hour * 3600 + t.minute * 60 + t.second

theorem secondsOf_civilOf (seconds : ℤ) : secondsOf (civilOf seconds) = seconds := by
  unfold secondsOf civilOf
  dsimp only
  rw [daysOfCivil_civilOfDays]
  omega

/-- Every number but that of the year has two digits. -/
theorem civilOf_bounds (seconds : ℤ) :
    (1 ≤ (civilOf seconds).month ∧ (civilOf seconds).month ≤ 12) ∧
    (1 ≤ (civilOf seconds).day ∧ (civilOf seconds).day ≤ 31) ∧
    (0 ≤ (civilOf seconds).hour ∧ (civilOf seconds).hour < 24) ∧
    (0 ≤ (civilOf seconds).minute ∧ (civilOf seconds).minute < 60) ∧
    (0 ≤ (civilOf seconds).second ∧ (civilOf seconds).second < 60) := by
  refine ⟨month_bounds _, day_bounds _, ?_, ?_, ?_⟩
  · unfold civilOf
    dsimp only
    omega
  · unfold civilOf
    dsimp only
    omega
  · unfold civilOf
    dsimp only
    omega

theorem seconds_lt_of_year_lt {seconds n : ℤ} (h : (civilOf seconds).year < 400 * n) :
    seconds < (146097 * n - 719468) * 86400 := by
  have hdays := days_lt_of_year_lt h
  omega

end Calendar

end Lib
