import Mathlib.Tactic

/-!
# The calendar

A point in time is a number of seconds since the beginning of 1970, and a date with a time of the
day in the Gregorian calendar (`Tm`). The days of a year are counted from March on, so that a leap
day is the last one of its year; 400 such years, an era, have 146097 days.

* `timegm_gmtime`: a date tells the point in time of which it is made.
-/

namespace Calendar

/-- `struct tm`: months are counted from `0`, years from 1900. -/
structure Tm where
  sec : ℤ
  min : ℤ
  hour : ℤ
  mday : ℤ
  mon : ℤ
  year : ℤ
  deriving DecidableEq, Repr

/-- A year, by its era, its century, its cycle of four years and its place in that; and a day
    in it. -/
structure YearDay where
  era : ℤ
  century : ℤ
  cycle : ℤ
  year : ℤ
  day : ℤ

/-- The year and the day of a number of days, counted from a year that begins an era. -/
def yearDay (n : ℤ) : YearDay :=
  let era := n / 146097
  let n := n % 146097
  let century := min (n / 36524) 3
  let n := n - 36524 * century
  let cycle := n / 1461
  let n := n % 1461
  let year := min (n / 365) 3
  { era, century, cycle, year, day := n - 365 * year }

/-- The number of the year. -/
def YearDay.number (d : YearDay) : ℤ := 400 * d.era + 100 * d.century + 4 * d.cycle + d.year

/-- The parts of a year and a day are in range. -/
structure YearDay.InRange (d : YearDay) : Prop where
  century : 0 ≤ d.century ∧ d.century ≤ 3
  cycle : 0 ≤ d.cycle ∧ d.cycle ≤ 24
  year : 0 ≤ d.year ∧ d.year ≤ 3
  day : 0 ≤ d.day ∧ d.day ≤ 365

theorem yearDay_inRange (n : ℤ) : (yearDay n).InRange := by
  constructor <;> simp only [yearDay] <;> omega

/-- The parts make the number of days. -/
theorem yearDay_days (n : ℤ) :
    146097 * (yearDay n).era + 36524 * (yearDay n).century + 1461 * (yearDay n).cycle +
      365 * (yearDay n).year + (yearDay n).day = n := by
  simp only [yearDay]
  omega

/-- The number of days from a year that begins an era to a day of a year. -/
def daysOf (year day : ℤ) : ℤ :=
  let yearOfEra := year % 400
  146097 * (year / 400) + (365 * yearOfEra + yearOfEra / 4 - yearOfEra / 100) + day

theorem daysOf_number {d : YearDay} (h : d.InRange) :
    daysOf d.number d.day =
      146097 * d.era + 36524 * d.century + 1461 * d.cycle + 365 * d.year + d.day := by
  obtain ⟨⟨hc, hc'⟩, ⟨hq, hq'⟩, ⟨hy, hy'⟩, -⟩ := h
  have hera : d.number / 400 = d.era := by
    rw [YearDay.number]
    omega
  have hyear : d.number % 400 = 100 * d.century + 4 * d.cycle + d.year := by
    rw [YearDay.number]
    omega
  have hleap : (100 * d.century + 4 * d.cycle + d.year) / 4 = 25 * d.century + d.cycle := by omega
  have hcentury : (100 * d.century + 4 * d.cycle + d.year) / 100 = d.century := by omega
  rw [daysOf, hera, hyear, hleap, hcentury]
  ring

/-- The days of a year before a month, counted from March. -/
def daysBefore (month : ℤ) : ℤ := (153 * month + 2) / 5

/-- The month of a day of a year. -/
def monthOf (day : ℤ) : ℤ := (5 * day + 2) / 153

/-- The days from March in the year 0 to 1970. -/
def epoch : ℤ := 719468

/-- `gmtime_r`. -/
def gmtime (t : ℤ) : Tm :=
  let d := yearDay (t / 86400 + epoch)
  let month := monthOf d.day
  let secs := t % 86400
  { sec := secs % 60
    min := secs / 60 % 60
    hour := secs / 3600
    mday := d.day - daysBefore month + 1
    mon := if month < 10 then month + 2 else month - 10
    year := (if month < 10 then d.number else d.number + 1) - 1900 }

/-- `timegm`, of a date whose month is one of the year. -/
def timegm (tm : Tm) : ℤ :=
  let month := if tm.mon < 2 then tm.mon + 10 else tm.mon - 2
  let year := (if tm.mon < 2 then tm.year - 1 else tm.year) + 1900
  86400 * (daysOf year (daysBefore month + tm.mday - 1) - epoch) + 3600 * tm.hour + 60 * tm.min +
    tm.sec

theorem timegm_gmtime (t : ℤ) : timegm (gmtime t) = t := by
  have hd := yearDay_inRange (t / 86400 + epoch)
  have hdays := yearDay_days (t / 86400 + epoch)
  rw [← daysOf_number hd] at hdays
  generalize hyd : yearDay (t / 86400 + epoch) = d at hd hdays
  have hmonth : 0 ≤ monthOf d.day ∧ monthOf d.day ≤ 11 := by
    have := hd.day
    rw [monthOf]
    omega
  have hsecs : 3600 * (t % 86400 / 3600) + 60 * (t % 86400 / 60 % 60) + t % 86400 % 60 =
      t % 86400 := by omega
  have hback : timegm (gmtime t) = 86400 * (daysOf d.number d.day - epoch) + t % 86400 := by
    rw [← hsecs]
    simp only [timegm, gmtime, hyd]
    by_cases hlt : monthOf d.day < 10
    · rw [if_pos hlt, if_pos hlt, if_neg (by omega), if_neg (by omega)]
      ring_nf
    · rw [if_neg hlt, if_neg hlt, if_pos (by omega), if_pos (by omega)]
      ring_nf
  rw [hback, hdays]
  omega

/-- The leap day of 2000, at noon. -/
example : gmtime 951825600 = ⟨0, 0, 12, 29, 1, 100⟩ := by decide

end Calendar
