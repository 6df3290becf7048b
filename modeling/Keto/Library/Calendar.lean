import Mathlib.Data.Int.Notation

/-!
Broken-down times of the Gregorian calendar and the seconds since the beginning of
1970. Years are counted from March on, so that the leap day is the last day of a year.
-/
namespace Keto.Library.Calendar

/-- The month and the day of the month are counted from one. -/
structure BrokenDown where
  year : ℤ
  month : ℤ
  day : ℤ
  hour : ℤ
  minute : ℤ
  second : ℤ
  deriving DecidableEq, Repr

def daysBeforeYear (y : ℤ) : ℤ := 365 * y + y / 4 - y / 100 + y / 400

/-- The days before a month, March being the month zero. -/
def daysBeforeMonth (m : ℤ) : ℤ := (153 * m + 2) / 5

/-- The days before 1970, from the March of the year zero on. -/
def epoch : ℤ := 719468

def days (year month day : ℤ) : ℤ :=
  if month ≤ 2 then daysBeforeYear (year - 1) + daysBeforeMonth (month + 9) + (day - 1)
  else daysBeforeYear year + daysBeforeMonth (month - 3) + (day - 1)

/-- `timegm`. -/
def seconds (time : BrokenDown) : ℤ :=
  (days time.year time.month time.day - epoch) * 86400 + time.hour * 3600 + time.minute * 60 +
    time.second

/-- The year of a day and the day of the year, both from March on: the periods of 400, of
100, of four years and of one. -/
def marchYear (d : ℤ) : ℤ × ℤ :=
  let century := min (d % 146097 / 36524) 3
  let inCentury := d % 146097 - 36524 * century
  let fourth := inCentury / 1461
  let inFourth := inCentury - 1461 * fourth
  let year := min (inFourth / 365) 3
  (400 * (d / 146097) + 100 * century + 4 * fourth + year, inFourth - 365 * year)

/-- `gmtime`. -/
def ofSeconds (t : ℤ) : BrokenDown :=
  let (y, dayOfYear) := marchYear (t / 86400 + epoch)
  let m := (5 * dayOfYear + 2) / 153
  { year := if m < 10 then y else y + 1
    month := if m < 10 then m + 3 else m - 9
    day := dayOfYear - daysBeforeMonth m + 1
    hour := t % 86400 / 3600
    minute := t % 3600 / 60
    second := t % 60 }

example : ofSeconds 951782400 = ⟨2000, 2, 29, 0, 0, 0⟩ := by decide

/-- The days before a year, by the periods that it is behind. -/
theorem daysBeforeYear_periods {era century fourth year : ℤ} (hcentury : 0 ≤ century ∧ century ≤ 3)
    (hfourth : 0 ≤ fourth ∧ fourth ≤ 24) (hyear : 0 ≤ year ∧ year ≤ 3) :
    daysBeforeYear (400 * era + 100 * century + 4 * fourth + year) =
      146097 * era + 36524 * century + 1461 * fourth + 365 * year := by
  have h4 : (400 * era + 100 * century + 4 * fourth + year) / 4 =
      100 * era + 25 * century + fourth := by omega
  have h100 : (400 * era + 100 * century + 4 * fourth + year) / 100 = 4 * era + century := by
    omega
  have h400 : (400 * era + 100 * century + 4 * fourth + year) / 400 = era := by omega
  rw [daysBeforeYear, h4, h100, h400]
  omega

/-- The day is found again from its year and the day in it. -/
theorem marchYear_spec (d : ℤ) :
    daysBeforeYear (marchYear d).1 + (marchYear d).2 = d ∧
      0 ≤ (marchYear d).2 ∧ (marchYear d).2 ≤ 365 := by
  simp only [marchYear]
  have hcentury : 0 ≤ min (d % 146097 / 36524) 3 ∧ min (d % 146097 / 36524) 3 ≤ 3 := by omega
  have hcenturyDays : 0 ≤ d % 146097 - 36524 * min (d % 146097 / 36524) 3 ∧
      d % 146097 - 36524 * min (d % 146097 / 36524) 3 ≤ 36524 := by omega
  generalize min (d % 146097 / 36524) 3 = century at *
  generalize hdays : d % 146097 - 36524 * century = inCentury at *
  have hfourth : 0 ≤ inCentury / 1461 ∧ inCentury / 1461 ≤ 24 := by omega
  have hfourthDays : 0 ≤ inCentury - 1461 * (inCentury / 1461) ∧
      inCentury - 1461 * (inCentury / 1461) ≤ 1460 := by omega
  generalize inCentury / 1461 = fourth at *
  generalize hrest : inCentury - 1461 * fourth = inFourth at *
  have hyear : 0 ≤ min (inFourth / 365) 3 ∧ min (inFourth / 365) 3 ≤ 3 := by omega
  rw [daysBeforeYear_periods hcentury hfourth hyear]
  omega

/-- A day of the year is in a month. -/
theorem month_bounds {dayOfYear : ℤ} (h : 0 ≤ dayOfYear) (h' : dayOfYear ≤ 365) :
    0 ≤ (5 * dayOfYear + 2) / 153 ∧ (5 * dayOfYear + 2) / 153 ≤ 11 ∧
      0 ≤ dayOfYear - daysBeforeMonth ((5 * dayOfYear + 2) / 153) ∧
      dayOfYear - daysBeforeMonth ((5 * dayOfYear + 2) / 153) ≤ 30 := by
  simp only [daysBeforeMonth]
  omega

/-- The date of a month and a year that are counted from March. -/
theorem days_march (y day : ℤ) {m : ℤ} (h : 0 ≤ m) (h' : m ≤ 11) :
    days (if m < 10 then y else y + 1) (if m < 10 then m + 3 else m - 9) day =
      daysBeforeYear y + daysBeforeMonth m + (day - 1) := by
  by_cases hmarch : m < 10
  · rw [if_pos hmarch, if_pos hmarch, days, if_neg (by omega), Int.add_sub_cancel]
  · rw [if_neg hmarch, if_neg hmarch, days, if_pos (by omega), Int.sub_add_cancel,
      Int.add_sub_cancel]

theorem days_ofSeconds (t : ℤ) :
    days (ofSeconds t).year (ofSeconds t).month (ofSeconds t).day = t / 86400 + epoch := by
  obtain ⟨hday, hlow, hhigh⟩ := marchYear_spec (t / 86400 + epoch)
  have hmarch := days_march (marchYear (t / 86400 + epoch)).1 (ofSeconds t).day
    (month_bounds hlow hhigh).1 (month_bounds hlow hhigh).2.1
  refine hmarch.trans ?_
  simp only [ofSeconds]
  omega

/-- The seconds are found again from the broken-down time. -/
@[simp] theorem seconds_ofSeconds (t : ℤ) : seconds (ofSeconds t) = t := by
  rw [seconds, days_ofSeconds]
  simp only [ofSeconds]
  omega

/-- All but the year are numbers of two digits. -/
theorem ofSeconds_bounds (t : ℤ) :
    (1 ≤ (ofSeconds t).month ∧ (ofSeconds t).month ≤ 12) ∧
      (1 ≤ (ofSeconds t).day ∧ (ofSeconds t).day ≤ 31) ∧
      (0 ≤ (ofSeconds t).hour ∧ (ofSeconds t).hour < 24) ∧
      (0 ≤ (ofSeconds t).minute ∧ (ofSeconds t).minute < 60) ∧
      (0 ≤ (ofSeconds t).second ∧ (ofSeconds t).second < 60) := by
  obtain ⟨_, hlow, hhigh⟩ := marchYear_spec (t / 86400 + epoch)
  obtain ⟨hm, hm', hday, hday'⟩ := month_bounds hlow hhigh
  refine ⟨?_, ?_, ?_, ?_, ?_⟩
  · simp only [ofSeconds]
    split <;> omega
  · simp only [ofSeconds]
    omega
  · simp only [ofSeconds]
    omega
  · simp only [ofSeconds]
    omega
  · simp only [ofSeconds]
    omega

end Keto.Library.Calendar
