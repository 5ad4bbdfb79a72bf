import BuildQueue.Time.Calendar
import Mathlib.Tactic.IntervalCases

/-!
# Dates of days

Every day has a valid date, and days in a range of whole years have dates in these years.
-/

namespace BuildQueue.Date

/-- The last day of a computational year of 366 days is a leap day. -/
theorem isLeapYear_of_last_day {day : Nat} (h : day < 146097)
    (hlast : day = daysToYear (yearOfDay day) + 365) (era : Int) :
    isLeapYear (era * 400 + yearOfDay day + 1) = true := by
  obtain ⟨year, hyear⟩ : ∃ year, yearOfDay day = year := ⟨_, rfl⟩
  have hleap : (year + 1) % 4 = 0 ∧ ((year + 1) % 100 ≠ 0 ∨ (year + 1) % 400 = 0) := by
    unfold yearOfDay at hyear
    unfold daysToYear yearOfDay at hlast
    obtain ⟨c, hc⟩ : ∃ c, min (day / 36524) 3 = c := ⟨_, rfl⟩
    obtain ⟨r, hr⟩ : ∃ r, day - 36524 * c = r := ⟨_, rfl⟩
    obtain ⟨k, hk⟩ : ∃ k, min (r % 1461 / 365) 3 = k := ⟨_, rfl⟩
    simp only [hc, hr, hk] at hyear hlast
    have hcycle : r / 1461 < 25 := by omega
    have hfour : (100 * c + 4 * (r / 1461) + k) / 4 = 25 * c + r / 1461 := by omega
    have hhundred : (100 * c + 4 * (r / 1461) + k) / 100 = c := by omega
    rw [hfour, hhundred] at hlast
    have hblock : r % 1461 = 1460 := by omega
    omega
  rw [hyear]
  unfold isLeapYear
  simp only [Bool.and_eq_true, Bool.or_eq_true, decide_eq_true_eq, bne_iff_ne]
  omega

/-- A day lies in a computational year of an era; the year has a last day more if it is followed by
February of a leap year. -/
structure Lies (days : Int) (era : Int) (year inYear : Nat) : Prop where
  year_lt : year < 400
  inYear_le : inYear ≤ 365
  leap : inYear = 365 → isLeapYear (era * 400 + year + 1) = true
  days_eq : days + daysToEpoch = era * daysPerEra + (daysToYear year + inYear : Nat)
  date_eq : ofDays days =
    { year := era * 400 + year + if monthOfDay inYear < 10 then 0 else 1
      month := if monthOfDay inYear < 10 then monthOfDay inYear + 3 else monthOfDay inYear - 9
      day := inYear - daysToMonth (monthOfDay inYear) + 1 }

theorem exists_lies (days : Int) : ∃ era year inYear, Lies days era year inYear := by
  obtain ⟨inEra, hinEra⟩ : ∃ inEra, ((days + daysToEpoch) % daysPerEra).toNat = inEra := ⟨_, rfl⟩
  have hbound : inEra < 146097 := by
    unfold daysPerEra at hinEra
    omega
  obtain ⟨hyear, hle, hlt⟩ := daysToYear_yearOfDay inEra hbound
  refine ⟨(days + daysToEpoch) / daysPerEra, yearOfDay inEra, inEra - daysToYear (yearOfDay inEra),
    hyear, by omega, fun hlast ↦ isLeapYear_of_last_day hbound (by omega) _, ?_, ?_⟩
  · unfold daysPerEra at *
    omega
  · unfold ofDays
    rw [hinEra]

/-- Every day has a valid date. -/
theorem isValid_ofDays (days : Int) : (ofDays days).isValid = true := by
  obtain ⟨era, year, inYear, h⟩ := exists_lies days
  have hle := h.inYear_le
  have hleap := h.leap
  have hmonth : monthOfDay inYear < 12 := by
    unfold monthOfDay
    omega
  have hin : daysToMonth (monthOfDay inYear) ≤ inYear ∧
      inYear < daysToMonth (monthOfDay inYear + 1) := by
    unfold monthOfDay daysToMonth
    omega
  rw [h.date_eq]
  generalize monthOfDay inYear = month at *
  unfold isValid daysInMonth
  unfold daysToMonth at *
  simp only [Bool.and_eq_true, decide_eq_true_eq]
  interval_cases month
  case «11» =>
    -- February has its last day only in a leap year.
    by_cases hlast : inYear = 365
    · simp [hleap hlast, hlast]
    · simp
      split <;> omega
  all_goals
    simp
    omega

/-- The days from the first one of the year -262143 to the last one of the year 262142 have their
dates in these years. -/
theorem year_ofDays {days : Int} (hfirst : -96465292 ≤ days) (hlast : days ≤ 95026236) :
    -262143 ≤ (ofDays days).year ∧ (ofDays days).year ≤ 262142 := by
  obtain ⟨era, year, inYear, h⟩ := exists_lies days
  have hyear := h.year_lt
  have hinYear := h.inYear_le
  have hdays := h.days_eq
  -- January and February count to the year before, whose start is known.
  have hturn : monthOfDay inYear < 10 ↔ inYear < 306 := by
    unfold monthOfDay
    omega
  unfold daysToEpoch daysPerEra daysToYear at hdays
  have hera : -656 ≤ era ∧ era ≤ 655 := by omega
  simp only [h.date_eq, hturn]
  constructor
  · by_cases hlow : era = -656
    · subst hlow
      have hstart : 93808 ≤ 365 * year + year / 4 - year / 100 + inYear := by omega
      clear hdays
      split <;> omega
    · split <;> omega
  · by_cases hhigh : era = 655
    · subst hhigh
      have hend : 365 * year + year / 4 - year / 100 + inYear ≤ 52169 := by omega
      clear hdays
      split <;> omega
    · split <;> omega

end BuildQueue.Date
