/-!
# Calendar

The proleptic Gregorian calendar. Days are counted from the start of 1970. A computational year
starts in March, so that the day of a leap year comes last; four hundred such years, an era, always
have the same number of days. Every day has a date, and the date leads back to the day.
-/

namespace BuildQueue

/-- A day by its year, month and day of the month. -/
@[ext]
structure Date where
  year : Int
  month : Nat
  day : Nat
  deriving DecidableEq, Repr

namespace Date

def isLeapYear (year : Int) : Bool := year % 4 = 0 && (year % 100 != 0 || year % 400 = 0)

def daysInMonth (year : Int) (month : Nat) : Nat :=
  if month = 2 then (if isLeapYear year then 29 else 28)
  else if month = 4 ∨ month = 6 ∨ month = 9 ∨ month = 11 then 30
  else 31

def isValid (d : Date) : Bool :=
  1 ≤ d.month && d.month ≤ 12 && 1 ≤ d.day && d.day ≤ daysInMonth d.year d.month

/-! ## Days of an era -/

/-- Days from the start of an era to the start of a year in it. -/
def daysToYear (year : Nat) : Nat := 365 * year + year / 4 - year / 100

/-- The year of a day of an era. Of four centuries only the last has a leap day at its end, and of
four years only the last. -/
def yearOfDay (day : Nat) : Nat :=
  let century := min (day / 36524) 3
  let inCentury := day - 36524 * century
  100 * century + 4 * (inCentury / 1461) + min (inCentury % 1461 / 365) 3

/-- Days from the start of a computational year to the start of its month; March is month 0. -/
def daysToMonth (month : Nat) : Nat := (153 * month + 2) / 5

/-- The month of a day of a computational year. -/
def monthOfDay (day : Nat) : Nat := (5 * day + 2) / 153

/-- A day of an era lies in its year. -/
theorem daysToYear_yearOfDay (day : Nat) (h : day < 146097) :
    yearOfDay day < 400 ∧ daysToYear (yearOfDay day) ≤ day ∧
      day ≤ daysToYear (yearOfDay day) + 365 := by
  unfold yearOfDay
  obtain ⟨c, hc⟩ : ∃ c, min (day / 36524) 3 = c := ⟨_, rfl⟩
  obtain ⟨r, hr⟩ : ∃ r, day - 36524 * c = r := ⟨_, rfl⟩
  obtain ⟨k, hk⟩ : ∃ k, min (r % 1461 / 365) 3 = k := ⟨_, rfl⟩
  simp only [hc, hr, hk]
  have hcycle : r / 1461 < 25 := by omega
  have hfour : (100 * c + 4 * (r / 1461) + k) / 4 = 25 * c + r / 1461 := by omega
  have hhundred : (100 * c + 4 * (r / 1461) + k) / 100 = c := by omega
  unfold daysToYear
  refine ⟨?_, ?_, ?_⟩ <;> omega

/-! ## Days and dates -/

/-- Days in four hundred years. -/
def daysPerEra : Int := 146097

/-- Days from the first day of March of the year 0 to the start of 1970. -/
def daysToEpoch : Int := 719468

/-- The day's number, counted from the start of 1970. -/
def toDays (d : Date) : Int :=
  let year := if d.month ≤ 2 then d.year - 1 else d.year
  let inYear := daysToMonth ((d.month + 9) % 12) + d.day - 1
  year / 400 * daysPerEra + (daysToYear (year % 400).toNat + inYear : Nat) - daysToEpoch

/-- The day with a number. -/
def ofDays (days : Int) : Date :=
  let era := (days + daysToEpoch) / daysPerEra
  let inEra := ((days + daysToEpoch) % daysPerEra).toNat
  let year := yearOfDay inEra
  let inYear := inEra - daysToYear year
  let month := monthOfDay inYear
  { year := era * 400 + year + (if month < 10 then 0 else 1)
    month := if month < 10 then month + 3 else month - 9
    day := inYear - daysToMonth month + 1 }

theorem toDays_ofDays (days : Int) : (ofDays days).toDays = days := by
  unfold ofDays
  obtain ⟨era, hera⟩ : ∃ era, (days + daysToEpoch) / daysPerEra = era := ⟨_, rfl⟩
  obtain ⟨inEra, hinEra⟩ : ∃ inEra, ((days + daysToEpoch) % daysPerEra).toNat = inEra := ⟨_, rfl⟩
  obtain ⟨hyear, hle, hlt⟩ := daysToYear_yearOfDay inEra (by unfold daysPerEra at *; omega)
  simp only [hera, hinEra]
  generalize yearOfDay inEra = year at *
  obtain ⟨inYear, hinYear⟩ : ∃ inYear, inEra - daysToYear year = inYear := ⟨_, rfl⟩
  obtain ⟨month, hmonth⟩ : ∃ month, monthOfDay inYear = month := ⟨_, rfl⟩
  simp only [hinYear, hmonth]
  have hmonths : month < 12 := by unfold monthOfDay at *; omega
  have hin : daysToMonth month ≤ inYear := by unfold monthOfDay daysToMonth at *; omega
  have hback : (if (if month < 10 then month + 3 else month - 9) ≤ 2
      then era * 400 + (year : Int) + (if month < 10 then 0 else 1) - 1
      else era * 400 + year + (if month < 10 then 0 else 1)) = era * 400 + year := by
    split <;> split at * <;> omega
  have hturn : ((if month < 10 then month + 3 else month - 9) + 9) % 12 = month := by
    split <;> omega
  have hdiv : (era * 400 + (year : Int)) / 400 = era := by omega
  have hmod : ((era * 400 + (year : Int)) % 400).toNat = year := by omega
  simp only [toDays, hback, hturn, hdiv, hmod]
  unfold daysPerEra daysToEpoch at *
  omega

end Date

end BuildQueue
