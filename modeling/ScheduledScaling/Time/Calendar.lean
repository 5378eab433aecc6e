/-!
The proleptic Gregorian calendar. A day is counted from 1970-01-01, which is day 0 and a
Thursday; `Date.ofDay` and `Date.toDay` go between the count and year, month and day.
-/
namespace ScheduledScaling

structure Date where
  year : Int
  /-- January is 1. -/
  month : Nat
  day : Nat
  deriving DecidableEq, Repr, Inhabited

def isLeapYear (year : Int) : Bool :=
  year % 4 == 0 && (year % 100 != 0 || year % 400 == 0)

def daysInMonth (year : Int) (month : Nat) : Nat :=
  if month = 2 then if isLeapYear year then 29 else 28
  else if month = 4 ∨ month = 6 ∨ month = 9 ∨ month = 11 then 30
  else 31

namespace Date

def IsValid (d : Date) : Prop :=
  1 ≤ d.month ∧ d.month ≤ 12 ∧ 1 ≤ d.day ∧ d.day ≤ daysInMonth d.year d.month

instance (d : Date) : Decidable d.IsValid := by unfold IsValid; infer_instance

/-- Years are counted from March, so that the leap day ends a year, and grouped in eras of 400
years, which all have 146097 days. -/
def toDay (d : Date) : Int :=
  let year := if d.month ≤ 2 then d.year - 1 else d.year
  let era := year / 400
  let yearOfEra := year % 400
  let monthFromMarch := if d.month > 2 then d.month - 3 else d.month + 9
  let dayOfYear := (153 * monthFromMarch + 2) / 5 + d.day - 1
  let dayOfEra := yearOfEra * 365 + yearOfEra / 4 - yearOfEra / 100 + dayOfYear
  era * 146097 + dayOfEra - 719468

def ofDay (day : Int) : Date :=
  let shifted := day + 719468
  let era := shifted / 146097
  let dayOfEra := (shifted % 146097).toNat
  let yearOfEra := (dayOfEra - dayOfEra / 1460 + dayOfEra / 36524 - dayOfEra / 146096) / 365
  let dayOfYear := dayOfEra - (365 * yearOfEra + yearOfEra / 4 - yearOfEra / 100)
  let monthFromMarch := (5 * dayOfYear + 2) / 153
  let day := dayOfYear - (153 * monthFromMarch + 2) / 5 + 1
  let month := if monthFromMarch < 10 then monthFromMarch + 3 else monthFromMarch - 9
  let year := (yearOfEra : Int) + era * 400
  { year := if month ≤ 2 then year + 1 else year, month, day }

end Date

/-- The day of the week, Sunday being 0. -/
def weekdayOf (day : Int) : Nat := ((day + 4) % 7).toNat

/-- The day of the n-th Sunday of a month, counted from 1. -/
def nthSunday (year : Int) (month n : Nat) : Int :=
  let first := Date.toDay ⟨year, month, 1⟩
  first + (7 - weekdayOf first) % 7 + 7 * (n - 1)

/-- The day of the last Sunday of a month. -/
def lastSunday (year : Int) (month : Nat) : Int :=
  let last := Date.toDay ⟨year, month, daysInMonth year month⟩
  last - weekdayOf last

theorem weekdayOf_lt (day : Int) : weekdayOf day < 7 := by
  unfold weekdayOf
  omega

end ScheduledScaling
