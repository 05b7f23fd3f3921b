/-!
# Calendar

The proleptic Gregorian calendar as a count of days, where day 0 is 1 January 1970.

## Main definitions

* `Date`: a year, a month and a day of the month.
* `Date.isValid`: whether there is such a date.
* `Date.dayNumber`, `Date.ofDayNumber`: the count of days and the date of a count.

Years are counted from March on, so that a leap day is the last day of its year.
-/

namespace WorkflowChart

/-- A date by its numbers. -/
structure Date where
  year : Int
  month : Nat
  day : Nat
deriving DecidableEq

namespace Date

/-- Whether a year has a leap day. -/
def isLeapYear (year : Int) : Bool :=
  year % 4 = 0 ∧ (year % 100 ≠ 0 ∨ year % 400 = 0)

/-- The number of days of a month. -/
def daysInMonth (year : Int) (month : Nat) : Nat :=
  match month with
  | 2 => if isLeapYear year then 29 else 28
  | 4 | 6 | 9 | 11 => 30
  | _ => 31

/-- Whether there is a date with these numbers. -/
def isValid (date : Date) : Bool :=
  1 ≤ date.month ∧ date.month ≤ 12 ∧ 1 ≤ date.day ∧ date.day ≤ daysInMonth date.year date.month

/-- The days of the four hundred years after which the calendar repeats. -/
def daysInCycle : Int := 146097

/-- The count of 1 March of the year 0. -/
def marchOfYearZero : Int := -719468

/-- The days from 1 March to the first day of a month, given by its distance from March. -/
def daysBeforeMonth (month : Int) : Int :=
  (153 * month + 2) / 5

/-- The days before a year within its cycle. -/
def daysBeforeYear (year : Int) : Int :=
  365 * year + year / 4 - year / 100

/-- The count of a date. -/
def dayNumber (date : Date) : Int :=
  let month : Int := if date.month ≤ 2 then date.month + 9 else date.month - 3
  let year := if date.month ≤ 2 then date.year - 1 else date.year
  marchOfYearZero + daysInCycle * (year / 400) + daysBeforeYear (year % 400)
    + daysBeforeMonth month + (date.day - 1)

/-- The date of a count. -/
def ofDayNumber (number : Int) : Date :=
  let days := number - marchOfYearZero
  let inCycle := days % daysInCycle
  let year := (inCycle - inCycle / 1460 + inCycle / 36524 - inCycle / 146096) / 365
  let inYear := inCycle - daysBeforeYear year
  let month := (5 * inYear + 2) / 153
  let day := inYear - daysBeforeMonth month + 1
  let start := days / daysInCycle * 400 + year
  if month < 10 then ⟨start, (month + 3).toNat, day.toNat⟩
  else ⟨start + 1, (month - 9).toNat, day.toNat⟩

example : dayNumber ⟨1970, 1, 1⟩ = 0 ∧ ofDayNumber 0 = ⟨1970, 1, 1⟩ := by decide

example : dayNumber ⟨2000, 2, 29⟩ = 11016 ∧ ofDayNumber 11016 = ⟨2000, 2, 29⟩ := by decide

example : ofDayNumber (-1) = ⟨1969, 12, 31⟩ := by decide

end Date

end WorkflowChart
