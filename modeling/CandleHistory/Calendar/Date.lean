/-!
The proleptic Gregorian calendar. Dates are counted in days from 1 January of year 1, and the
year, the month and the day of a count are found again from the lengths of the 400-year, 100-year,
4-year and 1-year cycles.
-/

namespace CandleHistory.Calendar

/-- A date of the proleptic Gregorian calendar. -/
structure Date where
  year : Nat
  month : Nat
  day : Nat
  deriving DecidableEq, Inhabited, Repr

/-- The last year of the calendar; the first is year 1. -/
def lastYear : Nat := 9999

/-- Whether a year has a 29th of February. -/
def isLeapYear (year : Nat) : Bool := year % 4 == 0 && (year % 100 != 0 || year % 400 == 0)

/-- The lengths of a year's months, in days. -/
def monthLengths (year : Nat) : List Nat :=
  [31, if isLeapYear year then 29 else 28, 31, 30, 31, 30, 31, 31, 30, 31, 30, 31]

/-- The length of a month, in days; zero for what is no month. -/
def monthLength (year month : Nat) : Nat :=
  if month = 0 then 0 else (monthLengths year).getD (month - 1) 0

/-- The days between 1 January of year 1 and 1 January of a later year. -/
def daysBeforeYear (year : Nat) : Nat :=
  let past := year - 1
  365 * past + past / 4 - past / 100 + past / 400

namespace Date

/-- Whether the date exists and lies in the calendar. -/
def isValid (date : Date) : Bool :=
  1 ≤ date.year && date.year ≤ lastYear && 1 ≤ date.day &&
    date.day ≤ monthLength date.year date.month

/-- The days from 1 January of year 1 to the date. -/
def dayCount (date : Date) : Nat :=
  let monthsBefore := (monthLengths date.year).take (date.month - 1)
  daysBeforeYear date.year + monthsBefore.foldl (· + ·) 0 + (date.day - 1)

/-- Finds the month and the day that lie a number of days after the first of `month`, from the
lengths of that month and of those after it. -/
def ofDayOfYear (year : Nat) : List Nat → Nat → Nat → Date
  | [], month, days => ⟨year, month, days + 1⟩
  | length :: lengths, month, days =>
    if days < length then ⟨year, month, days + 1⟩
    else ofDayOfYear year lengths (month + 1) (days - length)

/-- The date that lies a number of days after 1 January of year 1. The last day of a 400-year or
4-year cycle would fall into a fifth part of it, so the quotients stop at three. -/
def ofDayCount (days : Nat) : Date :=
  let quadricentury := days / 146097
  let days := days % 146097
  let century := min (days / 36524) 3
  let days := days - century * 36524
  let olympiad := days / 1461
  let days := days % 1461
  let past := min (days / 365) 3
  let days := days - past * 365
  let year := 400 * quadricentury + 100 * century + 4 * olympiad + past + 1
  ofDayOfYear year (monthLengths year) 1 days

end Date

/-- The day count of 1 January 1970. -/
def epochDay : Nat := 719162

end CandleHistory.Calendar
