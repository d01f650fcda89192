/-
The proleptic Gregorian calendar: civil dates and the days since 1970-01-01.

Years are counted from March here, so that the leap day is the last day of its
year and every month starts at a day that does not depend on leap years.  A
count of days is split into eras of 400 years, then centuries, then spans of
four years, then years.  Each split is a division whose quotient is capped,
since the last century of an era and the last year of a span are a day longer.
-/

namespace JobGate

/-- A day of the calendar.  Months and days count from one. -/
structure CivilDate where
  year : Int
  month : Nat
  day : Nat
deriving DecidableEq, Repr

namespace CivilDate

/-- Whether a year has a 29th of February. -/
def isLeapYear (year : Int) : Bool :=
  year % 4 == 0 && (year % 100 != 0 || year % 400 == 0)

/-- The number of days in a month, and zero for a month that does not exist. -/
def daysInMonth (year : Int) (month : Nat) : Nat :=
  match month with
  | 1 | 3 | 5 | 7 | 8 | 10 | 12 => 31
  | 4 | 6 | 9 | 11 => 30
  | 2 => if isLeapYear year then 29 else 28
  | _ => 0

def exists? (d : CivilDate) : Bool :=
  1 ≤ d.day && d.day ≤ daysInMonth d.year d.month

/-- The first day of a month, counted from the first of March.  The argument
counts months from March. -/
def monthStart (month : Nat) : Nat := (153 * month + 2) / 5

/-- Days from 0000-03-01 to 1970-01-01. -/
def epochShift : Int := 719468

/-- The days from 1970-01-01 to a date. -/
def toDays (d : CivilDate) : Int :=
  let year := if d.month ≤ 2 then d.year - 1 else d.year
  let month := if d.month ≤ 2 then d.month + 9 else d.month - 3
  let era := year / 400
  let y := year % 400
  era * 146097 + (y * 365 + y / 4 - y / 100) + (monthStart month + d.day - 1 : Nat) - epochShift

/-- The date that lies a number of days after 1970-01-01. -/
def ofDays (days : Int) : CivilDate :=
  let shifted := days + epochShift
  let era := shifted / 146097
  let inEra := (shifted % 146097).toNat
  let century := min (inEra / 36524) 3
  let inCentury := inEra - century * 36524
  let span := inCentury / 1461
  let inSpan := inCentury % 1461
  let year := min (inSpan / 365) 3
  let inYear := inSpan - year * 365
  let month := (5 * inYear + 2) / 153
  let y := era * 400 + (century * 100 + span * 4 + year : Nat)
  { year := if month < 10 then y else y + 1
    month := if month < 10 then month + 3 else month - 9
    day := inYear - monthStart month + 1 }

end CivilDate
end JobGate
