/-!
# The Gregorian calendar

Days are counted from 1970-01-01.  A year is taken to begin in March, so that
the leap day ends it; a count of days is then a mixed-radix numeral whose places
are the era of 400 years, the century, the four-year cycle and the year.  The
month follows from the day of the year by the linear rule of 153 days to every
five months from March.
-/

namespace ItemTable

/-- A date of the proleptic Gregorian calendar. -/
structure CivilDate where
  year : Int
  month : Nat
  day : Nat
  deriving DecidableEq

namespace CivilDate

/-- Days from 0000-03-01 to 1970-01-01. -/
def epochShift : Int := 719468

/-- Days before a month, counted from March as month zero. -/
def daysBefore (marchMonth : Nat) : Nat :=
  (153 * marchMonth + 2) / 5

/-- The date of a day count. -/
def ofDays (days : Int) : CivilDate :=
  let shifted := days + epochShift
  let era := shifted / 146097
  let inEra := (shifted % 146097).toNat
  let century := min 3 (inEra / 36524)
  let inCentury := inEra - 36524 * century
  let cycle := inCentury / 1461
  let inCycle := inCentury - 1461 * cycle
  let year := min 3 (inCycle / 365)
  let inYear := inCycle - 365 * year
  let marchMonth := (5 * inYear + 2) / 153
  let marchYear : Int := 400 * era + (100 * century + 4 * cycle + year : Nat)
  { year := if marchMonth < 10 then marchYear else marchYear + 1
    month := if marchMonth < 10 then marchMonth + 3 else marchMonth - 9
    day := inYear - daysBefore marchMonth + 1 }

/-- The day count of a date. -/
def toDays (date : CivilDate) : Int :=
  let marchYear : Int := if date.month < 3 then date.year - 1 else date.year
  let marchMonth := if date.month < 3 then date.month + 9 else date.month - 3
  365 * marchYear + marchYear / 4 - marchYear / 100 + marchYear / 400 +
    (daysBefore marchMonth + date.day : Nat) - 1 - epochShift

def isLeapYear (year : Int) : Bool :=
  year % 4 == 0 && (year % 100 != 0 || year % 400 == 0)

/-- The number of days of a month. -/
def monthLength (year : Int) (month : Nat) : Nat :=
  if month == 2 then if isLeapYear year then 29 else 28
  else if month == 4 || month == 6 || month == 9 || month == 11 then 30
  else 31

/-- Whether the calendar has this date. -/
def isReal (date : CivilDate) : Bool :=
  1 ≤ date.month && date.month ≤ 12 && 1 ≤ date.day &&
    date.day ≤ monthLength date.year date.month

end CivilDate

end ItemTable
