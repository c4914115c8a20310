/-!
# Instants

An instant is a count of seconds from 1970-01-01T00:00:00Z with nanoseconds.
A count of nanoseconds of one second or more stands for a leap second.  It may
follow any second, but instants that are made from counts have leap seconds only
after second 59 of a minute.  Instants are supported from the start of year
-262143 to the end of year 262142.
-/

namespace ItemTable

/-- An instant of coordinated universal time. -/
structure Instant where
  seconds : Int
  nanos : Nat
  supported : -8334601228800 ≤ seconds ∧ seconds ≤ 8210266876799
  within : nanos < 2000000000
  deriving DecidableEq

namespace Instant

/-- The instant at the start of a second. -/
def startOf (seconds : Int)
    (supported : -8334601228800 ≤ seconds ∧ seconds ≤ 8210266876799) : Instant :=
  { seconds, nanos := 0, supported, within := by decide }

/-- The instant of the given counts, when it is supported.  A leap second has to follow
second 59. -/
def ofParts? (seconds : Int) (nanos : Nat) : Option Instant :=
  if supported : -8334601228800 ≤ seconds ∧ seconds ≤ 8210266876799 then
    if placed : nanos < 1000000000 ∨ nanos < 2000000000 ∧ seconds % 60 = 59 then
      some { seconds, nanos, supported, within := by omega }
    else none
  else none

/-- Whether the instant lies inside a leap second. -/
def isLeap (instant : Instant) : Bool :=
  1000000000 ≤ instant.nanos

/-- The count of milliseconds from the epoch.  A leap second counts as the
next second. -/
def toMillis (instant : Instant) : Int :=
  instant.seconds * 1000 + (instant.nanos / 1000000 : Nat)

/-- The instant of a count of milliseconds. -/
def ofMillis? (millis : Int) : Option Instant :=
  ofParts? (millis / 1000) ((millis % 1000).toNat * 1000000)

/-- The order of time; a leap second comes before the next second. -/
def before (left right : Instant) : Bool :=
  decide (left.seconds < right.seconds) ||
    (left.seconds == right.seconds && decide (left.nanos < right.nanos))

end Instant

end ItemTable
