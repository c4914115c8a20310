import ItemTable.AttributeType
import ItemTable.Instant.Iso
import ItemTable.Value.Basic

/-!
# Dates as values

A date is handed over as an instant, as a finite count of milliseconds or as
text; it is stored as one of the latter two.
-/

namespace ItemTable

/-- The instant that a value denotes. -/
def Value.toInstant? : Value → Option Instant
  | date instant => some instant
  | number value => value.truncate?.bind Instant.ofMillis?
  | string text => Instant.ofIsoText? text.toList
  | _ => none

/-- The stored form of an instant. -/
def Instant.toStored (instant : Instant) : DateFormat → Value
  | .iso => .string (String.ofList instant.isoText)
  | .number => .number (Number.ofInt instant.toMillis)

end ItemTable
