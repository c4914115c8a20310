import ItemTable.Instant.Basic
import ItemTable.Instant.Calendar

/-!
# The ISO 8601 text of an instant

`isoText` writes an instant with millisecond precision, in universal time and
with a final `Z`.  `ofIsoText?` reads the RFC 3339 grammar, which is wider in
some places and narrower in others: it takes offsets, any number of fraction
digits and three separators between date and time, but only years of exactly
four digits.

In both, second 60 stands for a leap second.
-/

namespace ItemTable

/-- The decimal digits of a number, filled up with zeros to a width. -/
def paddedDigits (width value : Nat) : List Char :=
  let digits := Nat.toDigits 10 value
  List.replicate (width - digits.length) '0' ++ digits

namespace Instant

/-- A year with four digits at least, and with a sign outside `0..9999`. -/
def yearText (year : Int) : List Char :=
  if 0 ≤ year ∧ year ≤ 9999 then paddedDigits 4 year.toNat
  else (if year < 0 then '-' else '+') :: paddedDigits 4 year.natAbs

/-- The text of an instant, truncated to milliseconds. -/
def isoText (instant : Instant) : List Char :=
  let date := CivilDate.ofDays (instant.seconds / 86400)
  let inDay := (instant.seconds % 86400).toNat
  let leap := if instant.isLeap then 1 else 0
  yearText date.year ++ '-' :: paddedDigits 2 date.month ++ '-' :: paddedDigits 2 date.day ++
    'T' :: paddedDigits 2 (inDay / 3600) ++ ':' :: paddedDigits 2 (inDay / 60 % 60) ++
    ':' :: paddedDigits 2 (inDay % 60 + leap) ++
    '.' :: paddedDigits 3 (instant.nanos % 1000000000 / 1000000) ++ ['Z']

/-- The value of a decimal digit. -/
def digit? (c : Char) : Option Nat :=
  if '0' ≤ c ∧ c ≤ '9' then some (c.toNat - '0'.toNat) else none

/-- Reads exactly `count` digits after the ones already read. -/
def readDigits : Nat → Nat → List Char → Option (Nat × List Char)
  | 0, value, text => some (value, text)
  | _ + 1, _, [] => none
  | count + 1, value, c :: rest =>
      match digit? c with
      | some digit => readDigits count (value * 10 + digit) rest
      | none => none

/-- Drops one given character. -/
def readMark (mark : Char) : List Char → Option (List Char)
  | c :: rest => if c == mark then some rest else none
  | [] => none

/-- Reads a date of four, two and two digits. -/
def readDate (text : List Char) : Option (CivilDate × List Char) := do
  let (year, text) ← readDigits 4 0 text
  let text ← readMark '-' text
  let (month, text) ← readDigits 2 0 text
  let text ← readMark '-' text
  let (day, text) ← readDigits 2 0 text
  let date : CivilDate := { year, month, day }
  if date.isReal then some (date, text) else none

/-- Reads a time of day up to second 60. -/
def readTime (text : List Char) : Option ((Nat × Nat × Nat) × List Char) := do
  let (hour, text) ← readDigits 2 0 text
  let text ← readMark ':' text
  let (minute, text) ← readDigits 2 0 text
  let text ← readMark ':' text
  let (second, text) ← readDigits 2 0 text
  if hour < 24 ∧ minute < 60 ∧ second ≤ 60 then some ((hour, minute, second), text) else none

/-- The nanoseconds written by the digits behind the point; those after the
ninth do not count. -/
def fractionNanos (digits : List Char) : Nat :=
  let counted := digits.take 9
  counted.foldl (fun value c => value * 10 + (c.toNat - '0'.toNat)) 0 *
    Nat.pow 10 (9 - counted.length)

/-- Reads an optional point with digits. -/
def readFraction : List Char → Option (Nat × List Char)
  | '.' :: rest =>
      let digits := rest.takeWhile Char.isDigit
      if digits.isEmpty then none
      else some (fractionNanos digits, rest.dropWhile Char.isDigit)
  | text => some (0, text)

/-- Reads an offset from universal time, in seconds. -/
def readOffset : List Char → Option (Int × List Char)
  | c :: rest =>
      if c == 'Z' || c == 'z' then some (0, rest)
      else if c == '+' || c == '-' || c.toNat == 0x2212 then do
        let (hour, text) ← readDigits 2 0 rest
        let text ← readMark ':' text
        let (minute, text) ← readDigits 2 0 text
        let magnitude : Int := (hour * 3600 + minute * 60 : Nat)
        if hour < 24 ∧ minute < 60 then
          some (if c == '+' then magnitude else -magnitude, text)
        else none
      else none
  | [] => none

/-- The instant written by a text. -/
def ofIsoText? (text : List Char) : Option Instant := do
  let (date, text) ← readDate text
  let text ← match text with
    | c :: rest => if c == 'T' || c == 't' || c == ' ' then some rest else none
    | [] => none
  let ((hour, minute, second), text) ← readTime text
  let (nanos, text) ← readFraction text
  let (offset, text) ← readOffset text
  if text.isEmpty then
    let leap := second == 60
    let inDay : Int := (hour * 3600 + minute * 60 + (if leap then 59 else second) : Nat)
    ofParts? (date.toDays * 86400 + inDay - offset) (if leap then nanos + 1000000000 else nanos)
  else none

end Instant

end ItemTable
