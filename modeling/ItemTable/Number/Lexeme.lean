import ItemTable.Number.Basic

/-!
# Decimal number lexemes

A lexeme is a decimal number as it stands in text: a sign, integer digits, and
optional fraction and exponent.

`scaled?` is the reading of JSON text: the digits that fit an unsigned 64-bit
significand are gathered, the significand is rounded to binary64, and one
multiplication or division by a rounded power of ten follows.  On some decimals
of many digits this differs from the nearest binary64 value in the last place,
and a decimal above the range has no value.
-/

namespace ItemTable

/-- A decimal number as written.  Digits are values below ten, in reading order. -/
structure NumberLexeme where
  negative : Bool
  integer : List Nat
  /-- The digits behind the point, of which there is at least one. -/
  fraction : Option (List Nat)
  /-- The sign and the digits behind the exponent mark. -/
  exponent : Option (Bool × List Nat)
  deriving DecidableEq

namespace NumberLexeme

/-- The natural number written by a list of digits. -/
def natOf (digits : List Nat) : Nat :=
  digits.foldl (fun value digit => value * 10 + digit) 0

/-- The written power of ten. -/
def power (lexeme : NumberLexeme) : Int :=
  match lexeme.exponent with
  | none => 0
  | some (negative, digits) =>
      let magnitude : Int := natOf digits
      if negative then -magnitude else magnitude

/-- The integer written by a lexeme that has neither fraction nor exponent. -/
def integer? (lexeme : NumberLexeme) : Option Int :=
  match lexeme.fraction, lexeme.exponent with
  | none, none =>
      let magnitude : Int := natOf lexeme.integer
      some (if lexeme.negative then -magnitude else magnitude)
  | _, _ => none

/-- The greatest significand that is gathered from digits. -/
def significandLimit : Nat := Nat.pow 2 64 - 1

/-- Appends digits to a significand while it stays within the limit, and returns
it with the digits that did not fit. -/
def gather : Nat → List Nat → Nat × List Nat
  | significand, [] => (significand, [])
  | significand, digit :: rest =>
      let next := significand * 10 + digit
      if next ≤ significandLimit then gather next rest else (significand, digit :: rest)

/-- The rounded power of ten. -/
def powerOfTen (power : Nat) : Number :=
  Number.round false (Nat.pow 10 power) 1

/-- A significand times a power of ten, each rounded on its own.  Above the range
there is no value; powers below `-308` are divided out in steps. -/
def scale? (significand : Nat) (power : Int) : Option Number :=
  let number := Number.ofInt significand
  if 0 ≤ power then
    if significand == 0 then some number
    else if 308 < power then none
    else
      let product := number.multiply (powerOfTen power.toNat)
      if product.isFinite then some product else none
  else if -308 ≤ power then some (number.divide (powerOfTen (-power).toNat))
  else if -616 ≤ power then
    some ((number.divide (powerOfTen 308)).divide (powerOfTen (-power - 308).toNat))
  else some (Number.zero false)

/-- The greatest magnitude of an exponent that is taken at its value. -/
def exponentLimit : Nat := Nat.pow 2 31 - 1

/-- The reading of JSON text; a decimal above the range has none. -/
def scaled? (lexeme : NumberLexeme) : Option Number :=
  let (whole, uncounted) := gather 0 lexeme.integer
  let (significand, unread) := gather whole (lexeme.fraction.getD [])
  let counted := (lexeme.fraction.getD []).length - unread.length
  let written := (uncounted.length : Int) - counted
  let magnitude :=
    if lexeme.fraction.isNone && lexeme.exponent.isNone && uncounted.isEmpty then
      some (Number.ofInt significand)
    else match lexeme.exponent with
      | none => scale? significand written
      | some (negative, digits) =>
          if natOf digits ≤ exponentLimit then scale? significand (written + lexeme.power)
          else if significand == 0 || negative then some (Number.zero false)
          else none
  magnitude.map fun number => if lexeme.negative then number.negate else number

end NumberLexeme

end ItemTable
