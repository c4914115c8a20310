import ItemTable.Number.Basic

/-!
# Shortest decimal digits

The shortest decimal of a finite number is the one with the fewest digits among
those that round to the number, and the nearest to it of these.

A decimal rounds to the number exactly when it lies between the midpoints to
the two neighbouring binary64 values, ends included when the significand is
even.  The search goes from the grid with one significant digit to the grid
with seventeen, testing on each the two grid points around the number.
-/

namespace ItemTable

/-- Which of two equally near decimals is taken. -/
inductive DecimalTie
  | toEven
  | up

/-- A decimal: `coefficient * 10 ^ exponent`. -/
structure Decimal where
  coefficient : Nat
  exponent : Int
  deriving DecidableEq

namespace Decimal

/-- The number of decimal digits; zero has none. -/
def lengthOf (value : Nat) : Nat :=
  if value = 0 then 0 else (Nat.toDigits 10 value).length

/-- Moves up to `steps` trailing zeros from the coefficient into the exponent. -/
def strip : Nat → Decimal → Decimal
  | 0, decimal => decimal
  | steps + 1, decimal =>
      if decimal.coefficient % 10 == 0 && decimal.coefficient != 0 then
        strip steps ⟨decimal.coefficient / 10, decimal.exponent + 1⟩
      else decimal

end Decimal

namespace Scaled

/-- The same value with the largest significand that 53 bits and the least
exponent allow. -/
def widened (scaled : Scaled) : Nat × Int :=
  let shift := min (52 - scaled.significand.log2) (scaled.exponent + 1074).toNat
  (scaled.significand * Nat.pow 2 shift, scaled.exponent - shift)

/-- The power of ten of the leading decimal digit of a non-zero value. -/
def decimalExponent (scaled : Scaled) : Int :=
  let numerator := scaled.numerator.natAbs
  let denominator := scaled.denominator
  if denominator ≤ numerator then
    (Decimal.lengthOf (numerator / denominator) : Int) - 1
  else
    -(Decimal.lengthOf ((denominator + numerator - 1) / numerator - 1) : Int)

/-- The nearest decimal on the grid `10 ^ power` among those that round to the
magnitude `significand * 2 ^ exponent`. -/
def onGrid? (tie : DecimalTie) (significand : Nat) (exponent power : Int) : Option Decimal :=
  -- A grid point `c` meets quarter `q` of the last binary place when `c * grid = q * quarter`.
  let grid := Nat.pow 10 power.toNat * Nat.pow 2 (2 - exponent).toNat
  let quarter := Nat.pow 2 (exponent - 2).toNat * Nat.pow 10 (-power).toNat
  let value := 4 * significand * quarter
  let gapBelow := if significand == Nat.pow 2 52 && decide (-1074 < exponent) then 1 else 2
  let low := (4 * significand - gapBelow) * quarter
  let high := (4 * significand + 2) * quarter
  let closed := significand % 2 == 0
  let reads (point : Nat) : Bool :=
    if closed then low ≤ point && point ≤ high else low < point && point < high
  let floor := value / grid
  let lowPoint := floor * grid
  let highPoint := (floor + 1) * grid
  let takesLow :=
    let below := value - lowPoint
    let above := highPoint - value
    below < above ||
      (below == above && (match tie with | .toEven => floor % 2 == 0 | .up => false))
  match reads lowPoint, reads highPoint with
  | true, true => some ⟨if takesLow then floor else floor + 1, power⟩
  | true, false => some ⟨floor, power⟩
  | false, true => some ⟨floor + 1, power⟩
  | false, false => none

/-- Tries grids of falling power; `count` more grids are left. -/
def searchGrids (tie : DecimalTie) (significand : Nat) (exponent : Int) :
    Nat → Int → Option Decimal
  | 0, _ => none
  | count + 1, power =>
      (onGrid? tie significand exponent power).orElse fun _ =>
        searchGrids tie significand exponent count (power - 1)

/-- The shortest decimal that rounds to the magnitude, without trailing zeros. -/
def shortest (tie : DecimalTie) (scaled : Scaled) : Decimal :=
  if scaled.significand == 0 then ⟨0, 0⟩
  else
    let (significand, exponent) := scaled.widened
    match searchGrids tie significand exponent 17 scaled.decimalExponent with
    | some decimal => decimal.strip 17
    | none => ⟨0, 0⟩

end Scaled

end ItemTable
