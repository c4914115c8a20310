import ItemTable.Number.Shortest

/-!
# Number layouts

A layout fixes how the shortest decimal of a number is laid out.  Two are in
use.  `wire` is the layout of JSON text: a decimal point and at least one
fraction digit while the leading digit stands between `10 ^ -5` and `10 ^ 15`,
and one leading digit with a signed exponent elsewhere.  `plain` is the layout
of a number spliced into text: never an exponent, and no fraction digit beyond
those the value needs.

Integers of magnitude below `10 ^ 15` are digits alone in both.
-/

namespace ItemTable

/-- The layout decisions of a number text. -/
structure NumberLayout where
  /-- The least and greatest leading power of ten written without an exponent. -/
  positional : Option (Int × Int)
  /-- Digits written behind the point at least, when no exponent is. -/
  fractionDigits : Nat
  /-- Which of two equally near decimals is written. -/
  tie : DecimalTie

namespace NumberLayout

def wire : NumberLayout := ⟨some (-5, 15), 1, .toEven⟩

def plain : NumberLayout := ⟨none, 0, .up⟩

/-- A count of zeros. -/
def zeros (count : Nat) : List Char :=
  List.replicate count '0'

/-- The digits of a decimal around its decimal point. -/
def layPositional (digits : List Char) (exponent : Int) (fractionDigits : Nat) : List Char :=
  let whole := (digits.length : Int) + exponent
  let integer :=
    if whole ≤ 0 then ['0']
    else digits.take whole.toNat ++ zeros (whole.toNat - digits.length)
  let fraction := zeros (-whole).toNat ++ digits.drop whole.toNat
  let fraction := fraction ++ zeros (fractionDigits - fraction.length)
  if fraction.isEmpty then integer else integer ++ '.' :: fraction

/-- One digit, the others behind the point, and the power of ten of the first. -/
def layScientific (digits : List Char) (leading : Int) : List Char :=
  let mantissa := match digits with
    | [] => ['0']
    | [digit] => [digit]
    | digit :: rest => digit :: '.' :: rest
  let sign := if leading < 0 then '-' else '+'
  mantissa ++ 'e' :: sign :: Nat.toDigits 10 leading.natAbs

/-- The text of a finite value. -/
def layFinite (layout : NumberLayout) (scaled : Scaled) : List Char :=
  let decimal := scaled.shortest layout.tie
  let digits := Nat.toDigits 10 decimal.coefficient
  let leading := (digits.length : Int) + decimal.exponent - 1
  let positional := match layout.positional with
    | none => true
    | some (least, greatest) => least ≤ leading && leading ≤ greatest
  let body :=
    if positional then layPositional digits decimal.exponent layout.fractionDigits
    else layScientific digits leading
  if scaled.negative then '-' :: body else body

end NumberLayout

namespace Number

/-- The digits of an integer, after a minus sign for a negative one. -/
def integerText (value : Int) : List Char :=
  let digits := Nat.toDigits 10 value.natAbs
  if value < 0 then '-' :: digits else digits

/-- The text of a number, with `special` for the values that are no real number. -/
def textIn (layout : NumberLayout) (special : Number → String) (number : Number) : String :=
  match number.shortInt? with
  | some value => String.ofList (integerText value)
  | none =>
      match number with
      | finite scaled => String.ofList (layout.layFinite scaled)
      | other => special other

/-- The number as JSON text, which has only `null` for what is no real number. -/
def wireText (number : Number) : String :=
  number.textIn .wire fun _ => "null"

/-- The number as spliced into other text. -/
def displayText (number : Number) : String :=
  number.textIn .plain fun
    | .infinity false => "inf"
    | .infinity true => "-inf"
    | _ => "NaN"

end Number

end ItemTable
