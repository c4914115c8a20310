/-!
# Binary64 numbers

A number is one of the binary64 values: not-a-number, an infinity, or an
integer significand scaled by a power of two.  One value may be written with
several pairs of significand and exponent, so numbers are compared through the
exact fraction they denote, never through that pair.

Every operation forms its exact result as a fraction of naturals and rounds
once, to the nearest binary64 value with ties to the even significand.
-/

namespace ItemTable

/-- A finite binary64 value: `significand * 2 ^ exponent`, with its sign. -/
structure Scaled where
  negative : Bool
  significand : Nat
  exponent : Int
  significand_lt : significand < Nat.pow 2 53 := by decide
  exponent_ge : -1074 ≤ exponent := by decide
  exponent_le : exponent ≤ 971 := by decide
  deriving DecidableEq

/-- A binary64 value. -/
inductive Number
  | nan
  | infinity (negative : Bool)
  | finite (scaled : Scaled)
  deriving DecidableEq

namespace Scaled

/-- The numerator of the denoted fraction. -/
def numerator (scaled : Scaled) : Int :=
  let magnitude : Int := scaled.significand * Int.pow 2 scaled.exponent.toNat
  if scaled.negative then -magnitude else magnitude

/-- The denominator of the denoted fraction, a power of two. -/
def denominator (scaled : Scaled) : Nat :=
  Nat.pow 2 (-scaled.exponent).toNat

/-- Equality of the denoted fractions, so the two zeros are equal. -/
def same (left right : Scaled) : Bool :=
  left.numerator * right.denominator == right.numerator * left.denominator

/-- The order of the denoted fractions. -/
def below (left right : Scaled) : Bool :=
  decide (left.numerator * right.denominator < right.numerator * left.denominator)

/-- The denoted fraction without its fractional digits. -/
def truncate (scaled : Scaled) : Int :=
  scaled.numerator.tdiv scaled.denominator

/-- Whether the denoted fraction is an integer. -/
def isIntegral (scaled : Scaled) : Bool :=
  scaled.numerator % scaled.denominator == 0

end Scaled

/-- The integer nearest to a fraction; a half goes to the even neighbour. -/
def nearestEven (numerator denominator : Nat) : Nat :=
  let quotient := numerator / denominator
  let remainder := numerator % denominator
  if 2 * remainder < denominator then quotient
  else if denominator < 2 * remainder then quotient + 1
  else if quotient % 2 == 0 then quotient
  else quotient + 1

namespace Number

/-- Zero with the given sign. -/
def zero (negative : Bool) : Number :=
  .finite { negative, significand := 0, exponent := 0 }

/-- A significand and exponent as a number.  A full significand of `2 ^ 53` is
halved first; what then exceeds the range is infinite. -/
def ofParts (negative : Bool) (significand : Nat) (exponent : Int) : Number :=
  let halved := significand == Nat.pow 2 53
  let significand := if halved then Nat.pow 2 52 else significand
  let exponent := if halved then exponent + 1 else exponent
  if bounds : significand < Nat.pow 2 53 ∧ -1074 ≤ exponent ∧ exponent ≤ 971 then
    .finite {
      negative, significand, exponent
      significand_lt := bounds.1
      exponent_ge := bounds.2.1
      exponent_le := bounds.2.2 }
  else .infinity negative

/-- The binary64 value nearest to a fraction.  The exponent is the least one,
not below `-1074`, that leaves at most 53 significant bits. -/
def round (negative : Bool) (numerator denominator : Nat) : Number :=
  let least : Int := max (-1074) ((numerator.log2 : Int) - denominator.log2 - 53)
  let above (exponent : Int) : Nat := numerator * Nat.pow 2 (-exponent).toNat
  let under (exponent : Int) : Nat := denominator * Nat.pow 2 exponent.toNat
  let exponent := if above least / under least < Nat.pow 2 53 then least else least + 1
  ofParts negative (nearestEven (above exponent) (under exponent)) exponent

/-- The number nearest to an integer, which is the integer itself below `2 ^ 53`. -/
def ofInt (value : Int) : Number :=
  if small : value.natAbs < Nat.pow 2 53 then
    .finite {
      negative := decide (value < 0)
      significand := value.natAbs
      exponent := 0
      significand_lt := small }
  else round (decide (value < 0)) value.natAbs 1

def isFinite : Number → Bool
  | finite _ => true
  | _ => false

def isNaN : Number → Bool
  | nan => true
  | _ => false

def isNegative : Number → Bool
  | nan => false
  | infinity negative => negative
  | finite scaled => scaled.negative

/-- Numeric equality: `nan` differs from itself and the two zeros are equal. -/
def same : Number → Number → Bool
  | infinity left, infinity right => left == right
  | finite left, finite right => left.same right
  | _, _ => false

/-- Numeric order; nothing is below or above `nan`. -/
def below : Number → Number → Bool
  | infinity left, infinity right => left && !right
  | infinity negative, finite _ => negative
  | finite _, infinity negative => !negative
  | finite left, finite right => left.below right
  | _, _ => false

/-- Below or equal. -/
def atMost (left right : Number) : Bool :=
  left.below right || left.same right

/-- Whether this is a zero of either sign. -/
def isZero : Number → Bool
  | finite scaled => scaled.significand == 0
  | _ => false

def negate : Number → Number
  | nan => nan
  | infinity negative => infinity (!negative)
  | finite scaled => finite { scaled with negative := !scaled.negative }

/-- The rounded product. -/
def multiply : Number → Number → Number
  | finite left, finite right =>
      round (left.negative != right.negative)
        (left.numerator.natAbs * right.numerator.natAbs)
        (left.denominator * right.denominator)
  | nan, _ => nan
  | _, nan => nan
  | left, right =>
      if left.isZero || right.isZero then nan
      else infinity (left.isNegative != right.isNegative)

/-- The rounded quotient. -/
def divide : Number → Number → Number
  | nan, _ => nan
  | _, nan => nan
  | infinity _, infinity _ => nan
  | infinity left, finite right => infinity (left != right.negative)
  | finite left, infinity right => zero (left.negative != right)
  | finite left, finite right =>
      let negative := left.negative != right.negative
      if right.significand == 0 then
        if left.significand == 0 then nan else infinity negative
      else
        round negative
          (left.numerator.natAbs * right.denominator)
          (right.numerator.natAbs * left.denominator)

/-- The rounded sum; an exact sum of zero is negative only for two negative zeros. -/
def add : Number → Number → Number
  | nan, _ => nan
  | _, nan => nan
  | infinity left, infinity right => if left == right then infinity left else nan
  | infinity left, finite _ => infinity left
  | finite _, infinity right => infinity right
  | finite left, finite right =>
      let sum := left.numerator * right.denominator + right.numerator * left.denominator
      if sum == 0 then
        zero (left.negative && right.negative && left.significand == 0)
      else round (decide (sum < 0)) sum.natAbs (left.denominator * right.denominator)

/-- The integer below a finite number's fractional digits, toward zero. -/
def truncate? : Number → Option Int
  | finite scaled => some scaled.truncate
  | _ => none

/-- The integer a number equals, provided its magnitude is below `10 ^ 15`. -/
def shortInt? : Number → Option Int
  | finite scaled =>
      if scaled.isIntegral && scaled.truncate.natAbs < 1000000000000000 then some scaled.truncate
      else none
  | _ => none

end Number

end ItemTable
