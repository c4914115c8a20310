import ItemTable.Number.Basic

/-!
# Numbers that are integers

An integer below `2 ^ 53` is a number without rounding.  Numbers that are integers are ordered
and truncated as the integers are.
-/

namespace ItemTable

theorem Scaled.denominator_pos (scaled : Scaled) : 0 < (scaled.denominator : Int) :=
  Int.natCast_pos.mpr (Nat.pow_pos (by decide))

namespace Scaled

variable {scaled : Scaled} {least most bound : Int}

/-- The denoted fraction lies between two integers. -/
structure IsBetween (least most : Int) (scaled : Scaled) : Prop where
  least_le : least * scaled.denominator ≤ scaled.numerator
  le_most : scaled.numerator ≤ most * scaled.denominator

theorem natAbs_numerator_of_fraction (fraction : scaled.exponent < 0) :
    scaled.numerator.natAbs = scaled.significand := by
  have power : Int.pow 2 scaled.exponent.toNat = 1 := by
    rw [Int.toNat_of_nonpos (Int.le_of_lt fraction)]
    rfl
  rw [numerator, power, Int.mul_one]
  cases scaled.negative <;> simp

theorem two_le_denominator_of_fraction (fraction : scaled.exponent < 0) :
    2 ≤ scaled.denominator := by
  have positive : 1 ≤ (-scaled.exponent).toNat := by omega
  exact Nat.pow_le_pow_right (by decide : 0 < 2) positive

/-- Numbers with a fraction do not reach `2 ^ 52`. -/
theorem numerator_bounds_of_fraction (fraction : scaled.exponent < 0)
    (reaches : 4503599627370496 ≤ bound) :
    -(bound * scaled.denominator) ≤ scaled.numerator ∧
      scaled.numerator ≤ bound * scaled.denominator := by
  have magnitude := natAbs_numerator_of_fraction fraction
  have significand_lt : scaled.significand < 9007199254740992 := scaled.significand_lt
  have two_le : (2 : Int) ≤ scaled.denominator :=
    Int.ofNat_le.mpr (two_le_denominator_of_fraction fraction)
  have product : 4503599627370496 * 2 ≤ bound * scaled.denominator :=
    Int.mul_le_mul reaches two_le (by decide) (by omega)
  omega

theorem denominator_of_integer (integer : 0 ≤ scaled.exponent) : scaled.denominator = 1 := by
  rw [denominator, Int.toNat_of_nonpos (by omega)]

/-- Truncation does not lead into an interval that reaches as far, or out of it. -/
theorem truncate_isBetween_iff (low : least ≤ -Int.pow 2 52) (high : Int.pow 2 52 ≤ most) :
    least ≤ scaled.truncate ∧ scaled.truncate ≤ most ↔ scaled.IsBetween least most := by
  have power : Int.pow 2 52 = 4503599627370496 := rfl
  rw [power] at low high
  by_cases integer : 0 ≤ scaled.exponent
  · have one := denominator_of_integer integer
    have same : scaled.truncate = scaled.numerator := by
      rw [truncate, one]
      exact Int.tdiv_one _
    rw [same]
    constructor
    · rintro ⟨least_le, le_most⟩
      constructor <;> rwa [one, Int.natCast_one, Int.mul_one]
    · rintro ⟨least_le, le_most⟩
      rw [one, Int.natCast_one, Int.mul_one] at least_le le_most
      exact ⟨least_le, le_most⟩
  · have fraction : scaled.exponent < 0 := Int.not_le.mp integer
    obtain ⟨-, le_most⟩ := numerator_bounds_of_fraction fraction high
    obtain ⟨least_le, -⟩ :=
      numerator_bounds_of_fraction fraction (by omega : 4503599627370496 ≤ -least)
    rw [Int.neg_mul, Int.neg_neg] at least_le
    have truncated : scaled.truncate.natAbs = scaled.significand / scaled.denominator := by
      rw [truncate, Int.natAbs_tdiv, natAbs_numerator_of_fraction fraction, Int.natAbs_natCast]
      rfl
    have significand_lt : scaled.significand < 9007199254740992 := scaled.significand_lt
    have halved : scaled.significand / scaled.denominator ≤ scaled.significand / 2 :=
      Nat.div_le_div_left (two_le_denominator_of_fraction fraction) (by decide)
    exact iff_of_true ⟨by omega, by omega⟩ ⟨least_le, le_most⟩

end Scaled

namespace Number

variable {number other : Number} {value integer : Int}

/-- A number is an integer exactly. -/
def Denotes (number : Number) (value : Int) : Prop :=
  ∃ scaled, number = .finite scaled ∧ scaled.numerator = value * scaled.denominator

theorem denotes_ofInt (small : value.natAbs < Nat.pow 2 53) : (ofInt value).Denotes value := by
  rw [ofInt, dif_pos small]
  refine ⟨_, rfl, ?_⟩
  have power : Int.pow 2 (Int.toNat 0) = 1 := rfl
  rw [Scaled.numerator, Scaled.denominator]
  by_cases negative : value < 0
  · have magnitude : (value.natAbs : Int) = -value := by omega
    simp only [negative, decide_true, if_true, magnitude]
    rw [power]
    simp
  · have magnitude : (value.natAbs : Int) = value := by omega
    simp only [negative, decide_false, Bool.false_eq_true, if_false, magnitude]
    rw [power]
    simp

theorem Denotes.truncate?_eq (denotes : number.Denotes value) : number.truncate? = some value := by
  obtain ⟨scaled, rfl, exact⟩ := denotes
  have nonzero := Int.ne_of_gt scaled.denominator_pos
  rw [truncate?, Scaled.truncate, exact, Int.mul_tdiv_cancel _ nonzero]

private theorem Denotes.products {left right : Scaled}
    (denotes : left.numerator = value * left.denominator)
    (denotesOther : right.numerator = integer * right.denominator) :
    ∃ factor, 0 < factor ∧ left.numerator * right.denominator = value * factor ∧
      right.numerator * left.denominator = integer * factor := by
  refine ⟨left.denominator * right.denominator,
    Int.mul_pos left.denominator_pos right.denominator_pos, ?_, ?_⟩
  · rw [denotes, Int.mul_assoc]
  · rw [denotesOther, Int.mul_assoc, Int.mul_comm (right.denominator : Int)]

theorem Denotes.below_iff (denotes : number.Denotes value) (denotesOther : other.Denotes integer) :
    number.below other = true ↔ value < integer := by
  obtain ⟨scaled, rfl, exact⟩ := denotes
  obtain ⟨scaledOther, rfl, exactOther⟩ := denotesOther
  obtain ⟨factor, positive, left, right⟩ := Denotes.products exact exactOther
  rw [below, Scaled.below, decide_eq_true_eq, left, right]
  exact Int.mul_lt_mul_right positive

theorem Denotes.same_iff (denotes : number.Denotes value) (denotesOther : other.Denotes integer) :
    number.same other = true ↔ value = integer := by
  obtain ⟨scaled, rfl, exact⟩ := denotes
  obtain ⟨scaledOther, rfl, exactOther⟩ := denotesOther
  obtain ⟨factor, positive, left, right⟩ := Denotes.products exact exactOther
  rw [same, Scaled.same, beq_iff_eq, left, right]
  exact Int.mul_eq_mul_right_iff (Int.ne_of_gt positive)

theorem denotes_of_shortInt? (short : number.shortInt? = some integer) :
    number.Denotes integer ∧ integer.natAbs < 1000000000000000 := by
  cases number with
  | nan => cases short
  | infinity negative => cases short
  | finite scaled =>
      rw [shortInt?] at short
      split at short
      · next condition =>
          cases short
          rw [Bool.and_eq_true, Scaled.isIntegral, beq_iff_eq, decide_eq_true_eq] at condition
          obtain ⟨integral, small⟩ := condition
          have divides := Int.dvd_of_emod_eq_zero integral
          exact ⟨⟨scaled, rfl, (Int.tdiv_mul_cancel divides).symm⟩, small⟩
      · cases short

/-- Short integers are numbers without rounding. -/
theorem lt_of_short (small : integer.natAbs < 1000000000000000) :
    integer.natAbs < Nat.pow 2 53 :=
  Nat.lt_trans small (by decide)

theorem shortInt?_ofInt (small : integer.natAbs < 1000000000000000) :
    (ofInt integer).shortInt? = some integer := by
  have denotes : (ofInt integer).Denotes integer := denotes_ofInt (lt_of_short small)
  have truncated := denotes.truncate?_eq
  obtain ⟨scaled, same, denoted⟩ := denotes
  rw [same, truncate?] at truncated
  have integral : scaled.isIntegral = true := by
    rw [Scaled.isIntegral, denoted, Int.mul_emod_left]
    rfl
  rw [same, shortInt?, integral, Option.some.inj truncated]
  simp [small]

end Number

end ItemTable
