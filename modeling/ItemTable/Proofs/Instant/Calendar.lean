import Mathlib.Tactic.IntervalCases
import ItemTable.Instant.Calendar

/-!
# Days and dates

Every day count has a date of the calendar, and the date has this day count.  Both
facts are proved of a month and a day in a year that begins in March, into which a
count is taken apart.
-/

namespace ItemTable.CivilDate

theorem monthLength_le (year : Int) (month : Nat) : monthLength year month ≤ 31 := by
  rw [monthLength]
  split
  · split <;> decide
  · split <;> decide

theorem bounds_of_isReal {date : CivilDate} (real : date.isReal = true) :
    (1 ≤ date.month ∧ date.month ≤ 12) ∧ 1 ≤ date.day ∧ date.day ≤ 31 := by
  simp only [isReal, Bool.and_eq_true, decide_eq_true_eq] at real
  obtain ⟨⟨months, day_ge⟩, day_le⟩ := real
  exact ⟨months, day_ge, Nat.le_trans day_le (monthLength_le date.year date.month)⟩

/-- The date of a month and a day in a year that begins in March. -/
def ofMarch (marchYear : Int) (marchMonth day : Nat) : CivilDate where
  year := if marchMonth < 10 then marchYear else marchYear + 1
  month := if marchMonth < 10 then marchMonth + 3 else marchMonth - 9
  day := day

theorem toDays_ofMarch (marchYear : Int) {marchMonth : Nat} (isMonth : marchMonth < 12)
    (day : Nat) :
    (ofMarch marchYear marchMonth day).toDays =
      365 * marchYear + marchYear / 4 - marchYear / 100 + marchYear / 400 +
        (daysBefore marchMonth + day : Nat) - 1 - epochShift := by
  by_cases early : marchMonth < 10
  · have notEarlier : ¬ marchMonth + 3 < 3 := by omega
    simp [toDays, ofMarch, early, notEarlier]
  · have nextYear : marchMonth - 9 < 3 := by omega
    have back : marchMonth - 9 + 9 = marchMonth := by omega
    simp [toDays, ofMarch, early, nextYear, back]

/-- The months have the days that the linear rule leaves between them, and February
those that are left at the end of the year. -/
theorem isReal_ofMarch {marchYear : Int} {marchMonth day : Nat} (isMonth : marchMonth < 12)
    (positive : 1 ≤ day) (within : daysBefore marchMonth + day ≤ daysBefore (marchMonth + 1))
    (yearEnds : daysBefore marchMonth + day ≤ 366)
    (late : daysBefore marchMonth + day = 366 → isLeapYear (marchYear + 1) = true) :
    (ofMarch marchYear marchMonth day).isReal = true := by
  simp only [daysBefore] at within yearEnds late
  by_cases february : marchMonth = 11
  · subst february
    have length : day ≤ monthLength (marchYear + 1) 2 := by
      cases leap : isLeapYear (marchYear + 1) with
      | true => simp [monthLength, leap]; omega
      | false =>
          have notLast : day ≠ 29 := by
            rintro rfl
            simp [late] at leap
          simp [monthLength, leap]
          omega
    simp [isReal, ofMarch, positive, length]
  · interval_cases marchMonth <;> simp [isReal, ofMarch, monthLength] <;> omega

/-- Day counts are mixed-radix numerals.  The last day of a year of 366 days is the last
of its cycle of four years, and of its era where the cycle is the last of its century. -/
theorem ofDays_eq_ofMarch (days : Int) :
    ∃ (era : Int) (century cycle year inYear : Nat),
      century ≤ 3 ∧ cycle ≤ 24 ∧ year ≤ 3 ∧ inYear ≤ 365 ∧
      (inYear = 365 → year = 3 ∧ (cycle = 24 → century = 3)) ∧
      days + epochShift =
        146097 * era + (36524 * century + 1461 * cycle + 365 * year + inYear : Nat) ∧
      ofDays days =
        ofMarch (400 * era + (100 * century + 4 * cycle + year : Nat))
          ((5 * inYear + 2) / 153) (inYear - daysBefore ((5 * inYear + 2) / 153) + 1) := by
  have inEra_lt : ((days + epochShift) % 146097).toNat < 146097 := by omega
  have parts : days + epochShift =
      146097 * ((days + epochShift) / 146097) + ((days + epochShift) % 146097).toNat := by omega
  refine ⟨(days + epochShift) / 146097, _, _, _, _, ?_, ?_, ?_, ?_, ?_, ?_, rfl⟩
  all_goals
    generalize ((days + epochShift) % 146097).toNat = inEra at inEra_lt parts ⊢
  · omega
  · omega
  · omega
  · omega
  · omega
  · rw [parts]
    omega

theorem toDays_ofDays (days : Int) : (ofDays days).toDays = days := by
  obtain ⟨era, century, cycle, year, inYear, century_le, cycle_le, year_le, inYear_le, -, parts,
    same⟩ := ofDays_eq_ofMarch days
  have before_le : daysBefore ((5 * inYear + 2) / 153) ≤ inYear := by
    rw [daysBefore]
    omega
  rw [same, toDays_ofMarch _ (by omega)]
  omega

theorem isReal_ofDays (days : Int) : (ofDays days).isReal = true := by
  obtain ⟨era, century, cycle, year, inYear, century_le, cycle_le, year_le, inYear_le, late, -,
    same⟩ := ofDays_eq_ofMarch days
  rw [same]
  apply isReal_ofMarch
  · omega
  · omega
  · simp only [daysBefore]
    omega
  · simp only [daysBefore]
    omega
  · simp only [daysBefore]
    intro last
    obtain ⟨lastYear, lastCentury⟩ := late (by omega)
    simp only [isLeapYear, Bool.and_eq_true, Bool.or_eq_true, beq_iff_eq, bne_iff_ne]
    omega

end ItemTable.CivilDate
