import Mathlib.Tactic.IntervalCases
import ItemTable.Proofs.Instant.Calendar

/-!
# The order of dates

Later days have later dates.  Months are counted through all years, so that every month
begins when the one before it has ended; a date is then placed by its month and, inside the
month, by its day.
-/

namespace ItemTable.CivilDate

variable {left right date : CivilDate}

/-- The order of years, months and days. -/
def Precedes (left right : CivilDate) : Prop :=
  left.year < right.year ∨ left.year = right.year ∧
    (left.month < right.month ∨ left.month = right.month ∧ left.day < right.day)

/-- The day on which a month begins.  Months are counted from January of year zero. -/
def monthStart (index : Int) : Int :=
  toDays { year := index / 12, month := (index % 12).toNat + 1, day := 1 }

theorem monthStart_eq (year : Int) {month : Nat} (isMonth : month < 12) :
    monthStart (12 * year + month) = toDays { year, month := month + 1, day := 1 } := by
  have sameYear : (12 * year + month) / 12 = year := by omega
  have sameMonth : ((12 * year + month) % 12).toNat = month := by omega
  rw [monthStart, sameYear, sameMonth]

theorem monthStart_succ (year : Int) {month : Nat} (isMonth : month < 12) :
    monthStart (12 * year + month + 1) =
      monthStart (12 * year + month) + monthLength year (month + 1) := by
  by_cases december : month = 11
  · subst december
    have next : 12 * year + (11 : Nat) + 1 = 12 * (year + 1) + (0 : Nat) := by omega
    rw [next, monthStart_eq (year + 1) (by decide), monthStart_eq year isMonth]
    simp [toDays, monthLength, daysBefore]
    omega
  · have next : 12 * year + month + 1 = 12 * year + (month + 1 : Nat) := by omega
    rw [next, monthStart_eq year (by omega), monthStart_eq year isMonth]
    by_cases february : month = 1
    · subst february
      simp [toDays, monthLength, daysBefore, isLeapYear]
      split <;> omega
    · have bound : month < 11 := by omega
      clear next
      interval_cases month <;> simp [toDays, monthLength, daysBefore] at february ⊢ <;> omega

theorem monthLength_pos (year : Int) (month : Nat) : 0 < monthLength year month := by
  rw [monthLength]
  split
  · split <;> decide
  · split <;> decide

theorem monthStart_lt_succ (index : Int) : monthStart index < monthStart (index + 1) := by
  have parts : index = 12 * (index / 12) + (index % 12).toNat := by omega
  have step := monthStart_succ (index / 12) (show (index % 12).toNat < 12 by omega)
  rw [← parts] at step
  have positive := monthLength_pos (index / 12) ((index % 12).toNat + 1)
  omega

theorem monthStart_le {index later : Int} (notAfter : index ≤ later) :
    monthStart index ≤ monthStart later := by
  obtain ⟨count, rfl⟩ := Int.le.dest notAfter
  clear notAfter
  induction count with
  | zero => exact Int.le_of_eq (by simp)
  | succ count induction =>
      have step := monthStart_lt_succ (index + count)
      rw [Int.natCast_succ, ← Int.add_assoc]
      omega

/-- The count of the month of a date. -/
def monthIndex (date : CivilDate) : Int :=
  12 * date.year + (date.month - 1 : Nat)

theorem toDays_eq (real : date.isReal = true) :
    date.toDays = monthStart date.monthIndex + date.day - 1 := by
  simp only [isReal, Bool.and_eq_true, decide_eq_true_eq] at real
  obtain ⟨⟨⟨month_ge, month_le⟩, day_ge⟩, -⟩ := real
  have sameMonth : date.month - 1 + 1 = date.month := by omega
  rw [monthIndex, monthStart_eq date.year (by omega), sameMonth]
  simp only [toDays]
  omega

theorem toDays_lt_monthStart (real : date.isReal = true) :
    date.toDays < monthStart (date.monthIndex + 1) := by
  rw [toDays_eq real]
  simp only [isReal, Bool.and_eq_true, decide_eq_true_eq] at real
  obtain ⟨⟨⟨month_ge, month_le⟩, -⟩, day_le⟩ := real
  have sameMonth : date.month - 1 + 1 = date.month := by omega
  rw [monthIndex, monthStart_succ date.year (by omega), sameMonth]
  omega

theorem toDays_lt (realLeft : left.isReal = true) (realRight : right.isReal = true)
    (precedes : left.Precedes right) : left.toDays < right.toDays := by
  by_cases sameMonth : left.year = right.year ∧ left.month = right.month
  · have sameStart : left.monthIndex = right.monthIndex := by
      rw [monthIndex, monthIndex, sameMonth.1, sameMonth.2]
    rw [toDays_eq realLeft, toDays_eq realRight, sameStart]
    rw [Precedes] at precedes
    omega
  · have ends := toDays_lt_monthStart realLeft
    simp only [isReal, Bool.and_eq_true, decide_eq_true_eq] at realLeft
    have laterMonth : left.monthIndex + 1 ≤ right.monthIndex := by
      simp only [monthIndex]
      rw [Precedes] at precedes
      omega
    have begins := monthStart_le laterMonth
    rw [toDays_eq realRight]
    simp only [isReal, Bool.and_eq_true, decide_eq_true_eq] at realRight
    omega

/-- The days from the first of the year zero to the last of the year 9999. -/
theorem toDays_bounds (real : date.isReal = true) (notBefore : 0 ≤ date.year)
    (notAfter : date.year ≤ 9999) : -719528 ≤ date.toDays ∧ date.toDays < 2932897 := by
  obtain ⟨⟨month_ge, month_le⟩, day_ge, -⟩ := bounds_of_isReal real
  have first : monthStart 0 = -719528 := rfl
  have last : monthStart 120000 = 2932897 := rfl
  have index_ge : 0 ≤ date.monthIndex := by
    rw [monthIndex]
    omega
  have index_lt : date.monthIndex + 1 ≤ 120000 := by
    rw [monthIndex]
    omega
  have begins := monthStart_le index_ge
  have ends := monthStart_le index_lt
  have before := toDays_lt_monthStart real
  rw [toDays_eq real] at before ⊢
  omega

theorem precedes_trichotomy (left right : CivilDate) :
    left.Precedes right ∨ left = right ∨ right.Precedes left := by
  cases left
  cases right
  simp only [Precedes, CivilDate.mk.injEq]
  omega

theorem ofDays_precedes {days later : Int} (earlier : days < later) :
    (ofDays days).Precedes (ofDays later) := by
  have ordered : (ofDays days).toDays < (ofDays later).toDays := by
    rwa [toDays_ofDays, toDays_ofDays]
  rcases precedes_trichotomy (ofDays days) (ofDays later) with precedes | same | follows
  · exact precedes
  · rw [same] at ordered
    exact absurd ordered (Int.lt_irrefl _)
  · have reversed := toDays_lt (isReal_ofDays later) (isReal_ofDays days) follows
    exact absurd ordered (Int.lt_asymm reversed)

end ItemTable.CivilDate
