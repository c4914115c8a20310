import ItemTable.Proofs.Instant.CalendarOrder
import ItemTable.Proofs.Instant.Iso

/-!
# The order of ISO texts

Texts of years with four digits are fields of fixed widths, each with a mark behind it.  So
they are ordered as their fields are, and these are ordered as the instants without their
microseconds, as far as leap seconds follow second 59.
-/

namespace ItemTable

/-- A text that comes first in its own part comes first with anything behind that part. -/
theorem append_lt_append {left right : List Char} (sameLength : left.length = right.length)
    (less : left < right) (leftRest rightRest : List Char) :
    left ++ leftRest < right ++ rightRest := by
  induction left generalizing right with
  | nil =>
      cases right with
      | nil => cases less
      | cons c right => cases sameLength
  | cons c left induction =>
      cases right with
      | nil => cases sameLength
      | cons other right =>
          rw [List.length_cons, List.length_cons, Nat.add_right_cancel_iff] at sameLength
          rw [List.cons_lt_cons_iff] at less
          rw [List.cons_append, List.cons_append, List.cons_lt_cons_iff]
          rcases less with first | ⟨same, rest⟩
          · exact Or.inl first
          · exact Or.inr ⟨same, induction sameLength rest⟩

theorem digitChar_lt {digit other : Nat} (isDigit : other < 10) (less : digit < other) :
    Nat.digitChar digit < Nat.digitChar other := by
  have value := Nat.toNat_digitChar_of_lt_ten (Nat.lt_trans less isDigit)
  have otherValue := Nat.toNat_digitChar_of_lt_ten isDigit
  rw [Char.lt_def, UInt32.lt_iff_toNat_lt]
  change (Nat.digitChar digit).toNat < (Nat.digitChar other).toNat
  omega

/-- The last of the digits is the last digit, and before it stand the digits of the rest. -/
theorem paddedDigits_succ {width : Nat} (positive : 0 < width) (value : Nat) :
    paddedDigits (width + 1) value =
      paddedDigits width (value / 10) ++ [Nat.digitChar (value % 10)] := by
  simp only [paddedDigits]
  by_cases single : value < 10
  · have none : value / 10 = 0 := by omega
    have self : value % 10 = value := by omega
    obtain ⟨rest, rfl⟩ := Nat.exists_eq_add_one.mpr positive
    rw [none, self, Nat.toDigits_of_lt_base single, Nat.toDigits_of_lt_base (by decide),
      List.length_singleton, List.length_singleton, Nat.add_sub_cancel, Nat.add_sub_cancel,
      List.replicate_succ']
    rfl
  · rw [Nat.toDigits_of_base_le (by decide) (by omega : 10 ≤ value), List.length_append,
      List.length_singleton, Nat.add_sub_add_right, List.append_assoc]

/-- Of numbers with the same count of digits, the smaller one comes first. -/
theorem paddedDigits_lt {width value other : Nat} (positive : 0 < width) (less : value < other)
    (fits : other < 10 ^ width) : paddedDigits width value < paddedDigits width other := by
  induction width, positive using Nat.le_induction generalizing value other with
  | base =>
      have isDigit : other < 10 := fits
      simp only [paddedDigits]
      rw [Nat.toDigits_of_lt_base isDigit, Nat.toDigits_of_lt_base (by omega : value < 10)]
      exact List.cons_lt_cons_iff.mpr (Or.inl (digitChar_lt isDigit less))
  | succ width positive induction =>
      have restFits : other / 10 < 10 ^ width := by
        rw [Nat.div_lt_iff_lt_mul (by decide)]
        rwa [Nat.pow_succ] at fits
      rw [paddedDigits_succ positive, paddedDigits_succ positive]
      by_cases sameRest : value / 10 = other / 10
      · rw [sameRest]
        apply List.append_left_lt
        have lastLess : value % 10 < other % 10 := by omega
        have isDigit : other % 10 < 10 := Nat.mod_lt _ (by decide)
        exact List.cons_lt_cons_iff.mpr (Or.inl (digitChar_lt isDigit lastLess))
      · have restLess : value / 10 < other / 10 := by omega
        have sameLength : (paddedDigits width (value / 10)).length =
            (paddedDigits width (other / 10)).length := by
          rw [Instant.length_paddedDigits positive restFits,
            Instant.length_paddedDigits positive (by omega : value / 10 < 10 ^ width)]
        exact append_lt_append sameLength (induction restLess restFits) _ _

/-- The text of fields of fixed widths, each with the mark behind it. -/
def layoutText : List (Nat × Char) → List Nat → List Char
  | (width, mark) :: layout, value :: values =>
      paddedDigits width value ++ mark :: layoutText layout values
  | _, _ => []

/-- The values have the widths of their fields. -/
def FitsLayout (layout : List (Nat × Char)) (values : List Nat) : Prop :=
  List.Forall₂ (fun field value => 0 < field.1 ∧ value < 10 ^ field.1) layout values

theorem layoutText_lt {layout : List (Nat × Char)} {values others : List Nat}
    (fits : FitsLayout layout values) (fitsOthers : FitsLayout layout others)
    (less : values < others) :
    layoutText layout values < layoutText layout others := by
  induction fits generalizing others with
  | nil =>
      cases fitsOthers
      exact absurd less (List.lt_irrefl _)
  | @cons field value layout values fitsHere _ induction =>
      cases fitsOthers with
      | @cons _ other _ others fitsOther fitsRest =>
          obtain ⟨width, mark⟩ := field
          rw [layoutText, layoutText]
          rw [List.cons_lt_cons_iff] at less
          rcases less with first | ⟨rfl, rest⟩
          · have sameLength : (paddedDigits width value).length =
                (paddedDigits width other).length := by
              rw [Instant.length_paddedDigits fitsHere.1 fitsHere.2,
                Instant.length_paddedDigits fitsOther.1 fitsOther.2]
            exact append_lt_append sameLength
              (paddedDigits_lt fitsHere.1 first fitsOther.2) _ _
          · apply List.append_left_lt
            exact List.cons_lt_cons_iff.mpr (Or.inr ⟨rfl, induction fitsRest rest⟩)

theorem isAscii_layoutText {layout : List (Nat × Char)}
    (marks : ∀ field ∈ layout, field.2.toNat < 128) (values : List Nat) :
    ∀ c ∈ layoutText layout values, c.toNat < 128 := by
  induction layout generalizing values with
  | nil => simp [layoutText]
  | cons field layout induction =>
      obtain ⟨width, mark⟩ := field
      rw [List.forall_mem_cons] at marks
      cases values with
      | nil => simp [layoutText]
      | cons value values =>
          intro c member
          rw [layoutText, List.mem_append, List.mem_cons] at member
          rcases member with digit | rfl | rest
          · have isDigit := Instant.isDigit_of_mem_paddedDigits width value digit
            rw [Char.isDigit, Bool.and_eq_true, decide_eq_true_eq, decide_eq_true_eq] at isDigit
            have atMost : c.toNat ≤ 57 := UInt32.le_iff_toNat_le.mp isDigit.2
            omega
          · exact marks.1
          · exact induction marks.2 values c rest

namespace Instant

variable {left right instant : Instant}

/-- The widths and marks of a text with a year of four digits. -/
def isoLayout : List (Nat × Char) :=
  [(4, '-'), (2, '-'), (2, 'T'), (2, ':'), (2, ':'), (2, '.'), (3, 'Z')]

/-- What the fields of the text of an instant hold, from the year to the milliseconds. -/
def isoFields (instant : Instant) : List Nat :=
  let date := CivilDate.ofDays (instant.seconds / 86400)
  let inDay := (instant.seconds % 86400).toNat
  [date.year.toNat, date.month, date.day, inDay / 3600, inDay / 60 % 60,
    inDay % 60 + (if instant.isLeap then 1 else 0), instant.nanos % 1000000000 / 1000000]

theorem isoText_eq (notBefore : 0 ≤ instant.year) (notAfter : instant.year ≤ 9999) :
    instant.isoText = layoutText isoLayout instant.isoFields := by
  rw [year] at notBefore notAfter
  simp only [isoText, yearText, if_pos (And.intro notBefore notAfter), isoLayout, isoFields,
    layoutText, List.append_assoc, List.cons_append]

theorem isoFields_fit (notBefore : 0 ≤ instant.year) (notAfter : instant.year ≤ 9999) :
    FitsLayout isoLayout instant.isoFields := by
  obtain ⟨⟨-, month_le⟩, -, day_le⟩ :=
    CivilDate.bounds_of_isReal (CivilDate.isReal_ofDays (instant.seconds / 86400))
  have second_le := instant.second_le
  rw [year] at notBefore notAfter
  simp only [FitsLayout, isoLayout, isoFields, List.forall₂_cons, List.Forall₂.nil, and_true]
  omega

theorem leap_eq (instant : Instant) :
    (if instant.isLeap then 1 else 0) = instant.nanos / 1000000000 := by
  have within := instant.within
  cases leap : instant.isLeap with
  | true =>
      simp only [isLeap, decide_eq_true_eq] at leap
      simp only [if_true]
      omega
  | false =>
      simp only [isLeap, decide_eq_false_iff_not] at leap
      simp only [Bool.false_eq_true, if_false]
      omega

theorem truncated_before_iff :
    left.truncated.before right.truncated = true ↔
      left.seconds < right.seconds ∨
        left.seconds = right.seconds ∧ left.nanos / 1000000 < right.nanos / 1000000 := by
  rw [before, Bool.or_eq_true, Bool.and_eq_true, decide_eq_true_eq, decide_eq_true_eq, beq_iff_eq]
  simp only [truncated]
  omega

/-- A later minute of a day has a later hour, or the same hour and a later minute in it. -/
theorem minute_lt {inDay later : Nat} (less : inDay / 60 < later / 60) :
    inDay / 3600 < later / 3600 ∨
      inDay / 3600 = later / 3600 ∧ inDay / 60 % 60 < later / 60 % 60 := by
  have hour : inDay / 3600 = inDay / 60 / 60 := (Nat.div_div_eq_div_mul inDay 60 60).symm
  have laterHour : later / 3600 = later / 60 / 60 := (Nat.div_div_eq_div_mul later 60 60).symm
  omega

/-- In one minute, the second and the milliseconds tell which instant is earlier. -/
theorem second_lt (placed : left.isStray = false)
    (sameMinute : left.seconds / 60 = right.seconds / 60)
    (before : left.truncated.before right.truncated = true) :
    (left.seconds % 60).toNat + left.nanos / 1000000000 <
        (right.seconds % 60).toNat + right.nanos / 1000000000 ∨
      (left.seconds % 60).toNat + left.nanos / 1000000000 =
          (right.seconds % 60).toNat + right.nanos / 1000000000 ∧
        left.nanos % 1000000000 / 1000000 < right.nanos % 1000000000 / 1000000 := by
  rw [isStray_eq_false_iff] at placed
  have rightWithin := right.within
  rcases truncated_before_iff.mp before with earlier | ⟨sameSecond, less⟩
  · -- An earlier second is not the last one, so it is no leap second.
    omega
  · rw [sameSecond]
    omega

theorem isoFields_lt (notBefore : 0 ≤ left.year) (placed : left.isStray = false)
    (before : left.truncated.before right.truncated = true) :
    left.isoFields < right.isoFields := by
  have ordered : left.seconds ≤ right.seconds := by
    rw [truncated_before_iff] at before
    omega
  have leftSecond : (left.seconds % 86400).toNat % 60 = (left.seconds % 60).toNat := by omega
  have rightSecond : (right.seconds % 86400).toNat % 60 = (right.seconds % 60).toNat := by omega
  simp only [isoFields, left.leap_eq, right.leap_eq, leftSecond, rightSecond,
    List.cons_lt_cons_iff]
  by_cases sameMinute : left.seconds / 60 = right.seconds / 60
  · have sameDay : left.seconds / 86400 = right.seconds / 86400 := by omega
    have sameInDay : (left.seconds % 86400).toNat / 60 = (right.seconds % 86400).toNat / 60 := by
      omega
    have sameHour : (left.seconds % 86400).toNat / 3600 = (right.seconds % 86400).toNat / 3600 := by
      rw [← Nat.div_div_eq_div_mul _ 60 60, sameInDay, Nat.div_div_eq_div_mul]
    simp only [sameDay, sameHour, sameInDay, Nat.lt_irrefl, false_or, true_and]
    rcases second_lt placed sameMinute before with earlier | ⟨same, less⟩
    · exact Or.inl earlier
    · exact Or.inr ⟨same, Or.inl less⟩
  · by_cases sameDay : left.seconds / 86400 = right.seconds / 86400
    · simp only [sameDay, Nat.lt_irrefl, false_or, true_and]
      have less : (left.seconds % 86400).toNat / 60 < (right.seconds % 86400).toNat / 60 := by
        omega
      rcases minute_lt less with hour | ⟨sameHour, minute⟩
      · exact Or.inl hour
      · exact Or.inr ⟨sameHour, Or.inl minute⟩
    · have precedes := CivilDate.ofDays_precedes
        (by omega : left.seconds / 86400 < right.seconds / 86400)
      rw [year] at notBefore
      rcases precedes with year | ⟨sameYear, month | ⟨sameMonth, day⟩⟩
      · exact Or.inl (by omega)
      · exact Or.inr ⟨by rw [sameYear], Or.inl month⟩
      · exact Or.inr ⟨by rw [sameYear], Or.inr ⟨sameMonth, Or.inl day⟩⟩

theorem isoText_lt (leftYear : 0 ≤ left.year ∧ left.year ≤ 9999)
    (rightYear : 0 ≤ right.year ∧ right.year ≤ 9999) (placed : left.isStray = false)
    (before : left.truncated.before right.truncated = true) : left.isoText < right.isoText := by
  rw [isoText_eq leftYear.1 leftYear.2, isoText_eq rightYear.1 rightYear.2]
  exact layoutText_lt (isoFields_fit leftYear.1 leftYear.2)
    (isoFields_fit rightYear.1 rightYear.2) (isoFields_lt leftYear.1 placed before)

theorem isoText_congr (same : left.truncated = right.truncated) :
    left.isoText = right.isoText := by
  have sameSecond := congrArg Instant.seconds same
  have sameMillis := congrArg Instant.nanos same
  simp only [truncated] at sameSecond sameMillis
  have sameLeap : left.isLeap = right.isLeap := by
    rw [isLeap, isLeap, decide_eq_decide]
    omega
  have sameFraction : left.nanos % 1000000000 / 1000000 =
      right.nanos % 1000000000 / 1000000 := by omega
  simp only [isoText, sameSecond, sameLeap, sameFraction]

theorem isAscii_isoText (inYears : 0 ≤ instant.year ∧ instant.year ≤ 9999) :
    ∀ c ∈ instant.isoText, c.toNat < 128 := by
  rw [isoText_eq inYears.1 inYears.2]
  exact isAscii_layoutText (by decide) instant.isoFields

theorem truncated_before_trichotomy (left right : Instant) :
    left.truncated.before right.truncated = true ∨ left.truncated = right.truncated ∨
      right.truncated.before left.truncated = true := by
  rw [truncated_before_iff, truncated_before_iff]
  have same : left.seconds = right.seconds → left.nanos / 1000000 = right.nanos / 1000000 →
      left.truncated = right.truncated := by
    intro sameSecond sameMillis
    simp only [truncated, sameSecond, sameMillis]
  by_cases apart : left.seconds = right.seconds ∧ left.nanos / 1000000 = right.nanos / 1000000
  · exact Or.inr (Or.inl (same apart.1 apart.2))
  · omega

theorem not_before_self (instant : Instant) : instant.before instant = false := by
  simp [before]

theorem before_asymm (before : left.before right = true) : right.before left = false := by
  simp only [Instant.before, Bool.or_eq_true, Bool.and_eq_true, decide_eq_true_eq, beq_iff_eq]
    at before
  simp only [Instant.before, Bool.or_eq_false_iff, Bool.and_eq_false_iff, decide_eq_false_iff_not,
    beq_eq_false_iff_ne]
  omega

end Instant

end ItemTable
