import ItemTable.Instant.Iso
import ItemTable.Proofs.Instant.Calendar

/-!
# Reading ISO texts back

The ISO text of an instant is read as the instant without its microseconds, provided
that its year has four digits and no sign, and that a leap second follows second 59.
Each reader is proved to take off what its writer has written, whatever follows.
-/

namespace ItemTable

namespace Instant

theorem digit?_of_isDigit {c : Char} (isDigit : c.isDigit = true) :
    digit? c = some (c.toNat - '0'.toNat) := by
  rw [Char.isDigit, Bool.and_eq_true, decide_eq_true_eq, decide_eq_true_eq] at isDigit
  exact if_pos isDigit

theorem readDigits_append {digits : List Char} (allDigits : ∀ c ∈ digits, c.isDigit = true)
    (value : Nat) (rest : List Char) :
    readDigits digits.length value (digits ++ rest) =
      some (Nat.ofDigitChars 10 digits value, rest) := by
  induction digits generalizing value with
  | nil => rfl
  | cons c digits induction =>
      rw [List.length_cons, List.cons_append, readDigits,
        digit?_of_isDigit (allDigits c List.mem_cons_self)]
      rw [Nat.ofDigitChars_cons, Nat.mul_comm 10 value]
      exact induction (fun other member => allDigits other (List.mem_cons_of_mem _ member)) _

theorem isDigit_of_mem_paddedDigits (width value : Nat) {c : Char}
    (member : c ∈ paddedDigits width value) : c.isDigit = true := by
  rcases List.mem_append.mp member with padding | digit
  · rw [List.eq_of_mem_replicate padding]
    rfl
  · exact Nat.isDigit_of_mem_toDigits (by decide) (by decide) digit

theorem length_paddedDigits {width value : Nat} (positive : 0 < width)
    (fits : value < 10 ^ width) : (paddedDigits width value).length = width := by
  have length_le : (Nat.toDigits 10 value).length ≤ width :=
    (Nat.length_toDigits_le_iff (by decide) positive).mpr fits
  rw [paddedDigits, List.length_append, List.length_replicate]
  omega

theorem ofDigitChars_paddedDigits (width value : Nat) :
    Nat.ofDigitChars 10 (paddedDigits width value) 0 = value := by
  rw [paddedDigits, Nat.ofDigitChars_append, Nat.ofDigitChars_replicate_zero, Nat.mul_zero,
    Nat.ofDigitChars_ten_toDigits]

theorem readDigits_paddedDigits (width value : Nat) (positive : 0 < width)
    (fits : value < 10 ^ width) (rest : List Char) :
    readDigits width 0 (paddedDigits width value ++ rest) = some (value, rest) := by
  have read := readDigits_append (fun _ => isDigit_of_mem_paddedDigits width value) 0 rest
  rwa [length_paddedDigits positive fits, ofDigitChars_paddedDigits] at read

theorem readMark_self (mark : Char) (rest : List Char) :
    readMark mark (mark :: rest) = some rest := by
  simp [readMark]

theorem readDate_append {date : CivilDate} (real : date.isReal = true) (notBefore : 0 ≤ date.year)
    (notAfter : date.year ≤ 9999) (rest : List Char) :
    readDate (yearText date.year ++ '-' :: (paddedDigits 2 date.month ++
      '-' :: (paddedDigits 2 date.day ++ rest))) = some (date, rest) := by
  obtain ⟨⟨-, month_le⟩, -, day_le⟩ := CivilDate.bounds_of_isReal real
  have year_eq : ((date.year.toNat : Nat) : Int) = date.year := Int.toNat_of_nonneg notBefore
  rw [yearText, if_pos ⟨notBefore, notAfter⟩, readDate]
  simp only [readMark_self, Option.bind_eq_bind, Option.bind_some,
    readDigits_paddedDigits 4 date.year.toNat (by decide) (by omega),
    readDigits_paddedDigits 2 date.month (by decide) (by omega),
    readDigits_paddedDigits 2 date.day (by decide) (by omega),
    year_eq, real, if_true]

theorem readTime_append {hour minute second : Nat} (isHour : hour < 24) (isMinute : minute < 60)
    (isSecond : second ≤ 60) (rest : List Char) :
    readTime (paddedDigits 2 hour ++ ':' :: (paddedDigits 2 minute ++
      ':' :: (paddedDigits 2 second ++ rest))) = some ((hour, minute, second), rest) := by
  rw [readTime]
  simp only [readMark_self, Option.bind_eq_bind, Option.bind_some,
    readDigits_paddedDigits 2 hour (by decide) (by omega),
    readDigits_paddedDigits 2 minute (by decide) (by omega),
    readDigits_paddedDigits 2 second (by decide) (by omega),
    isHour, isMinute, isSecond, and_self, if_true]

theorem fractionNanos_eq {digits : List Char} (length_le : digits.length ≤ 9) :
    fractionNanos digits = Nat.ofDigitChars 10 digits 0 * 10 ^ (9 - digits.length) := by
  rw [fractionNanos, List.take_of_length_le length_le, Nat.ofDigitChars_eq_foldl]
  simp only [Nat.mul_comm]
  rfl

theorem readFraction_append {millis : Nat} (fits : millis < 1000) {c : Char} (rest : List Char)
    (ends : c.isDigit = false) :
    readFraction ('.' :: (paddedDigits 3 millis ++ c :: rest)) =
      some (millis * 1000000, c :: rest) := by
  have allDigits : ∀ c ∈ paddedDigits 3 millis, c.isDigit = true :=
    fun _ => isDigit_of_mem_paddedDigits 3 millis
  have length : (paddedDigits 3 millis).length = 3 := length_paddedDigits (by decide) fits
  have nonempty : (paddedDigits 3 millis).isEmpty = false := by
    cases empty : paddedDigits 3 millis with
    | nil => simp [empty] at length
    | cons c digits => rfl
  rw [readFraction, List.takeWhile_append_of_pos allDigits, List.dropWhile_append_of_pos allDigits]
  simp [ends, nonempty, fractionNanos_eq, length, ofDigitChars_paddedDigits]

/-- The instant without its microseconds.  A leap second stays one. -/
def truncated (instant : Instant) : Instant where
  seconds := instant.seconds
  nanos := instant.nanos / 1000000 * 1000000
  supported := instant.supported
  within := Nat.lt_of_le_of_lt (Nat.div_mul_le_self _ _) instant.within

/-- Whether an instant lies in a leap second that follows another second than 59. -/
def isStray (instant : Instant) : Bool :=
  instant.isLeap && instant.seconds % 60 != 59

theorem isStray_eq_false_iff {instant : Instant} :
    instant.isStray = false ↔ instant.nanos < 1000000000 ∨ instant.seconds % 60 = 59 := by
  simp only [isStray, isLeap, Bool.and_eq_false_iff, decide_eq_false_iff_not, Nat.not_le,
    bne_eq_false_iff_eq]

theorem isStray_of_not_leap {instant : Instant} (ordinary : instant.isLeap = false) :
    instant.isStray = false := by
  rw [isStray, ordinary, Bool.false_and]

@[simp] theorem isStray_truncated (instant : Instant) :
    instant.truncated.isStray = instant.isStray := by
  have sameLeap : instant.truncated.isLeap = instant.isLeap := by
    rw [isLeap, isLeap, decide_eq_decide]
    change 1000000000 ≤ instant.nanos / 1000000 * 1000000 ↔ _
    omega
  rw [isStray, isStray, sameLeap]
  rfl

/-- The year of an instant in universal time. -/
def year (instant : Instant) : Int :=
  (CivilDate.ofDays (instant.seconds / 86400)).year

theorem ofParts?_self {instant : Instant} (placed : instant.isStray = false) :
    ofParts? instant.seconds instant.nanos = some instant := by
  rw [isStray_eq_false_iff] at placed
  have within := instant.within
  rw [ofParts?, dif_pos instant.supported, dif_pos (by omega)]

theorem second_le (instant : Instant) :
    (instant.seconds % 86400).toNat % 60 + (if instant.isLeap then 1 else 0) ≤ 60 := by
  split <;> omega

/-- Second 60 is written inside a leap second, and only there. -/
theorem second_eq {instant : Instant} (placed : instant.isStray = false) :
    ((instant.seconds % 86400).toNat % 60 + (if instant.isLeap then 1 else 0) == 60) =
      instant.isLeap := by
  rw [isStray_eq_false_iff] at placed
  have second_lt : (instant.seconds % 86400).toNat % 60 < 60 := Nat.mod_lt _ (by decide)
  cases leap : instant.isLeap with
  | true =>
      simp only [isLeap, decide_eq_true_eq] at leap
      have last : (instant.seconds % 86400).toNat % 60 = 59 := by omega
      simp [last]
  | false =>
      simp only [Bool.false_eq_true, if_false, Nat.add_zero, beq_eq_false_iff_ne]
      omega

theorem ofIsoText?_isoText {instant : Instant} (notBefore : 0 ≤ instant.year)
    (notAfter : instant.year ≤ 9999) (placed : instant.isStray = false) :
    ofIsoText? instant.isoText = some instant.truncated := by
  have real := CivilDate.isReal_ofDays (instant.seconds / 86400)
  rw [year] at notBefore notAfter
  simp only [isoText, List.append_assoc, List.cons_append]
  rw [ofIsoText?, readDate_append real notBefore notAfter]
  simp only [Option.bind_eq_bind, Option.bind_some, BEq.rfl, Bool.true_or, if_true]
  rw [readTime_append (by omega) (by omega) instant.second_le]
  simp only [Option.bind_some]
  rw [readFraction_append (by omega) [] (by decide)]
  simp only [Option.bind_some, readOffset, BEq.rfl, Bool.true_or, if_true, List.isEmpty_nil]
  rw [CivilDate.toDays_ofDays, second_eq placed,
    ← ofParts?_self (instant.isStray_truncated.trans placed)]
  rw [isStray_eq_false_iff] at placed
  have within := instant.within
  cases leap : instant.isLeap with
  | true =>
      simp only [isLeap, decide_eq_true_eq] at leap
      apply congrArg₂ ofParts?
      · simp only [if_true, truncated]
        omega
      · simp only [if_true, truncated]
        omega
  | false =>
      simp only [isLeap, decide_eq_false_iff_not] at leap
      apply congrArg₂ ofParts?
      · simp only [Bool.false_eq_true, if_false, truncated]
        omega
      · simp only [Bool.false_eq_true, if_false, truncated]
        omega

/-- A text that begins with a sign is no text of the grammar. -/
theorem ofIsoText?_isoText_eq_none {instant : Instant}
    (outside : ¬ (0 ≤ instant.year ∧ instant.year ≤ 9999)) :
    ofIsoText? instant.isoText = none := by
  rw [year] at outside
  simp only [isoText, yearText, if_neg outside, List.cons_append, List.append_assoc]
  split <;> rfl

end Instant

end ItemTable
