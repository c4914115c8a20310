import ItemTable.Proofs.Instant.CalendarOrder
import ItemTable.Proofs.Instant.Iso

/-!
# The grammar of date texts

The texts that are read as instants are those of RFC 3339.  As in its notes, a space may
stand between date and time, and letters may be small; second 60 may end any minute, and
the sign of an offset may be the character U+2212 for a minus.

Each part of the grammar says what it denotes and how it is written, and the reader of the
part takes off a text exactly what the part may be written as.
-/

namespace ItemTable.Instant

variable {text rest : List Char} {date : CivilDate}
variable {width count value start hour minute second nanos : Nat} {offset : Int}

/-- A number written with so many decimal digits. -/
structure Numeral (width value : Nat) (text : List Char) : Prop where
  length_eq : text.length = width
  digits : ∀ c ∈ text, c.isDigit = true
  denotes : Nat.ofDigitChars 10 text 0 = value

/-- A date of the calendar, with four digits for the year. -/
inductive DateText : CivilDate → List Char → Prop
  | intro {year month day : Nat} {yearText monthText dayText : List Char}
      (yearWritten : Numeral 4 year yearText) (monthWritten : Numeral 2 month monthText)
      (dayWritten : Numeral 2 day dayText)
      (real : CivilDate.isReal { year, month, day } = true) :
      DateText { year, month, day } (yearText ++ '-' :: (monthText ++ '-' :: dayText))

/-- A time of day up to second 60. -/
inductive TimeText : Nat → Nat → Nat → List Char → Prop
  | intro {hour minute second : Nat} {hourText minuteText secondText : List Char}
      (hourWritten : Numeral 2 hour hourText) (minuteWritten : Numeral 2 minute minuteText)
      (secondWritten : Numeral 2 second secondText) (isHour : hour < 24)
      (isMinute : minute < 60) (isSecond : second ≤ 60) :
      TimeText hour minute second (hourText ++ ':' :: (minuteText ++ ':' :: secondText))

/-- A fraction of a second, which may be left out. -/
inductive FractionText : Nat → List Char → Prop
  | none : FractionText 0 []
  | digits {digits : List Char} (nonempty : digits ≠ [])
      (allDigits : ∀ c ∈ digits, c.isDigit = true) :
      FractionText (fractionNanos digits) ('.' :: digits)

/-- An offset from universal time in hours and minutes, or a letter for none. -/
inductive OffsetText : Int → List Char → Prop
  | universal {mark : Char} (isMark : mark ∈ ['Z', 'z']) : OffsetText 0 [mark]
  | shifted {sign : Char} {hour minute : Nat} {hourText minuteText : List Char}
      (isSign : sign ∈ ['+', '-', '\u2212']) (hourWritten : Numeral 2 hour hourText)
      (minuteWritten : Numeral 2 minute minuteText) (isHour : hour < 24)
      (isMinute : minute < 60) :
      OffsetText (if sign = '+' then (hour * 3600 + minute * 60 : Nat)
        else -(hour * 3600 + minute * 60 : Nat)) (sign :: (hourText ++ ':' :: minuteText))

/-- The texts of RFC 3339. -/
inductive IsRfc3339 : List Char → Prop
  | intro {date : CivilDate} {hour minute second nanos : Nat} {offset : Int} {separator : Char}
      {dateText timeText fractionText offsetText : List Char}
      (dateWritten : DateText date dateText) (isSeparator : separator ∈ ['T', 't', ' '])
      (timeWritten : TimeText hour minute second timeText)
      (fractionWritten : FractionText nanos fractionText)
      (offsetWritten : OffsetText offset offsetText) :
      IsRfc3339 (dateText ++ separator :: (timeText ++ (fractionText ++ offsetText)))

/-! ## Numbers -/

theorem ofDigitChars_lt (digits : ∀ c ∈ text, c.isDigit = true) (start : Nat) :
    Nat.ofDigitChars 10 text start < (start + 1) * 10 ^ text.length := by
  induction text generalizing start with
  | nil => simp
  | cons c text induction =>
      obtain ⟨isDigit, later⟩ := List.forall_mem_cons.mp digits
      rw [Char.isDigit, Bool.and_eq_true, decide_eq_true_eq, decide_eq_true_eq] at isDigit
      have atMost : c.toNat ≤ 57 := UInt32.le_iff_toNat_le.mp isDigit.2
      have zero : '0'.toNat = 48 := rfl
      have step := induction later (10 * start + (c.toNat - '0'.toNat))
      rw [Nat.ofDigitChars_cons, List.length_cons, Nat.pow_succ']
      calc _ < _ := step
        _ ≤ (start + 1) * 10 * 10 ^ text.length := Nat.mul_le_mul_right _ (by omega)
        _ = _ := Nat.mul_assoc _ _ _

theorem Numeral.lt (numeral : Numeral width value text) : value < 10 ^ width := by
  have bound := ofDigitChars_lt numeral.digits 0
  rwa [numeral.denotes, numeral.length_eq, Nat.zero_add, Nat.one_mul] at bound

theorem isDigit_of_digit? {c : Char} {digit : Nat} (isDigit : digit? c = some digit) :
    c.isDigit = true := by
  rw [digit?] at isDigit
  split at isDigit
  · next bounds =>
      rw [Char.isDigit, Bool.and_eq_true, decide_eq_true_eq, decide_eq_true_eq]
      exact bounds
  · cases isDigit

theorem exists_of_readDigits (read : readDigits count start text = some (value, rest)) :
    ∃ written, written.length = count ∧ (∀ c ∈ written, c.isDigit = true) ∧
      text = written ++ rest := by
  induction count generalizing start text with
  | zero =>
      cases read
      exact ⟨[], rfl, by simp, rfl⟩
  | succ count induction =>
      cases text with
      | nil => cases read
      | cons c text =>
          rw [readDigits] at read
          split at read
          · next isDigit =>
              obtain ⟨written, length, digits, rfl⟩ := induction read
              exact ⟨c :: written, congrArg (· + 1) length,
                List.forall_mem_cons.mpr ⟨isDigit_of_digit? isDigit, digits⟩, rfl⟩
          · cases read

theorem readDigits_eq_some_iff :
    readDigits width 0 text = some (value, rest) ↔
      ∃ written, Numeral width value written ∧ text = written ++ rest := by
  constructor
  · intro read
    obtain ⟨written, rfl, digits, rfl⟩ := exists_of_readDigits read
    rw [readDigits_append digits, Option.some.injEq, Prod.mk.injEq] at read
    exact ⟨written, ⟨rfl, digits, read.1⟩, rfl⟩
  · rintro ⟨written, ⟨rfl, digits, rfl⟩, rfl⟩
    exact readDigits_append digits 0 rest

theorem readMark_eq_some_iff {mark : Char} :
    readMark mark text = some rest ↔ text = mark :: rest := by
  cases text with
  | nil => simp [readMark]
  | cons c text => simp [readMark]

/-! ## Dates, times and offsets -/

theorem readDate_eq_some_iff :
    readDate text = some (date, rest) ↔
      ∃ written, DateText date written ∧ text = written ++ rest := by
  simp only [readDate, Option.bind_eq_bind, Option.bind_eq_some_iff, Prod.exists,
    readDigits_eq_some_iff, readMark_eq_some_iff, Option.ite_none_right_eq_some,
    Option.some.injEq, Prod.mk.injEq]
  constructor
  · rintro ⟨year, _, ⟨yearText, yearWritten, rfl⟩, _, rfl, month, _,
      ⟨monthText, monthWritten, rfl⟩, _, rfl, day, _, ⟨dayText, dayWritten, rfl⟩, real, rfl, rfl⟩
    exact ⟨_, .intro yearWritten monthWritten dayWritten real, by simp⟩
  · rintro ⟨_, ⟨yearWritten, monthWritten, dayWritten, real⟩, rfl⟩
    exact ⟨_, _, ⟨_, yearWritten, List.append_assoc _ _ _⟩, _, rfl, _, _,
      ⟨_, monthWritten, List.append_assoc _ _ _⟩, _, rfl, _, _, ⟨_, dayWritten, rfl⟩,
      real, rfl, rfl⟩

theorem readTime_eq_some_iff :
    readTime text = some ((hour, minute, second), rest) ↔
      ∃ written, TimeText hour minute second written ∧ text = written ++ rest := by
  simp only [readTime, Option.bind_eq_bind, Option.bind_eq_some_iff, Prod.exists,
    readDigits_eq_some_iff, readMark_eq_some_iff, Option.ite_none_right_eq_some,
    Option.some.injEq, Prod.mk.injEq]
  constructor
  · rintro ⟨_, _, ⟨hourText, hourWritten, rfl⟩, _, rfl, _, _, ⟨minuteText, minuteWritten, rfl⟩,
      _, rfl, _, _, ⟨secondText, secondWritten, rfl⟩, ⟨isHour, isMinute, isSecond⟩,
      ⟨rfl, rfl, rfl⟩, rfl⟩
    exact ⟨_, .intro hourWritten minuteWritten secondWritten isHour isMinute isSecond, by simp⟩
  · rintro ⟨_, ⟨hourWritten, minuteWritten, secondWritten, isHour, isMinute, isSecond⟩, rfl⟩
    exact ⟨_, _, ⟨_, hourWritten, List.append_assoc _ _ _⟩, _, rfl, _, _,
      ⟨_, minuteWritten, List.append_assoc _ _ _⟩, _, rfl, _, _, ⟨_, secondWritten, rfl⟩,
      ⟨isHour, isMinute, isSecond⟩, ⟨rfl, rfl, rfl⟩, rfl⟩

theorem isSign_iff {c : Char} :
    (c == '+' || c == '-' || c.toNat == 0x2212) = true ↔ c ∈ ['+', '-', '\u2212'] := by
  have minus : c.toNat = 0x2212 ↔ c = '\u2212' := by
    rw [← Char.toNat_inj]
    rfl
  simp [minus, or_assoc]

theorem readOffset_eq_some_iff :
    readOffset text = some (offset, rest) ↔
      ∃ written, OffsetText offset written ∧ text = written ++ rest := by
  constructor
  · intro read
    cases text with
    | nil => cases read
    | cons c text =>
        rw [readOffset] at read
        split at read
        · next isMark =>
            cases read
            exact ⟨[c], .universal (by simpa using isMark), rfl⟩
        · split at read
          · next isSign =>
              simp only [Option.bind_eq_bind, Option.bind_eq_some_iff, Prod.exists,
                readDigits_eq_some_iff, readMark_eq_some_iff, Option.ite_none_right_eq_some,
                Option.some.injEq, Prod.mk.injEq, beq_iff_eq] at read
              obtain ⟨hour, _, ⟨hourText, hourWritten, rfl⟩, _, rfl, minute, _,
                ⟨minuteText, minuteWritten, rfl⟩, ⟨isHour, isMinute⟩, rfl, rfl⟩ := read
              exact ⟨_, .shifted (isSign_iff.mp isSign) hourWritten minuteWritten isHour isMinute,
                by simp⟩
          · cases read
  · rintro ⟨_, written, rfl⟩
    cases written with
    | @universal mark isMark =>
        have known : (mark == 'Z' || mark == 'z') = true := by simpa using isMark
        rw [List.cons_append, readOffset, if_pos known]
        rfl
    | @shifted sign hour minute hourText minuteText isSign hourWritten minuteWritten isHour
        isMinute =>
        have noMarks : ∀ sign ∈ ['+', '-', '\u2212'], (sign == 'Z' || sign == 'z') = false := by
          simp
        have notMark := noMarks sign isSign
        rw [List.cons_append, readOffset, notMark, if_neg Bool.false_ne_true,
          if_pos (isSign_iff.mpr isSign)]
        simp only [Option.bind_eq_bind, Option.bind_eq_some_iff, Prod.exists,
          readDigits_eq_some_iff, readMark_eq_some_iff, Option.ite_none_right_eq_some,
          Option.some.injEq, Prod.mk.injEq, beq_iff_eq]
        exact ⟨_, _, ⟨_, hourWritten, List.append_assoc _ _ _⟩, _, rfl, _, _,
          ⟨_, minuteWritten, rfl⟩, ⟨isHour, isMinute⟩, rfl, rfl⟩

/-! ## Fractions -/

/-- An offset begins with none of the characters of a fraction. -/
theorem OffsetText.exists_head (written : OffsetText offset text) :
    ∃ mark rest, text = mark :: rest ∧ mark ≠ '.' ∧ mark.isDigit = false := by
  have marks : ∀ mark ∈ ['Z', 'z'], mark ≠ '.' ∧ mark.isDigit = false := by
    simp
  have signs : ∀ sign ∈ ['+', '-', '\u2212'], sign ≠ '.' ∧ sign.isDigit = false := by
    simp
  cases written with
  | universal isMark => exact ⟨_, _, rfl, marks _ isMark⟩
  | shifted isSign => exact ⟨_, _, rfl, signs _ isSign⟩

theorem exists_of_readFraction (read : readFraction text = some (nanos, rest)) :
    ∃ written, FractionText nanos written ∧ text = written ++ rest := by
  unfold readFraction at read
  split at read
  · next tail =>
      dsimp only at read
      split at read
      · cases read
      · next nonempty =>
          cases read
          refine ⟨_, .digits (by simpa using nonempty) ?_, ?_⟩
          · intro c member
            exact List.all_eq_true.mp List.all_takeWhile c member
          · rw [List.cons_append, List.takeWhile_append_dropWhile]
  · cases read
    exact ⟨[], .none, rfl⟩

theorem readFraction_of_fractionText (written : FractionText nanos text)
    (ends : OffsetText offset rest) : readFraction (text ++ rest) = some (nanos, rest) := by
  obtain ⟨mark, rest, rfl, notPoint, notDigit⟩ := ends.exists_head
  cases written with
  | none =>
      rw [List.nil_append, readFraction]
      rintro _ ⟨⟩
      exact notPoint rfl
  | digits nonempty allDigits =>
      rw [List.cons_append, readFraction, List.takeWhile_append_of_pos allDigits,
        List.dropWhile_append_of_pos allDigits]
      simp [notDigit, nonempty]

/-! ## Whole texts -/

theorem FractionText.nanos_lt (written : FractionText nanos text) : nanos < 1000000000 := by
  cases written with
  | none => decide
  | @digits digits nonempty allDigits =>
      have counted : ∀ c ∈ digits.take 9, c.isDigit = true :=
        fun c member => allDigits c (List.mem_of_mem_take member)
      have length_le : (digits.take 9).length ≤ 9 := List.length_take_le 9 digits
      have truncates : fractionNanos digits = fractionNanos (digits.take 9) := by
        rw [fractionNanos, fractionNanos, List.take_take, Nat.min_self]
      have bound := ofDigitChars_lt counted 0
      rw [Nat.zero_add, Nat.one_mul] at bound
      rw [truncates, fractionNanos_eq length_le]
      calc _ < 10 ^ (digits.take 9).length * 10 ^ (9 - (digits.take 9).length) :=
            Nat.mul_lt_mul_of_pos_right bound (Nat.pow_pos (by decide))
        _ = 10 ^ 9 := by rw [← Nat.pow_add, Nat.add_sub_cancel' length_le]

/-- The days of the years with four digits. -/
theorem DateText.toDays_bounds (written : DateText date text) :
    -719528 ≤ date.toDays ∧ date.toDays < 2932897 := by
  cases written with
  | @intro year month day yearText monthText dayText yearWritten _ _ real =>
      have year_lt := yearWritten.lt
      apply CivilDate.toDays_bounds real
      · exact Int.natCast_nonneg year
      · change (year : Int) ≤ 9999
        omega

theorem OffsetText.bounds (written : OffsetText offset text) :
    -86400 < offset ∧ offset < 86400 ∧ offset % 60 = 0 := by
  cases written with
  | universal _ => decide
  | shifted _ _ _ isHour isMinute => split <;> omega

theorem exists_ofParts? {seconds : Int}
    (supported : -8334601228800 ≤ seconds ∧ seconds ≤ 8210266876799)
    (within : nanos < 1000000000 ∨ nanos < 2000000000 ∧ seconds % 60 = 59) :
    ∃ instant, ofParts? seconds nanos = some instant := by
  rw [ofParts?, dif_pos supported, dif_pos within]
  exact ⟨_, rfl⟩

/-- The instants of dates with four digits for the year are supported, at every offset. -/
theorem exists_ofParts?_of_texts {dateText timeText fractionText offsetText : List Char}
    (dateWritten : DateText date dateText) (timeWritten : TimeText hour minute second timeText)
    (fractionWritten : FractionText nanos fractionText)
    (offsetWritten : OffsetText offset offsetText) :
    ∃ instant, ofParts?
      (date.toDays * 86400 +
        (hour * 3600 + minute * 60 + (if second == 60 then 59 else second) : Nat) - offset)
      (if second == 60 then nanos + 1000000000 else nanos) = some instant := by
  obtain ⟨days_ge, days_lt⟩ := dateWritten.toDays_bounds
  obtain ⟨offset_gt, offset_lt, wholeMinutes⟩ := offsetWritten.bounds
  have nanos_lt := fractionWritten.nanos_lt
  obtain ⟨-, -, -, isHour, isMinute, isSecond⟩ := timeWritten
  by_cases leap : second = 60
  · simp only [leap, BEq.rfl, if_true]
    apply exists_ofParts? <;> omega
  · simp only [beq_iff_eq, leap, if_false]
    apply exists_ofParts? <;> omega

/-- Reads what follows the separator behind a date. -/
def readClock (date : CivilDate) (text : List Char) : Option Instant := do
  let ((hour, minute, second), text) ← readTime text
  let (nanos, text) ← readFraction text
  let (offset, text) ← readOffset text
  if text.isEmpty then
    let leap := second == 60
    let inDay : Int := (hour * 3600 + minute * 60 + (if leap then 59 else second) : Nat)
    ofParts? (date.toDays * 86400 + inDay - offset) (if leap then nanos + 1000000000 else nanos)
  else none

theorem ofIsoText?_eq_some_iff {instant : Instant} :
    ofIsoText? text = some instant ↔
      ∃ date separator clock, readDate text = some (date, separator :: clock) ∧
        separator ∈ ['T', 't', ' '] ∧ readClock date clock = some instant := by
  have marks : ∀ c : Char, (c == 'T' || c == 't' || c == ' ') = true ↔ c ∈ ['T', 't', ' '] := by
    simp [or_assoc]
  rw [ofIsoText?, Option.bind_eq_bind, Option.bind_eq_some_iff]
  constructor
  · rintro ⟨⟨date, _ | ⟨separator, clock⟩⟩, readsDate, readsRest⟩
    · cases readsRest
    · by_cases isSeparator : separator ∈ ['T', 't', ' ']
      · simp only [if_pos ((marks separator).mpr isSeparator)] at readsRest
        exact ⟨date, separator, clock, readsDate, isSeparator, readsRest⟩
      · simp only [if_neg (mt (marks separator).mp isSeparator)] at readsRest
        cases readsRest
  · rintro ⟨date, separator, clock, readsDate, isSeparator, readsRest⟩
    refine ⟨(date, separator :: clock), readsDate, ?_⟩
    simp only [if_pos ((marks separator).mpr isSeparator)]
    exact readsRest

/-- The texts that are read as instants are those of RFC 3339. -/
theorem exists_ofIsoText?_iff :
    (∃ instant, ofIsoText? text = some instant) ↔ IsRfc3339 text := by
  simp only [ofIsoText?_eq_some_iff, readClock, Option.bind_eq_bind, Option.bind_eq_some_iff,
    Prod.exists, readDate_eq_some_iff, readTime_eq_some_iff, readOffset_eq_some_iff,
    Option.ite_none_right_eq_some, List.isEmpty_iff]
  constructor
  · rintro ⟨instant, date, separator, _, ⟨dateText, dateWritten, rfl⟩, isSeparator, hour, minute,
      second, _, ⟨timeText, timeWritten, rfl⟩, nanos, _, fractionRead, offset, _,
      ⟨offsetText, offsetWritten, rfl⟩, rfl, -⟩
    obtain ⟨fractionText, fractionWritten, rfl⟩ := exists_of_readFraction fractionRead
    rw [List.append_nil]
    exact .intro dateWritten isSeparator timeWritten fractionWritten offsetWritten
  · rintro ⟨dateWritten, isSeparator, timeWritten, fractionWritten, offsetWritten⟩
    obtain ⟨instant, made⟩ :=
      exists_ofParts?_of_texts dateWritten timeWritten fractionWritten offsetWritten
    exact ⟨instant, _, _, _, ⟨_, dateWritten, rfl⟩, isSeparator, _, _, _, _,
      ⟨_, timeWritten, rfl⟩, _, _, readFraction_of_fractionText fractionWritten offsetWritten,
      _, _, ⟨_, offsetWritten, (List.append_nil _).symm⟩, rfl, made⟩

end ItemTable.Instant
