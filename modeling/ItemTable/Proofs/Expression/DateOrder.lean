import ItemTable.Expression.Formula
import ItemTable.Proofs.Coercion.Stored
import ItemTable.Proofs.Instant.Stored
import ItemTable.Proofs.Instant.TextOrder
import ItemTable.Proofs.Where.Operators
import ItemTable.Schema.Normalize

/-!
# The order of stored dates

Stored texts are ordered by their bytes and stored numbers by what they denote.  Dates keep
their order when they are stored, as far as their years have four digits and their leap seconds
follow second 59 or, for numbers, they are no leap seconds.  So a comparison of a date property
with an operand finds what the same comparison of the dates would find.
-/

namespace ItemTable

namespace Text

/-- The bytes of a text in UTF-8. -/
def utf8 (text : String) : List UInt8 :=
  text.toUTF8.data.toList

theorem utf8_ofList {chars : List Char} (ascii : ∀ c ∈ chars, c.toNat < 128) :
    utf8 (String.ofList chars) = chars.map fun c => UInt8.ofNat c.toNat := by
  rw [utf8, String.toUTF8, String.toByteArray_ofList, List.utf8Encode, List.toList_data_toByteArray]
  induction chars with
  | nil => rfl
  | cons c chars induction =>
      rw [List.forall_mem_cons] at ascii
      have single : String.utf8EncodeChar c = [UInt8.ofNat c.toNat] := by
        rw [String.utf8EncodeChar]
        exact if_pos (Nat.le_of_lt_succ ascii.1)
      rw [List.flatMap_cons, single, List.map_cons, induction ascii.2]
      rfl

/-- Characters of one byte are ordered as their bytes. -/
theorem utf8_lt {left right : List Char} (asciiLeft : ∀ c ∈ left, c.toNat < 128)
    (asciiRight : ∀ c ∈ right, c.toNat < 128) (less : left < right) :
    utf8 (String.ofList left) < utf8 (String.ofList right) := by
  rw [utf8_ofList asciiLeft, utf8_ofList asciiRight]
  induction left generalizing right with
  | nil =>
      cases right with
      | nil => exact absurd less (List.lt_irrefl _)
      | cons c right => exact List.nil_lt_cons _ _
  | cons c left induction =>
      cases right with
      | nil => cases less
      | cons other right =>
          rw [List.forall_mem_cons] at asciiLeft asciiRight
          rw [List.map_cons, List.map_cons, List.cons_lt_cons_iff]
          rw [List.cons_lt_cons_iff] at less
          rcases less with first | ⟨rfl, rest⟩
          · have bytesLess : c.toNat < other.toNat := UInt32.lt_iff_toNat_lt.mp first
            refine Or.inl (UInt8.lt_iff_toNat_lt.mpr ?_)
            rw [UInt8.toNat_ofNat', UInt8.toNat_ofNat']
            omega
          · exact Or.inr ⟨rfl, induction asciiLeft.2 asciiRight.2 rest⟩

end Text

/-- What a comparison says of two things in an order. -/
def Comparison.accepts : Comparison → Ordering → Bool
  | .eq => Ordering.isEq
  | .ne => Ordering.isNe
  | .gt => Ordering.isGT
  | .gte => Ordering.isGE
  | .lt => Ordering.isLT
  | .lte => Ordering.isLE

/-- The order of stored values: of texts that of their bytes, of numbers that of what they
denote.  A text and a number are in no order. -/
def Value.storedOrder? : Value → Value → Option Ordering
  | .string left, .string right => some (compareOfLessAndEq (Text.utf8 left) (Text.utf8 right))
  | .number left, .number right =>
      if left.below right then some .lt
      else if right.below left then some .gt
      else if left.same right then some .eq
      else none
  | _, _ => none

/-- What a comparison says of a stored value and a stored operand. -/
def Comparison.judges (comparison : Comparison) (stored operand : Value) : Bool :=
  (stored.storedOrder? operand).any comparison.accepts

namespace Instant

variable {left right : Instant} {format : DateFormat}

/-- The order of instants. -/
def order (left right : Instant) : Ordering :=
  if left.before right then .lt else if right.before left then .gt else .eq

/-- Whether the stored form of an instant has its place among those of others: text needs a
year of four digits and no leap second after another second than 59, and a count needs to be
one of an ordinary second. -/
def keepsOrder (instant : Instant) : DateFormat → Bool
  | .iso => decide (0 ≤ instant.year ∧ instant.year ≤ 9999) && !instant.isStray
  | .number => !instant.isLeap

theorem order_of_before (before : left.before right = true) : left.order right = .lt := by
  rw [order, if_pos before]

theorem order_self (instant : Instant) : instant.order instant = .eq := by
  simp [order, not_before_self]

theorem order_of_after (after : right.before left = true) : left.order right = .gt := by
  simp [order, after, before_asymm after]

theorem utf8_isoText_lt (leftYear : 0 ≤ left.year ∧ left.year ≤ 9999)
    (rightYear : 0 ≤ right.year ∧ right.year ≤ 9999) (placed : left.isStray = false)
    (before : left.truncated.before right.truncated = true) :
    Text.utf8 (String.ofList left.isoText) < Text.utf8 (String.ofList right.isoText) :=
  Text.utf8_lt (isAscii_isoText leftYear) (isAscii_isoText rightYear)
    (isoText_lt leftYear rightYear placed before)

theorem isoText_order (leftYear : 0 ≤ left.year ∧ left.year ≤ 9999)
    (rightYear : 0 ≤ right.year ∧ right.year ≤ 9999) (leftPlaced : left.isStray = false)
    (rightPlaced : right.isStray = false) :
    compareOfLessAndEq (Text.utf8 (String.ofList left.isoText))
        (Text.utf8 (String.ofList right.isoText)) =
      left.truncated.order right.truncated := by
  rw [compareOfLessAndEq]
  rcases truncated_before_trichotomy left right with before | same | after
  · rw [if_pos (utf8_isoText_lt leftYear rightYear leftPlaced before), order_of_before before]
  · rw [same, order_self, isoText_congr same, if_neg (List.lt_irrefl _), if_pos rfl]
  · have less := utf8_isoText_lt rightYear leftYear rightPlaced after
    rw [order_of_after after, if_neg (List.lt_asymm less), if_neg]
    intro same
    rw [same] at less
    exact List.lt_irrefl _ less

theorem order_eq_lt_iff : left.order right = .lt ↔ left.before right = true := by
  rw [order]
  split
  · next before => exact iff_of_true rfl before
  · next notBefore => exact iff_of_false (by split <;> simp) notBefore

theorem utf8_isoText_lt_iff (leftYear : 0 ≤ left.year ∧ left.year ≤ 9999)
    (rightYear : 0 ≤ right.year ∧ right.year ≤ 9999) (leftPlaced : left.isStray = false)
    (rightPlaced : right.isStray = false) :
    left.truncated.before right.truncated = true ↔
      Text.utf8 (String.ofList left.isoText) < Text.utf8 (String.ofList right.isoText) := by
  rw [← order_eq_lt_iff, ← isoText_order leftYear rightYear leftPlaced rightPlaced,
    compareOfLessAndEq_eq_lt]

theorem toMillis_lt_iff (leftOrdinary : left.isLeap = false)
    (rightOrdinary : right.isLeap = false) :
    left.toMillis < right.toMillis ↔ left.truncated.before right.truncated = true := by
  simp only [isLeap, decide_eq_false_iff_not] at leftOrdinary rightOrdinary
  rw [truncated_before_iff, toMillis, toMillis]
  omega

theorem ofInt_below_iff (leftOrdinary : left.isLeap = false)
    (rightOrdinary : right.isLeap = false) :
    (Number.ofInt left.toMillis).below (Number.ofInt right.toMillis) =
      left.truncated.before right.truncated := by
  rw [Bool.eq_iff_iff, left.denotes_toMillis.below_iff right.denotes_toMillis,
    toMillis_lt_iff leftOrdinary rightOrdinary]

theorem toStored_order (leftKeeps : left.keepsOrder format = true)
    (rightKeeps : right.keepsOrder format = true) :
    (left.toStored format).storedOrder? (right.toStored format) =
      some (left.truncated.order right.truncated) := by
  cases format with
  | iso =>
      rw [keepsOrder, Bool.and_eq_true, decide_eq_true_eq, Bool.not_eq_true'] at leftKeeps rightKeeps
      exact congrArg some (isoText_order leftKeeps.1 rightKeeps.1 leftKeeps.2 rightKeeps.2)
  | number =>
      rw [keepsOrder, Bool.not_eq_true'] at leftKeeps rightKeeps
      rw [toStored, toStored, Value.storedOrder?, ofInt_below_iff leftKeeps rightKeeps,
        ofInt_below_iff rightKeeps leftKeeps]
      rcases truncated_before_trichotomy left right with before | same | after
      · rw [if_pos before, order_of_before before]
      · have sameMillis : left.toMillis = right.toMillis := by
          have sameSecond := congrArg Instant.seconds same
          have sameNanos := congrArg Instant.nanos same
          simp only [truncated] at sameSecond sameNanos
          rw [toMillis, toMillis]
          omega
        have sameNumber := (left.denotes_toMillis.same_iff right.denotes_toMillis).mpr sameMillis
        rw [same, not_before_self, order_self, sameNumber]
        rfl
      · rw [before_asymm after, after, order_of_after after]
        rfl

end Instant

namespace PropertyTraits

variable {traits : PropertyTraits} {value : Value} {instant : Instant}

/-- The code of the user takes a value to a date; without such code, the value is the date. -/
def Dates (traits : PropertyTraits) (value : Value) (instant : Instant) : Prop :=
  value.isNull = false ∧ transform .set traits.set value = .ok (.date instant)

theorem Dates.of_unset (unset : traits.set = none) (instant : Instant) :
    traits.Dates (.date instant) instant := by
  rw [Dates, unset]
  exact ⟨rfl, rfl⟩

theorem Dates.store (dates : traits.Dates value instant) (isDate : traits.type = .date) :
    traits.store value = .ok (instant.toStored traits.format) := by
  obtain ⟨notNull, transformed⟩ := dates
  rw [PropertyTraits.store, notNull, transformed, isDate]
  rfl

end PropertyTraits

/-- Whether a value may be an operand of a comparison. -/
def Value.isOperand : Value → Bool
  | .string _ | .number _ | .bool _ | .date _ => true
  | _ => false

namespace Property

variable {property : Property} {operand : Value} {instant : Instant}

theorem storeOperand_of_dates (name : String) (dates : property.Dates operand instant)
    (isDate : property.type = .date) (isOperand : operand.isOperand = true) :
    property.storeOperand name operand = .ok (instant.toStored property.format) := by
  have stores := dates.store isDate
  cases operand with
  | string _ | number _ | bool _ | date _ =>
      simp only [storeOperand]
      rw [stores]
      rfl
  | _ => cases isOperand

end Property

namespace Formula

variable {schema : Schema} {property : Property} {name : String} {operand stored : Value}
variable {operator : Operator} {comparison : Comparison}

theorem ofCondition_single (found : schema.get? name = some property)
    (compares : operator.comparison? = some comparison)
    (stores : property.storeOperand name operand = .ok stored) :
    ofCondition schema name (.operators [(operator, operand)]) =
      .ok (.leaf name (.compare comparison stored)) :=
  (ofCondition_single_eq_ok_iff compares).mpr ⟨property, stored, found, stores, rfl⟩

theorem ofKeyClause_single (found : schema.get? name = some property)
    (compares : operator.comparison? = some comparison) (supported : comparison ≠ .ne)
    (stores : property.storeOperand name operand = .ok stored) :
    ofKeyClause schema (.condition name (.operators [(operator, operand)])) =
      .ok (.leaf name (.compare comparison stored)) := by
  have compared : keyComparison name (.operators [(operator, operand)]) =
      .ok (comparison, operand) := by
    cases operator <;> cases compares <;> first | rfl | exact absurd rfl supported
  simp only [ofKeyClause, found, bind_eq_ok_iff]
  exact ⟨_, compared, stored, stores, rfl⟩

end Formula

/-- Dates keep their order when they are stored: in texts of years with four digits whose leap
seconds follow second 59, in counts outside leap seconds, and so in every comparison of a stored
date with an operand. -/
theorem stored_dates_keep_order (left right : Instant) :
    (∃ leftText rightText,
      PropertyTraits.storeDate .iso (.date left) = .ok (.string leftText) ∧
      PropertyTraits.storeDate .iso (.date right) = .ok (.string rightText) ∧
      (0 ≤ left.year ∧ left.year ≤ 9999 → 0 ≤ right.year ∧ right.year ≤ 9999 →
        left.isStray = false → right.isStray = false →
        (left.truncated.before right.truncated = true ↔
          Text.utf8 leftText < Text.utf8 rightText))) ∧
    (∃ leftCount rightCount,
      PropertyTraits.storeDate .number (.date left) = .ok (.number leftCount) ∧
      PropertyTraits.storeDate .number (.date right) = .ok (.number rightCount) ∧
      leftCount.Denotes left.toMillis ∧ rightCount.Denotes right.toMillis ∧
      (left.isLeap = false → right.isLeap = false →
        (left.truncated.before right.truncated = true ↔ leftCount.below rightCount = true))) ∧
    ∀ (schema : Schema) (name : String) (property : Property) (value operand : Value),
      schema.get? name = some property → property.type = .date →
      left.keepsOrder property.format = true → right.keepsOrder property.format = true →
      property.Dates value left → property.Dates operand right → operand.isOperand = true →
        ∃ stored storedOperand, property.store value = .ok stored ∧
          property.storeOperand name operand = .ok storedOperand ∧
          ∀ operator comparison, operator.comparison? = some comparison →
            Formula.ofCondition schema name (.operators [(operator, operand)]) =
              .ok (.leaf name (.compare comparison storedOperand)) ∧
            (comparison ≠ .ne →
              Formula.ofKeyClause schema (.condition name (.operators [(operator, operand)])) =
                .ok (.leaf name (.compare comparison storedOperand))) ∧
            comparison.judges stored storedOperand =
              comparison.accepts (left.truncated.order right.truncated) := by
  refine ⟨⟨_, _, rfl, rfl, ?_⟩, ⟨_, _, rfl, rfl, left.denotes_toMillis, right.denotes_toMillis, ?_⟩,
    ?_⟩
  · intro leftYear rightYear leftPlaced rightPlaced
    exact Instant.utf8_isoText_lt_iff leftYear rightYear leftPlaced rightPlaced
  · intro leftOrdinary rightOrdinary
    rw [Instant.ofInt_below_iff leftOrdinary rightOrdinary]
  · intro schema name property value operand found isDate leftKeeps rightKeeps dates operandDates
      isOperand
    have stores := Property.storeOperand_of_dates name operandDates isDate isOperand
    refine ⟨_, _, dates.store isDate, stores, ?_⟩
    intro operator comparison compares
    refine ⟨Formula.ofCondition_single found compares stores,
      fun supported => Formula.ofKeyClause_single found compares supported stores, ?_⟩
    rw [Comparison.judges, Instant.toStored_order leftKeeps rightKeeps]
    rfl

/-- Events have a time as text and a time as a count. -/
def eventDeclarations : Declarations :=
  [("id", { type := "string", required := true }),
    ("at", { type := "date" }),
    ("count", { type := "date", format := some .number })]

def eventSchema : Schema :=
  (Schema.ofDeclarations eventDeclarations).toOption.getD []

/-- A leap second at the end of June, and a time in the first second of July. -/
def endOfJune : Instant := ⟨78796799, 1250000000, by decide, by decide⟩

def startOfJuly : Instant := ⟨78796800, 125000000, by decide, by decide⟩

/-- Two times before the epoch, in different days. -/
def dayBefore : Instant := ⟨-86461, 750000000, by decide, by decide⟩

def dayAfter : Instant := ⟨-86400, 5000000, by decide, by decide⟩

theorem stored_dates_keep_order_of_events :
    Schema.ofDeclarations eventDeclarations = .ok eventSchema ∧
      Text.utf8 "1972-06-30T23:59:60.250Z" < Text.utf8 "1972-07-01T00:00:00.125Z" ∧
      (∃ operand,
        Formula.ofKeyClause eventSchema
            (.condition "at" (.operators [(.lt, .date startOfJuly)])) =
          .ok (.leaf "at" (.compare .lt operand)) ∧
        Comparison.lt.judges (.string "1972-06-30T23:59:60.250Z") operand = true) ∧
      ∃ operand,
        Formula.ofKeyClause eventSchema
            (.condition "count" (.operators [(.gte, .date dayBefore)])) =
          .ok (.leaf "count" (.compare .gte operand)) ∧
        Comparison.gte.judges (.number (.ofInt (-86399995))) operand = true := by
  have foundTime : eventSchema.get? "at" = some _ := rfl
  have foundCount : eventSchema.get? "count" = some _ := rfl
  refine ⟨rfl, ?_, ?_, ?_⟩
  · obtain ⟨⟨first, second, stored, storedLater, ordered⟩, -, -⟩ :=
      stored_dates_keep_order endOfJune startOfJuly
    cases stored
    cases storedLater
    exact (ordered (by decide) (by decide) (by decide) (by decide)).mp (by decide)
  · obtain ⟨-, -, compares⟩ := stored_dates_keep_order endOfJune startOfJuly
    obtain ⟨stored, operand, stores, -, judged⟩ := compares _ "at" _ _ _ foundTime rfl (by decide)
      (by decide) (.of_unset rfl _) (.of_unset rfl _) rfl
    cases stores
    obtain ⟨-, compiled, accepts⟩ := judged .lt .lt rfl
    exact ⟨operand, compiled (by decide), accepts⟩
  · obtain ⟨-, -, compares⟩ := stored_dates_keep_order dayAfter dayBefore
    obtain ⟨stored, operand, stores, -, judged⟩ := compares _ "count" _ _ _ foundCount rfl
      (by decide) (by decide) (.of_unset rfl _) (.of_unset rfl _) rfl
    cases stores
    obtain ⟨-, compiled, accepts⟩ := judged .gte .gte rfl
    exact ⟨operand, compiled (by decide), accepts⟩

/-- A leap second after second 5 of a minute, and a time in the next second. -/
def strayLeap : Instant := ⟨45245, 1600000000, by decide, by decide⟩

def nextSecond : Instant := ⟨45246, 200000000, by decide, by decide⟩

/-- Holidays have a day, for which code of the user stores the first of January. -/
def holidayDeclarations : Declarations :=
  [("day", {
    type := "date"
    set := some fun _ => .ok (.date (.startOf 946684800 (by decide))) })]

/-- Texts lose the order of a leap second that does not follow second 59, and stored dates lose
an order that code of the user does not keep. -/
theorem stored_dates_lose_order :
    (strayLeap.truncated = strayLeap ∧ nextSecond.truncated = nextSecond ∧
      strayLeap.before nextSecond = true ∧
      PropertyTraits.storeDate .iso (.date strayLeap) =
        .ok (.string "1970-01-01T12:34:06.600Z") ∧
      PropertyTraits.storeDate .iso (.date nextSecond) =
        .ok (.string "1970-01-01T12:34:06.200Z") ∧
      Text.utf8 "1970-01-01T12:34:06.200Z" < Text.utf8 "1970-01-01T12:34:06.600Z") ∧
    ∃ schema property stored operand, Schema.ofDeclarations holidayDeclarations = .ok schema ∧
      schema.get? "day" = some property ∧ property.type = .date ∧
      dayBefore.truncated.before dayAfter.truncated = true ∧
      property.store (.date dayBefore) = .ok stored ∧
      property.storeOperand "day" (.date dayAfter) = .ok operand ∧
      Comparison.lt.judges stored operand = false := by
  refine ⟨⟨by decide, by decide, by decide, rfl, rfl, by decide⟩,
    _, _, _, _, rfl, rfl, rfl, by decide, rfl, rfl, ?_⟩
  decide

end ItemTable
