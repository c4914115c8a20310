import ItemTable.Proofs.Coercion.Reading
import ItemTable.Proofs.Instant.Grammar
import ItemTable.Proofs.Number
import ItemTable.Proofs.Schema.Places
import ItemTable.Value.Text

/-!
# Dates that cannot be read

What can be read as a date is said by a predicate on values that mentions no reader.
Without transforms, a read fails just on dates that cannot be read: it reports the places
of a document in order, each by itself, up to the first such date.
-/

namespace ItemTable

/-- The counts of milliseconds of the first and the last supported instant. -/
def Instant.firstMillis : Int := -8334601228800000

def Instant.lastMillis : Int := 8210266876799999

/-- The values that are read where a date is declared: null, dates, finite counts of milliseconds
in the supported range, and texts of RFC 3339. -/
inductive Value.ReadsAsDate : Value → Prop
  | null : ReadsAsDate .null
  | date (instant : Instant) : ReadsAsDate (.date instant)
  | count {scaled : Scaled}
      (supported : scaled.IsBetween Instant.firstMillis Instant.lastMillis) :
      ReadsAsDate (.number (.finite scaled))
  | text {text : String} (written : Instant.IsRfc3339 text.toList) : ReadsAsDate (.string text)

theorem Instant.exists_ofMillis?_iff {millis : Int} :
    (∃ instant, ofMillis? millis = some instant) ↔ firstMillis ≤ millis ∧ millis ≤ lastMillis := by
  rw [ofMillis?, firstMillis, lastMillis]
  constructor
  · rintro ⟨instant, made⟩
    rw [ofParts?] at made
    split at made
    · next supported => omega
    · cases made
  · intro bounds
    exact exists_ofParts? (by omega) (Or.inl (by omega))

namespace Value

variable {value : Value}

/-- Truncation does not matter, since the counts around the ends of the range are integers. -/
theorem exists_toInstant?_number_iff {number : Number} :
    (∃ instant, (Value.number number).toInstant? = some instant) ↔
      (Value.number number).ReadsAsDate := by
  rw [toInstant?]
  cases number with
  | finite scaled =>
      change (∃ instant, Instant.ofMillis? scaled.truncate = some instant) ↔ _
      rw [Instant.exists_ofMillis?_iff, Scaled.truncate_isBetween_iff (by decide) (by decide)]
      constructor
      · exact .count
      · rintro ⟨⟩
        assumption
  | _ =>
      refine iff_of_false ?_ ?_
      · rintro ⟨instant, ⟨⟩⟩
      · rintro ⟨⟩

theorem readsAsDate_iff :
    value.ReadsAsDate ↔ value = .null ∨ ∃ instant, value.toInstant? = some instant := by
  cases value with
  | null => exact iff_of_true .null (Or.inl rfl)
  | date instant => exact iff_of_true (.date instant) (Or.inr ⟨instant, rfl⟩)
  | number number => simp [exists_toInstant?_number_iff]
  | string text =>
      rw [toInstant?, Instant.exists_ofIsoText?_iff]
      constructor
      · rintro (_ | _ | _ | written)
        exact Or.inr written
      · rintro (⟨⟨⟩⟩ | written)
        exact .text written
  | _ =>
      refine iff_of_false ?_ ?_
      · rintro ⟨⟩
      · simp [toInstant?]

end Value

namespace Place

variable {place : Place}

/-- A declared date whose value cannot be read. -/
structure IsUnreadable (place : Place) : Prop where
  isDate : place.traits.type = .date
  unreadable : ¬ place.value.ReadsAsDate

/-- The error for a date that cannot be read: numbers and texts are invalid dates, and other
values are of another type. -/
def dateError (place : Place) : CoercionError :=
  match place.value with
  | .number number => .invalidDate place.location.path (Value.number number).displayText
  | .string text => .invalidDate place.location.path text
  | other => .typeMismatch place.location.path .date other.kind

/-- What a read says of the value of a declared field. -/
def dateReport (place : Place) : Except CoercionError Unit :=
  if place.traits.type = .date ∧ place.value.isNull = false ∧ place.value.toInstant? = none then
    .error place.dateError
  else .ok ()

theorem isUnreadable_iff : place.IsUnreadable ↔
    place.traits.type = .date ∧ place.value.isNull = false ∧ place.value.toInstant? = none := by
  have readable := @Value.readsAsDate_iff place.value
  have null := @Value.isNull_iff place.value
  constructor
  · rintro ⟨isDate, unreadable⟩
    rw [readable, not_or, ← null, Bool.not_eq_true, not_exists] at unreadable
    exact ⟨isDate, unreadable.1, Option.eq_none_iff_forall_ne_some.mpr unreadable.2⟩
  · rintro ⟨isDate, notNull, none⟩
    refine ⟨isDate, ?_⟩
    rw [readable, not_or, ← null, Bool.not_eq_true, not_exists]
    exact ⟨notNull, Option.eq_none_iff_forall_ne_some.mp none⟩

theorem dateReport_eq_ok_iff : place.dateReport = .ok () ↔ ¬ place.IsUnreadable := by
  rw [isUnreadable_iff, dateReport]
  split
  · next unreadable => simp [unreadable]
  · next readable => exact iff_of_true rfl readable

theorem dateReport_eq_error_iff {error : CoercionError} :
    place.dateReport = .error error ↔ place.IsUnreadable ∧ error = place.dateError := by
  rw [isUnreadable_iff, dateReport]
  split
  · next unreadable => simp [unreadable, eq_comm]
  · next readable => simp [readable]

theorem dateError_under (start : Location) (place : Place) :
    (place.under start).dateError = place.dateError.under start.path := by
  obtain ⟨location, traits, value⟩ := place
  cases value <;> simp only [dateError, under, Location.path_append, CoercionError.under]

theorem dateReport_under (start : Location) (place : Place) :
    (place.under start).dateReport = place.dateReport.mapError (·.under start.path) := by
  have same : (place.under start).dateReport =
      if place.traits.type = .date ∧ place.value.isNull = false ∧
        place.value.toInstant? = none then .error (place.under start).dateError
      else .ok () := rfl
  rw [same, dateReport, dateError_under]
  split <;> rfl

end Place

namespace Schema

open Place (dateReport)

variable {schema nested : Schema} {property : Property} {document : Document}
variable {name : String} {value : Value}

/-- A value is loaded without transforms unless it is a date that cannot be read. -/
theorem verdict_load (unget : property.get = none) (notNull : value.isNull = false) :
    verdict (property.load value) = dateReport ⟨[], property.toPropertyTraits, value⟩ := by
  by_cases isDate : property.type = .date
  · rw [PropertyTraits.load, isDate, unget, dateReport]
    simp only [isDate, notNull, true_and]
    cases value with
    | null => cases notNull
    | number number =>
        simp only [PropertyTraits.loadDate]
        cases (Value.number number).toInstant? <;> rfl
    | string text =>
        simp only [PropertyTraits.loadDate]
        cases (Value.string text).toInstant? <;> rfl
    | _ => rfl
  · rw [PropertyTraits.load_of_ne_date unget isDate, dateReport, if_neg fun both => isDate both.1]
    rfl

theorem verdict_readInside
    (each : ∀ fields, verdict (readFields nested fields) = (nested.places fields).forM dateReport) :
    verdict (readInside (some nested) value) =
      (placesInside (some nested) value).forM dateReport := by
  rw [readInside_eq, verdict_coerceInside, placesInside_eq, forM_flatMap]
  congr
  funext held
  rw [each, forM_map_of_mapError (Place.dateReport_under held.1)]
  rfl

/-- Reading a field reports on its own value and on those inside it. -/
theorem verdict_readField (normal : property.IsNormal) (unget : property.get = none)
    (declared : schema.get? name = some property)
    (inside : verdict (readInside property.properties value) =
      (placesInside property.properties value).forM dateReport) :
    verdict (readField schema name value) = (placesAt schema name value).forM dateReport := by
  have here : verdict (if value.isNull then .ok value
      else (readInside property.properties value).bind property.load) =
      (⟨[], property.toPropertyTraits, value⟩ ::
        placesInside property.properties value).forM dateReport := by
    change _ = (dateReport ⟨[], property.toPropertyTraits, value⟩ >>= fun _ =>
      (placesInside property.properties value).forM dateReport)
    cases isNull : value.isNull with
    | true =>
        obtain rfl := Value.isNull_iff.mp isNull
        have passes : dateReport ⟨[], property.toPropertyTraits, .null⟩ = .ok () :=
          Place.dateReport_eq_ok_iff.mpr fun unreadable => unreadable.unreadable .null
        rw [passes]
        cases property.properties <;> rfl
    | false =>
        by_cases isDate : property.type = .date
        · -- Dates have nothing inside.
          rw [normal.flat_of_date isDate, placesInside_none, readInside_none,
            ← verdict_load unget isNull]
          change verdict (property.load value) = _
          cases property.load value <;> rfl
        · have loads : ∀ read, property.load read = .ok read := fun read =>
            PropertyTraits.load_of_ne_date unget isDate
          rw [← inside, ← verdict_load unget isNull, loads]
          cases readInside property.properties value with
          | error => rfl
          | ok read => exact congrArg verdict (loads read)
  rw [readField, declared, placesAt, declared,
    forM_map_of_mapError (Place.dateReport_under [.field name]), ← here, ← verdict_mapError,
    Location.path_singleton]
  cases value.isNull <;> rfl

/-- A read reports on all declared fields in order. -/
theorem verdict_readFields (schema : Schema) : schema.IsDeeplyNormal →
    (schema.AllProperties fun property => property.get = none) →
      ∀ document, verdict (readFields schema document) =
        (schema.places document).forM dateReport := by
  induction schema using Schema.induction with
  | step schema induction =>
      intro normal unget document
      rw [verdict_readFields_eq_forM, places_eq, forM_flatMap]
      congr
      funext ⟨name, value⟩
      cases declared : schema.get? name with
      | none =>
          rw [readField, placesAt, declared]
          rfl
      | some property =>
          have member := (get?_eq_some declared).1
          refine verdict_readField ((normal _ (.self _)).normal property member)
            (unget.here member) declared ?_
          cases carries : property.properties with
          | none => cases value <;> rfl
          | some nested =>
              exact verdict_readInside (induction property member nested carries
                (normal.of_carries member carries) (unget.of_carries member carries))

theorem read_fails_iff (normal : schema.IsDeeplyNormal)
    (unget : schema.AllProperties fun property => property.get = none)
    (distinct : (Value.map document).isDistinct = true) :
    (∃ error, schema.read document = .error error) ↔
      ∃ place, schema.HasPlace document place ∧ place.IsUnreadable := by
  have enumerates := enumerates_places schema normal document distinct
  have verdict_eq := verdict_readFields schema normal unget document
  constructor
  · rintro ⟨error, failed⟩
    rw [read, ← verdict_eq_error_iff, verdict_eq, forM_eq_error_iff] at failed
    obtain ⟨earlier, first, later, split, -, reports⟩ := failed
    exact ⟨first, (enumerates.before_of_split split).1,
      (Place.dateReport_eq_error_iff.mp reports).1⟩
  · rintro ⟨place, has, unreadable⟩
    cases reads : schema.read document with
    | error error => exact ⟨error, rfl⟩
    | ok result =>
        have passes := verdict_eq_ok_iff.mpr ⟨result, reads⟩
        rw [read, verdict_eq, forM_eq_ok_iff] at passes
        have readable := passes place ((enumerates.complete place).mpr has)
        exact absurd unreadable (Place.dateReport_eq_ok_iff.mp readable)

theorem read_reports_first (normal : schema.IsDeeplyNormal)
    (unget : schema.AllProperties fun property => property.get = none)
    (distinct : (Value.map document).isDistinct = true) {error : CoercionError}
    (failed : schema.read document = .error error) :
    ∃ place, schema.HasPlace document place ∧ place.IsUnreadable ∧ error = place.dateError ∧
      ∀ other, schema.HasPlace document other → other.IsUnreadable → other = place ∨
        Location.Before (Value.map document).namesAt place.location other.location := by
  rw [read, ← verdict_eq_error_iff, verdict_readFields schema normal unget,
    forM_eq_error_iff] at failed
  obtain ⟨earlier, first, later, split, passed, reports⟩ := failed
  obtain ⟨unreadable, same⟩ := Place.dateReport_eq_error_iff.mp reports
  obtain ⟨has, ordered⟩ := (enumerates_places schema normal document distinct).before_of_split split
  refine ⟨first, has, unreadable, same, fun other otherHas otherUnreadable => ?_⟩
  refine ordered other otherHas fun listed => ?_
  exact Place.dateReport_eq_ok_iff.mp (passed other listed) otherUnreadable

end Schema

end ItemTable
