import ItemTable.Proofs.Coercion.Inside
import ItemTable.Proofs.Coercion.Stored
import ItemTable.Proofs.Entries

/-!
# Reading without transforms

A read looks at one field after another.  When no code of the user takes part, the only
values that are refused are those of date properties, and of these the ones that denote
no instant.
-/

namespace ItemTable.Schema

variable {schema nested : Schema} {property : Property} {document result : Document}
variable {name : String} {value : Value}

/-- Values are stored and read without code of the user, at every depth. -/
def IsUntransformed (schema : Schema) : Prop :=
  schema.AllProperties fun property => property.get = none ∧ property.set = none

/-- Every document that a schema applies to holds a name once, as documents do that are
built by insertion. -/
def HasDistinctNames (schema : Schema) (document : Document) : Prop :=
  schema.AllDocuments document fun _ fields => fields.names.Nodup

/-- What the date properties of a document and of the documents inside hold, apart from
nulls, satisfies a condition. -/
def AllDates (schema : Schema) (document : Document) (condition : DateFormat → Value → Prop) :
    Prop :=
  schema.AllDocuments document fun inner fields => ∀ property ∈ inner,
    property.type = .date → ∀ value, fields.get? property.name = some value → value ≠ .null →
      condition property.format value

theorem allDates_iff {condition : DateFormat → Value → Prop} :
    schema.AllDates document condition ↔
      ∀ property ∈ schema, ∀ value, document.get? property.name = some value →
        (property.type = .date → value ≠ .null → condition property.format value) ∧
          ∀ nested, property.properties = some nested → ∀ fields, value.Holds fields →
            AllDates nested fields condition := by
  rw [AllDates, allDocuments_iff]
  constructor
  · rintro ⟨here, inside⟩ property member value found
    refine ⟨fun isDate => here property member isDate value found, ?_⟩
    intro nested carries fields held
    exact inside property member nested carries value found fields held
  · intro each
    constructor
    · intro property member isDate value found
      exact (each property member value found).1 isDate
    · intro property member nested carries value found fields held
      exact (each property member value found).2 nested carries fields held

/-- Two conditions on dates come to the same if they do so for dates of a known kind. -/
theorem AllDates.congr {known first second : DateFormat → Value → Prop}
    (all : schema.AllDates document known)
    (same : ∀ format value, known format value → (first format value ↔ second format value)) :
    schema.AllDates document first ↔ schema.AllDates document second :=
  forall₄_congr fun inner fields governs property => forall₄_congr fun member isDate value found =>
    forall_congr' fun notNull =>
      same _ _ (all inner fields governs property member isDate value found notNull)

/-- The domain form of a field. -/
def readField (schema : Schema) (name : String) (value : Value) : Except CoercionError Value :=
  match schema.get? name with
  | none => .ok value
  | some property =>
      if value.isNull then .ok value
      else ((readInside property.properties value).bind property.load).mapError (·.under name)

theorem readFields_cons {rest : Document} :
    readFields schema ((name, value) :: rest) =
      (readField schema name value >>= fun read =>
        readFields schema rest >>= fun others => .ok ((name, read) :: others)) := by
  rw [readFields, readField]
  cases schema.get? name with
  | none => rfl
  | some property => cases value.isNull <;> rfl

/-- A read comes to one field after another, up to the first that fails. -/
theorem verdict_readFields_eq_forM :
    verdict (readFields schema document) =
      document.forM fun entry => verdict (readField schema entry.1 entry.2) := by
  induction document with
  | nil => rfl
  | cons entry rest induction =>
      obtain ⟨name, value⟩ := entry
      rw [readFields_cons, verdict_bind_bind, induction]
      rfl

theorem exists_readFields_iff :
    (∃ result, readFields schema document = .ok result) ↔
      ∀ name value, (name, value) ∈ document → ∃ read, readField schema name value = .ok read := by
  rw [← verdict_eq_ok_iff, verdict_readFields_eq_forM, forM_eq_ok_iff]
  simp only [verdict_eq_ok_iff, Prod.forall]

theorem readField_eq_ok_iff {read : Value} (found : schema.get? name = some property)
    (notNull : value ≠ .null) :
    readField schema name value = .ok read ↔
      ∃ inside, readInside property.properties value = .ok inside ∧
        property.load inside = .ok read := by
  rw [readField, found]
  simp only [Value.isNull_iff, notNull, if_false, mapError_eq_ok_iff]
  exact bind_eq_ok_iff

/-- A field is read if what is inside is read and a date denotes an instant. -/
theorem exists_readField_iff (normal : property.IsNormal) (unget : property.get = none)
    (found : schema.get? name = some property) :
    (∃ read, readField schema name value = .ok read) ↔
      (property.type = .date → value ≠ .null → ∃ instant, value.toInstant? = some instant) ∧
        ∀ nested, property.properties = some nested → ∀ fields, value.Holds fields →
          ∃ result, readFields nested fields = .ok result := by
  by_cases null : value = .null
  · subst null
    refine iff_of_true ⟨.null, ?_⟩ ⟨fun _ notNull => absurd rfl notNull, ?_⟩
    · rw [readField, found]
      rfl
    · rintro nested - fields ⟨⟩
  · simp only [readField_eq_ok_iff found null, readInside_eq]
    by_cases isDate : property.type = .date
    · have flat := normal.flat_of_date isDate
      simp only [flat, coerceInside, Except.ok.injEq, exists_eq_left',
        PropertyTraits.load_eq_ok_iff_of_date unget isDate]
      simp [isDate, null]
    · simp only [PropertyTraits.load_of_ne_date unget isDate, Except.ok.injEq,
        ← exists_coerceInside_iff]
      simp [isDate]

/-- A document is read if every field of a property is. -/
theorem exists_readFields_iff_of_declared (distinct : document.names.Nodup) :
    (∃ result, readFields schema document = .ok result) ↔
      ∀ property ∈ schema, ∀ value, document.get? property.name = some value →
        ∃ read, readField schema property.name value = .ok read := by
  rw [exists_readFields_iff]
  constructor
  · intro reads property _ value found
    exact reads property.name value (Entries.mem_of_get? found)
  · intro reads name value member
    cases declared : schema.get? name with
    | none =>
        refine ⟨value, ?_⟩
        rw [readField, declared]
    | some property =>
        obtain ⟨inSchema, rfl⟩ := get?_eq_some declared
        exact reads property inSchema value (Entries.get?_of_mem distinct member)

/-- A document is read exactly when its dates denote instants. -/
theorem exists_readFields_iff_allDates (schema : Schema) :
    ∀ {document : Document}, schema.IsDeeplyNormal → schema.IsUntransformed →
      schema.HasDistinctNames document →
        ((∃ result, readFields schema document = .ok result) ↔
          schema.AllDates document fun _ value => ∃ instant, value.toInstant? = some instant) := by
  induction schema using Schema.induction with
  | step schema induction =>
      intro document normal untransformed distinct
      have normalHere := normal schema (.self schema)
      rw [allDates_iff,
        exists_readFields_iff_of_declared distinct.here]
      refine forall₄_congr fun property member value found => ?_
      rw [exists_readField_iff (normalHere.normal property member)
        (untransformed.here member).1 (normalHere.get?_eq member)]
      refine and_congr_right fun _ => forall₄_congr fun nested carries fields held => ?_
      exact induction property member nested carries (normal.of_carries member carries)
        (untransformed.of_carries member carries) (distinct.inside member carries found held)

end ItemTable.Schema
