import ItemTable.Proofs.Coercion.Pipeline
import ItemTable.Proofs.Coercion.Reading
import ItemTable.Proofs.Schema.Walk

/-!
# Reading and writing as walks

A read comes to the fields of a document in order, and a write to the properties of a schema.
A field fails inside, or by itself when what is inside is done; in a write its hook may fail
before both.  The errors that arise have no path yet.
-/

namespace ItemTable

namespace PropertyTraits

variable {traits : PropertyTraits} {value : Value} {error : CoercionError}

theorem path_of_transform {point : ExtensionPoint} {code : Option Transform}
    (failed : transform point code value = .error error) : error.path = "" := by
  cases code with
  | none => cases failed
  | some run =>
      obtain ⟨source, -, rfl⟩ := mapError_eq_error_iff.mp failed
      rfl

theorem path_of_loadDate (failed : loadDate value = .error error) : error.path = "" := by
  cases value with
  | date instant => cases failed
  | number number =>
      simp only [loadDate] at failed
      split at failed <;> cases failed
      rfl
  | string text =>
      simp only [loadDate] at failed
      split at failed <;> cases failed
      rfl
  | _ =>
      cases failed
      rfl

theorem path_of_load (failed : traits.load value = .error error) : error.path = "" := by
  rw [load] at failed
  split at failed
  · rcases bind_eq_error_iff.mp failed with unread | ⟨loaded, -, unchanged⟩
    · exact path_of_loadDate unread
    · exact path_of_transform unchanged
  · exact path_of_transform failed

theorem path_of_storeType {type : AttributeType} {format : DateFormat}
    (failed : storeType type format value = .error error) : error.path = "" := by
  cases type with
  | date =>
      cases value with
      | null => cases failed
      | date instant => cases failed
      | _ =>
          cases failed
          rfl
  | _ => cases failed

theorem path_of_store (failed : traits.store value = .error error) : error.path = "" := by
  rw [store] at failed
  split at failed
  · cases failed
  · rcases bind_eq_error_iff.mp failed with unset | ⟨changed, -, failed⟩
    · exact path_of_transform unset
    · exact path_of_storeType failed

end PropertyTraits

namespace Schema

variable {schema nested : Schema} {property : Property} {document : Document} {name : String}
variable {value : Value} {error : CoercionError} {stage : WriteStage}

theorem coerceInside_eq_error_iff {coerce : Schema → Document → Except CoercionError Document}
    {properties : Option Schema} :
    coerceInside coerce properties value = .error error ↔
      Walk.FailsInside CoercionError.under coerce properties value error := by
  cases properties with
  | none =>
      refine iff_of_false ?_ Walk.not_failsInside_none
      rintro ⟨⟩
  | some nested => exact Walk.eq_error_iff_failsInside verdict_coerceInside

/-- A value other than null fails inside, or by itself when what is inside is done. -/
theorem coerceValue_eq_error_iff {coerce : Schema → Document → Except CoercionError Document}
    {properties : Option Schema} {finish : Value → Except CoercionError Value} :
    (if value.isNull then .ok value else (coerceInside coerce properties value).bind finish) =
        .error error ↔
      (value.isNull = false ∧ ∃ inside, coerceInside coerce properties value = .ok inside ∧
        finish inside = .error error) ∨
      Walk.FailsInside CoercionError.under coerce properties value error := by
  rw [← coerceInside_eq_error_iff]
  cases isNull : value.isNull with
  | true =>
      have done : coerceInside coerce properties value ≠ .error error := by
        rw [Ne, coerceInside_eq_error_iff]
        intro failed
        rw [failed.isNull_eq_false] at isNull
        cases isNull
      simp [done]
  | false =>
      simp only [Bool.false_eq_true, if_false, true_and]
      rw [or_comm]
      exact bind_eq_error_iff

section Reading

/-- The walk of reading.  A value is loaded when what is inside is read. -/
def reading : Walk CoercionError :=
  .ofFields readFields
    (fun property value error => value.isNull = false ∧ ∃ inside,
      readInside property.properties value = .ok inside ∧ property.load inside = .error error)
    fun _ _ => True

theorem readField_eq_error_iff (declared : schema.get? name = some property) :
    readField schema name value = .error error ↔
      ∃ inner, error = inner.under name ∧ ((value.isNull = false ∧ ∃ inside,
        readInside property.properties value = .ok inside ∧ property.load inside = .error inner) ∨
          Walk.FailsInside CoercionError.under readFields property.properties value inner) := by
  have moved : readField schema name value =
      (if value.isNull then .ok value
        else (readInside property.properties value).bind property.load).mapError (·.under name) := by
    rw [readField, declared]
    cases value.isNull <;> rfl
  rw [moved, mapError_eq_error_iff]
  refine exists_congr fun inner => ?_
  rw [readInside_eq, coerceValue_eq_error_iff, and_comm]

theorem reading_makes : reading.Makes CoercionError.under readFields := by
  refine Walk.ofFields_makes (fun schema document => verdict_readFields_eq_forM) ?_ ?_
  · intro schema name value error undeclared
    rw [readField, undeclared]
    rintro ⟨⟩
  · intro schema name value property error declared
    simpa only [true_and] using readField_eq_error_iff declared

theorem read_endsIn (schema : Schema) (document : Document) :
    reading.EndsIn CoercionError.under (fun error => some error.path) schema document
      (schema.read document) := by
  refine reading_makes.endsIn CoercionError.actsOn ?_ schema document
  rintro schema document name error ⟨property, value, -, -, -, inside, -, unloaded⟩
  exact congrArg some (PropertyTraits.path_of_load unloaded)

end Reading

section Writing

variable {properties : List Property} {domain stored reached : Document}

/-- A write comes to a property when the fields of those before it can be written, with the
domain document that their hooks leave. -/
inductive WriteReaches (stage : WriteStage) : List Property → Document → Property → Document → Prop
  | here {property : Property} {rest : List Property} {domain : Document} :
      WriteReaches stage (property :: rest) domain property domain
  | later {first property : Property} {rest : List Property} {domain reached : Document}
      {value field : Option Value} (ran : first.runHook stage domain = .ok value)
      (stores : storeField stage first value = .ok field)
      (reaches : WriteReaches stage rest (first.afterHook stage domain value) property reached) :
      WriteReaches stage (first :: rest) domain property reached

theorem WriteReaches.mem (reaches : WriteReaches stage properties domain property reached) :
    property ∈ properties := by
  induction reaches with
  | here => exact List.mem_cons_self
  | later _ _ _ member => exact List.mem_cons_of_mem _ member

/-- A property whose hook fails, or whose value is refused when what is inside is written. -/
inductive WriteRaises (stage : WriteStage) (property : Property) (domain : Document) :
    CoercionError → Prop
  | hook {hook : Hook} {source : String} (hooked : property.hooks.at stage = some hook)
      (failed : hook (domain.get? property.name) domain = .error source) :
      WriteRaises stage property domain (.hook "" stage.point source)
  | store {value inside : Value} {error : CoercionError}
      (ran : property.runHook stage domain = .ok (some value)) (notNull : value.isNull = false)
      (written : writeInside stage property.properties value = .ok inside)
      (refused : property.store inside = .error error) : WriteRaises stage property domain error

/-- The walk of writing.  The values that it goes into are those that the hooks leave. -/
def writing (stage : WriteStage) : Walk CoercionError where
  raises schema document name error :=
    ∃ property domain, WriteReaches stage schema document property domain ∧
      property.name = name ∧ WriteRaises stage property domain error
  enters schema document name nested start fields :=
    ∃ property domain value, WriteReaches stage schema document property domain ∧
      property.name = name ∧ property.runHook stage domain = .ok (some value) ∧
      property.properties = some nested ∧
      Walk.ComesInside (fun fields => nested.write stage fields) value start fields

theorem writeFields_cons :
    writeFields stage (property :: properties) domain stored =
      (property.runHook stage domain >>= fun value =>
        storeField stage property value >>= fun field =>
          writeFields stage properties (property.afterHook stage domain value)
            (PropertyTraits.assign stored property.name field)) := by
  rw [writeFields, writeField_eq]
  cases property.runHook stage domain with
  | error => rfl
  | ok value =>
      change ((storeField stage property value >>= fun _ => _) >>= fun _ => _) =
        (storeField stage property value >>= fun _ => _)
      cases storeField stage property value <;> rfl

/-- A write fails in the hook or the value of a property that it comes to.  What is stored so far
has no part in that. -/
theorem writeFields_eq_error_iff :
    writeFields stage properties domain stored = .error error ↔
      ∃ property reached, WriteReaches stage properties domain property reached ∧
        (property.runHook stage reached >>= storeField stage property) = .error error := by
  induction properties generalizing domain stored with
  | nil =>
      constructor
      · intro failed
        rw [writeFields] at failed
        cases failed
      · rintro ⟨_, _, ⟨⟩, -⟩
  | cons first properties induction =>
      rw [writeFields_cons]
      constructor
      · intro failed
        rcases bind_eq_error_iff.mp failed with raised | ⟨value, ran, failed⟩
        · exact ⟨first, domain, .here, bind_eq_error_iff.mpr (Or.inl raised)⟩
        · rcases bind_eq_error_iff.mp failed with unstored | ⟨field, stores, failed⟩
          · exact ⟨first, domain, .here, bind_eq_error_iff.mpr (Or.inr ⟨value, ran, unstored⟩)⟩
          · obtain ⟨property, reached, reaches, failed⟩ := induction.mp failed
            exact ⟨property, reached, .later ran stores reaches, failed⟩
      · rintro ⟨property, reached, reaches, failed⟩
        cases reaches with
        | here =>
            rcases bind_eq_error_iff.mp failed with raised | ⟨value, ran, unstored⟩
            · exact bind_eq_error_iff.mpr (Or.inl raised)
            · exact bind_eq_error_iff.mpr
                (Or.inr ⟨value, ran, bind_eq_error_iff.mpr (Or.inl unstored)⟩)
        | later ran stores reaches =>
            exact bind_eq_error_iff.mpr (Or.inr ⟨_, ran, bind_eq_error_iff.mpr
              (Or.inr ⟨_, stores, induction.mpr ⟨property, reached, reaches, failed⟩⟩)⟩)

theorem runHook_eq_error_iff {traits : PropertyTraits} :
    traits.runHook stage domain = .error error ↔
      ∃ hook source, traits.hooks.at stage = some hook ∧
        hook (domain.get? traits.name) domain = .error source ∧
        error = (CoercionError.hook "" stage.point source).under traits.name := by
  rw [PropertyTraits.runHook]
  cases traits.hooks.at stage with
  | none => simp
  | some hook => simp [mapError_eq_error_iff, CoercionError.under, Path.join_empty]

theorem storeField_some_eq_error_iff :
    storeField stage property (some value) = .error error ↔
      ∃ inner, error = inner.under property.name ∧ ((value.isNull = false ∧ ∃ inside,
        writeInside stage property.properties value = .ok inside ∧
          property.store inside = .error inner) ∨
        Walk.FailsInside CoercionError.under (fun nested fields => nested.write stage fields)
          property.properties value inner) := by
  rw [storeField_eq, map_eq_error_iff, mapError_eq_error_iff, storeValue]
  refine exists_congr fun inner => ?_
  rw [coerceValue_eq_error_iff, writeInside_eq, and_comm]
  rfl

/-- The field of a property fails by its hook, by its value, or inside. -/
theorem writeProperty_eq_error_iff :
    (property.runHook stage domain >>= storeField stage property) = .error error ↔
      ∃ inner, error = inner.under property.name ∧ (WriteRaises stage property domain inner ∨
        ∃ value, property.runHook stage domain = .ok (some value) ∧
          Walk.FailsInside CoercionError.under (fun nested fields => nested.write stage fields)
            property.properties value inner) := by
  rw [bind_eq_error_iff]
  constructor
  · rintro (failed | ⟨field, ran, failed⟩)
    · obtain ⟨hook, source, hooked, thrown, rfl⟩ := runHook_eq_error_iff.mp failed
      exact ⟨_, rfl, Or.inl (.hook hooked thrown)⟩
    · cases field with
      | none => cases failed
      | some value =>
          obtain ⟨inner, rfl, ⟨notNull, inside, written, refused⟩ | failedInside⟩ :=
            storeField_some_eq_error_iff.mp failed
          · exact ⟨inner, rfl, Or.inl (.store ran notNull written refused)⟩
          · exact ⟨inner, rfl, Or.inr ⟨value, ran, failedInside⟩⟩
  · rintro ⟨inner, rfl, (⟨hooked, thrown⟩ | ⟨ran, notNull, written, refused⟩) |
      ⟨value, ran, failedInside⟩⟩
    · exact Or.inl (runHook_eq_error_iff.mpr ⟨_, _, hooked, thrown, rfl⟩)
    · exact Or.inr ⟨_, ran, storeField_some_eq_error_iff.mpr
        ⟨inner, rfl, Or.inl ⟨notNull, _, written, refused⟩⟩⟩
    · exact Or.inr ⟨_, ran, storeField_some_eq_error_iff.mpr ⟨inner, rfl, Or.inr failedInside⟩⟩

theorem writing_makes : (writing stage).Makes CoercionError.under
    fun schema document => schema.write stage document where
  eq_error_iff := by
    intro schema document error
    simp only [write, writeFields_eq_error_iff, writeProperty_eq_error_iff]
    constructor
    · rintro ⟨property, reached, reaches, inner, rfl, raised |
        ⟨value, ran, carries, comes, failed⟩⟩
      · exact .raised ⟨property, reached, reaches, rfl, raised⟩
      · exact .inside ⟨property, reached, value, reaches, rfl, ran, carries, comes⟩ failed
    · rintro (⟨property, reached, reaches, rfl, raised⟩ |
        ⟨⟨property, reached, value, reaches, rfl, ran, carries, comes⟩, failed⟩)
      · exact ⟨property, reached, reaches, _, rfl, Or.inl raised⟩
      · exact ⟨property, reached, reaches, _, rfl,
          Or.inr ⟨value, ran, .intro carries comes failed⟩⟩
  carries := by
    rintro schema nested document fields name start ⟨property, _, _, reaches, -, -, carries, -⟩
    exact ⟨property, reaches.mem, carries⟩

theorem write_endsIn (schema : Schema) (stage : WriteStage) (document : Document) :
    (writing stage).EndsIn CoercionError.under (fun error => some error.path) schema document
      (schema.write stage document) := by
  refine writing_makes.endsIn CoercionError.actsOn ?_ schema document
  rintro schema document name error ⟨property, domain, -, -, ⟨-, -⟩ | ⟨-, -, -, refused⟩⟩
  · rfl
  · exact congrArg some (PropertyTraits.path_of_store refused)

end Writing

end Schema

end ItemTable
