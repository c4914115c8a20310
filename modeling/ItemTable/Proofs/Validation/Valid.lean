import ItemTable.Proofs.Entries
import ItemTable.Proofs.ErrorPath
import ItemTable.Proofs.Outcome
import ItemTable.Proofs.Schema.Nested
import ItemTable.Proofs.Value
import ItemTable.Validation.Document

/-!
# Valid documents

A document is valid when each of its declared fields is, and then the documents inside
are valid for their schemas.  So a declared field of a document at any depth is null
or of its type.
-/

namespace ItemTable

/-- The checks of a value, apart from those inside it. -/
def PropertyTraits.test (traits : PropertyTraits) (value : Value) : Except ValidationError Unit :=
  if value.isNull then traits.testNull value else traits.testValue value

theorem PropertyTraits.admits_of_testValue {traits : PropertyTraits} {value : Value}
    (tested : traits.testValue value = .ok ()) : traits.type.admits value = true := by
  rw [testValue] at tested
  split at tested
  · cases tested
  · next admitted => simpa using admitted

namespace Schema

variable {schema nested inner : Schema} {property : Property} {document fields : Document}
variable {name : String} {value : Value}

/-- The check of one field. -/
def validateField (schema : Schema) (name : String) (value : Value) :
    Except ValidationError Unit :=
  match schema.get? name with
  | none => .ok ()
  | some property =>
      (if value.isNull then property.testNull value
        else do
          property.testValue value
          validateInside property.properties value).mapError (·.under name)

theorem validateFields_cons {rest : Document} :
    validateFields schema ((name, value) :: rest) =
      (validateField schema name value >>= fun _ => validateFields schema rest) := by
  rw [validateFields, validateField]
  cases schema.get? name <;> rfl

theorem validateField_of_get? (declared : schema.get? name = some property) :
    validateField schema name value =
      (property.test value >>= fun _ => validateInside property.properties value).mapError
        (·.under name) := by
  rw [validateField, declared, PropertyTraits.test]
  cases isNull : value.isNull with
  | false => rfl
  | true =>
      -- There is nothing inside a null.
      obtain rfl := Value.isNull_iff.mp isNull
      dsimp only
      cases property.testNull .null <;> cases property.properties <;> rfl

/-- Validation comes to one field after another, up to the first that fails. -/
theorem validateFields_eq_forM :
    validateFields schema document =
      document.forM fun entry => validateField schema entry.1 entry.2 := by
  induction document with
  | nil => rfl
  | cons entry rest induction =>
      obtain ⟨name, value⟩ := entry
      rw [validateFields_cons, induction]
      rfl

theorem validateFields_eq_ok_iff :
    validateFields schema document = .ok () ↔
      ∀ name value, (name, value) ∈ document → validateField schema name value = .ok () := by
  rw [validateFields_eq_forM, forM_eq_ok_iff, Prod.forall]

theorem validateField_eq_ok (found : schema.get? name = some property) (notNull : value ≠ .null)
    (valid : validateField schema name value = .ok ()) :
    property.testValue value = .ok () ∧ validateInside property.properties value = .ok () := by
  rw [validateField_of_get? found, mapError_eq_ok_iff] at valid
  obtain ⟨⟨⟩, tested, validInside⟩ := bind_eq_ok_iff.mp valid
  rw [PropertyTraits.test, if_neg fun null => notNull (Value.isNull_iff.mp null)] at tested
  exact ⟨tested, validInside⟩

theorem validateElements_eq_forM {position : Nat} {items : List Value} :
    validateElements nested position items =
      (Value.documentsAmong position items).forM fun held =>
        (validateFields nested held.2).mapError (·.under held.1.path) := by
  induction items generalizing position with
  | nil => rfl
  | cons item items induction =>
      cases item with
      | map fields =>
          rw [validateElements, if_pos rfl, validateInside, induction, Value.documentsAmong]
          change _ = ((validateFields nested fields).mapError _ >>= fun _ => _)
          rw [Location.path_singleton]
          rfl
      | _ => exact induction

/-- The documents inside a value are validated one after another, and an error is moved under
the location of its document. -/
theorem validateInside_eq_forM :
    validateInside (some nested) value =
      value.documents.forM fun held =>
        (validateFields nested held.2).mapError (·.under held.1.path) := by
  cases value with
  | map fields =>
      change validateFields nested fields =
        ((validateFields nested fields).mapError (·.under "") >>= fun _ => pure ())
      cases validateFields nested fields with
      | ok => rfl
      | error failure =>
          exact congrArg Except.error (ValidationError.actsOn.under_empty failure).symm
  | list items => exact validateElements_eq_forM
  | _ => rfl

/-- The documents inside a valid value are valid. -/
theorem validateFields_of_holds (valid : validateInside (some nested) value = .ok ())
    (held : value.Holds fields) : validateFields nested fields = .ok () := by
  obtain ⟨start, member⟩ := Value.holds_iff_exists_documents.mp held
  rw [validateInside_eq_forM, forM_eq_ok_iff] at valid
  exact mapError_eq_ok_iff.mp (valid (start, fields) member)

/-- The documents inside a valid document are valid, at every depth. -/
theorem validateFields_of_governs (governs : schema.Governs document inner fields)
    (normal : schema.IsDeeplyNormal) (valid : validateFields schema document = .ok ()) :
    validateFields inner fields = .ok () := by
  induction governs with
  | self => exact valid
  | inside member carries found holds _ induction =>
      apply induction (normal.of_carries member carries)
      have validHere := validateFields_eq_ok_iff.mp valid _ _ (Entries.mem_of_get? found)
      have declared := (normal _ (.self _)).get?_eq member
      obtain ⟨-, validInside⟩ := validateField_eq_ok declared holds.ne_null validHere
      rw [carries] at validInside
      exact validateFields_of_holds validInside holds

/-- A field of a valid document is null or of the type of its property. -/
theorem admits_of_validateFields (normal : schema.IsNormal)
    (valid : validateFields schema document = .ok ()) (member : property ∈ schema)
    (found : document.get? property.name = some value) (notNull : value ≠ .null) :
    property.type.admits value = true := by
  have validHere := validateFields_eq_ok_iff.mp valid _ _ (Entries.mem_of_get? found)
  exact PropertyTraits.admits_of_testValue
    (validateField_eq_ok (normal.get?_eq member) notNull validHere).1

end Schema

end ItemTable
