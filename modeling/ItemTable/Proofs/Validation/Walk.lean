import ItemTable.Proofs.Schema.Walk
import ItemTable.Proofs.Validation.Valid

/-!
# Validation as a walk

Validation comes to the declared fields of a document in order.  A field fails by one of its own
checks, whose error has no path yet, or in one of the documents inside.
-/

namespace ItemTable

namespace PropertyTraits

variable {traits : PropertyTraits} {type : AttributeType} {value : Value} {error : ValidationError}

theorem path?_of_testValidator {name : String} {validator : Validator}
    (failed : testValidator type value name validator = .error error) : error.path? = some "" := by
  cases validator with
  | builtin parameter =>
      rw [testValidator] at failed
      split at failed
      · cases failed
        rfl
      · split at failed <;> cases failed
        rfl
  | custom predicate =>
      rw [testValidator] at failed
      split at failed <;> cases failed <;> rfl

theorem path?_of_testValidators {validators : List (String × Validator)}
    (failed : testValidators type value validators = .error error) : error.path? = some "" := by
  induction validators with
  | nil => cases failed
  | cons entry validators induction =>
      obtain ⟨name, validator⟩ := entry
      rw [testValidators] at failed
      rcases bind_eq_error_iff.mp failed with failedFirst | ⟨-, -, failedLater⟩
      · exact path?_of_testValidator failedFirst
      · exact induction failedLater

/-- The checks of a value know nothing of where it is. -/
theorem path?_of_test (failed : traits.test value = .error error) : error.path? = some "" := by
  rw [test] at failed
  split at failed
  · rw [testNull] at failed
    split at failed
    · split at failed <;> cases failed
      rfl
    · cases failed
  · rw [testValue] at failed
    split at failed
    · cases failed
      rfl
    · split at failed
      · cases failed
        rfl
      · exact path?_of_testValidators failed

end PropertyTraits

namespace Schema

variable {schema nested : Schema} {property : Property} {document : Document} {name : String}
variable {value : Value} {error : ValidationError}

/-- The walk of validation.  What is inside a value is checked when its own checks pass. -/
def validation : Walk ValidationError :=
  .ofFields validateFields (fun property value error => property.test value = .error error)
    fun property value => property.test value = .ok ()

theorem validateInside_eq_error_iff {properties : Option Schema} :
    validateInside properties value = .error error ↔
      Walk.FailsInside ValidationError.under validateFields properties value error := by
  cases properties with
  | none =>
      refine iff_of_false ?_ Walk.not_failsInside_none
      cases value <;> rintro ⟨⟩
  | some nested =>
      apply Walk.eq_error_iff_failsInside
      simp only [verdict_eq_self, validateInside_eq_forM]

theorem validateField_eq_error_iff (declared : schema.get? name = some property) :
    validateField schema name value = .error error ↔
      ∃ inner, error = inner.under name ∧ (property.test value = .error inner ∨
        property.test value = .ok () ∧
          Walk.FailsInside ValidationError.under validateFields property.properties value inner) := by
  rw [validateField_of_get? declared, mapError_eq_error_iff]
  refine exists_congr fun inner => ?_
  rw [and_comm, bind_eq_error_iff, validateInside_eq_error_iff]
  exact and_congr_right fun _ => or_congr_right ⟨fun ⟨_, both⟩ => both, fun both => ⟨(), both⟩⟩

theorem validation_makes : validation.Makes ValidationError.under validateFields := by
  refine Walk.ofFields_makes ?_ ?_ validateField_eq_error_iff
  · intro schema document
    simp only [verdict_eq_self, validateFields_eq_forM]
  · intro schema name value error undeclared
    rw [validateField, undeclared]
    rintro ⟨⟩

theorem validate_endsIn (schema : Schema) (document : Document) :
    validation.EndsIn ValidationError.under ValidationError.path? schema document
      (schema.validate document) := by
  refine validation_makes.endsIn ValidationError.actsOn ?_ schema document
  rintro schema document name error ⟨property, value, -, -, refused⟩
  exact PropertyTraits.path?_of_test refused

end Schema

end ItemTable
