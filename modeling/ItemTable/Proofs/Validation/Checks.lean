import ItemTable.Proofs.Schema.Places
import ItemTable.Proofs.Schema.WellFormed
import ItemTable.Proofs.Validation.Valid

/-!
# Validation as a list of checks

`places` lists the declared fields of a document and of the documents inside, in depth-first
order, and `checks` what is asked of each of them.  Validation is this list of checks, run
until the first that fails.  A failure is reported with the value of the field, unless it is
a predicate that failed to answer.
-/

namespace ItemTable

/-- One test of a value. -/
inductive ValueTest
  | notNull (parameter : Value)
  | type
  | allowed (values : List Value)
  | entry (name : String) (validator : Validator)

namespace ValueTest

/-- The name under which a failure is reported. -/
def code : ValueTest → String
  | notNull _ => BuiltinCheck.notNull.name
  | type => BuiltinCheck.type.name
  | allowed _ => "enum"
  | entry name _ => name

/-- Whether a value passes, unless user code fails with a text. -/
def judge (attributeType : AttributeType) (value : Value) : ValueTest → Except String Bool
  | notNull parameter => .ok (BuiltinCheck.notNull.passes attributeType value parameter)
  | type => .ok (attributeType.admits value)
  | allowed values => .ok (values.any value.same)
  | entry name (.builtin parameter) =>
      .ok ((attributeType.builtinCheck? name).any (·.passes attributeType value parameter))
  | entry _ (.custom predicate) => predicate value

end ValueTest

/-- A test of a declared field. -/
structure Check where
  place : Place
  test : ValueTest

namespace Place

/-- The tests of a field in order.  A null is tested only against the first parameter for
`notNull`. -/
def tests (place : Place) : List ValueTest :=
  if place.value.isNull then
    (place.traits.builtinParameter? BuiltinCheck.notNull.name).toList.map .notNull
  else
    .type :: (place.traits.allowed.toList.map .allowed ++
      place.traits.validators.map fun entry => .entry entry.1 entry.2)

def checks (place : Place) : List Check :=
  place.tests.map (Check.mk place)

end Place

namespace Check

def under (start : Location) (check : Check) : Check :=
  { check with place := check.place.under start }

/-- Whether the field passes, unless user code fails with a text. -/
def outcome (check : Check) : Except String Bool :=
  check.test.judge check.place.traits.type check.place.value

def Passes (check : Check) : Prop :=
  check.outcome = .ok true

/-- The errors of a failed check.  If user code fails, its text takes the place of the value. -/
inductive FailsWith (check : Check) : ValidationError → Prop
  | refused (judged : check.outcome = .ok false) :
      FailsWith check (.field check.place.location.path check.place.value check.test.code)
  | broken {source : String} (judged : check.outcome = .error source) :
      FailsWith check (.validator check.place.location.path check.test.code source)

/-- What comes of a check by itself. -/
def report (check : Check) : Except ValidationError Unit :=
  match check.outcome with
  | .ok true => .ok ()
  | .ok false =>
      .error (.field check.place.location.path check.place.value check.test.code)
  | .error source => .error (.validator check.place.location.path check.test.code source)

theorem report_of_outcome {check : Check} {passes : Bool} (judged : check.outcome = .ok passes) :
    check.report =
      if passes then .ok ()
      else .error (.field check.place.location.path check.place.value check.test.code) := by
  rw [report, judged]
  cases passes <;> rfl

theorem forM_cons_of_outcome {check : Check} {passes : Bool} {checks : List Check}
    (judged : check.outcome = .ok passes) :
    (check :: checks).forM Check.report =
      if passes then checks.forM Check.report
      else .error (.field check.place.location.path check.place.value check.test.code) := by
  change (check.report >>= fun _ => checks.forM Check.report) = _
  rw [report_of_outcome judged]
  cases passes <;> rfl

theorem report_eq_ok_iff {check : Check} : check.report = .ok () ↔ check.Passes := by
  rw [report, Passes]
  split <;> simp_all

theorem report_eq_error_iff {check : Check} {error : ValidationError} :
    check.report = .error error ↔ check.FailsWith error := by
  constructor
  · intro failed
    rw [report] at failed
    split at failed
    · cases failed
    · next judged =>
        cases failed
        exact .refused judged
    · next judged =>
        cases failed
        exact .broken judged
  · rintro (judged | judged) <;> rw [report, judged]

theorem report_under (start : Location) (check : Check) :
    (check.under start).report = check.report.mapError (·.under start.path) := by
  have moved : (check.under start).place.location.path =
      Path.join start.path check.place.location.path := Location.path_append _ _
  have same : (check.under start).outcome = check.outcome := rfl
  rw [report, report, same, moved]
  rcases check.outcome with source | passes
  · rfl
  · cases passes <;> rfl

end Check

theorem Place.checks_under (start : Location) (places : List Place) :
    (places.map (Place.under start)).flatMap Place.checks =
      (places.flatMap Place.checks).map (Check.under start) := by
  rw [List.flatMap_map, List.map_flatMap]
  congr 1
  funext place
  rw [Place.checks, Place.checks, List.map_map]
  rfl

namespace Schema

/-- All checks of a document, in order. -/
def checks (schema : Schema) (document : Document) : List Check :=
  (schema.places document).flatMap Place.checks

section Validate

variable {traits : PropertyTraits} {value : Value} {schema nested : Schema} {document : Document}

/-- Whether every entry for a built-in check is one that the type has. -/
def KnowsChecks (traits : PropertyTraits) : Prop :=
  ∀ name parameter, (name, Validator.builtin parameter) ∈ traits.validators →
    traits.type.TakesCheck name parameter

theorem testValidator_eq {name : String} {validator : Validator}
    (known : ∀ parameter, validator = .builtin parameter →
      traits.type.TakesCheck name parameter) :
    PropertyTraits.testValidator traits.type value name validator =
      (Check.mk ⟨[], traits, value⟩ (.entry name validator)).report := by
  cases validator with
  | custom predicate =>
      rw [PropertyTraits.testValidator, Check.report, Check.outcome, ValueTest.judge]
      rcases predicate value with source | passes
      · rfl
      · cases passes <;> rfl
  | builtin parameter =>
      obtain ⟨⟨check, listed, named⟩, -⟩ := known parameter rfl
      rw [PropertyTraits.testValidator, Check.report_of_outcome rfl]
      cases found : traits.type.builtinCheck? name with
      | none => simpa [named] using List.find?_eq_none.mp found check listed
      | some check => rfl

theorem testValidators_eq {validators : List (String × Validator)}
    (known : ∀ name parameter, (name, Validator.builtin parameter) ∈ validators →
      traits.type.TakesCheck name parameter) :
    PropertyTraits.testValidators traits.type value validators =
      ((validators.map fun entry => ValueTest.entry entry.1 entry.2).map
        (Check.mk ⟨[], traits, value⟩)).forM Check.report := by
  induction validators with
  | nil => rfl
  | cons entry validators induction =>
      obtain ⟨name, validator⟩ := entry
      rw [PropertyTraits.testValidators, induction fun other parameter later =>
        known other parameter (List.mem_cons_of_mem _ later), testValidator_eq]
      · rfl
      · rintro parameter rfl
        exact known name parameter List.mem_cons_self

theorem testNull_eq (isNull : value.isNull = true) :
    traits.testNull value = (Place.checks ⟨[], traits, value⟩).forM Check.report := by
  rw [Place.checks, Place.tests, if_pos isNull, PropertyTraits.testNull]
  cases traits.builtinParameter? BuiltinCheck.notNull.name with
  | none => rfl
  | some parameter =>
      rw [Option.toList_some, List.map_singleton, List.map_singleton,
        Check.forM_cons_of_outcome rfl]
      rfl

theorem testValue_eq (known : KnowsChecks traits) (notNull : value.isNull = false) :
    traits.testValue value = (Place.checks ⟨[], traits, value⟩).forM Check.report := by
  rw [Place.checks, Place.tests, notNull, if_neg Bool.false_ne_true, PropertyTraits.testValue,
    testValidators_eq known, List.map_cons, List.map_append, Check.forM_cons_of_outcome rfl]
  cases traits.type.admits value with
  | false => rfl
  | true =>
      cases traits.allowed with
      | none => rfl
      | some values =>
          rw [Option.toList_some, List.map_singleton, List.map_singleton, List.singleton_append,
            Check.forM_cons_of_outcome rfl]
          by_cases accepted : values.any value.same = true
          · simp [accepted]
          · simp [accepted, Location.path, ValueTest.code]

theorem test_eq (known : KnowsChecks traits) :
    traits.test value = (Place.checks ⟨[], traits, value⟩).forM Check.report := by
  rw [PropertyTraits.test]
  split
  · next isNull => exact testNull_eq isNull
  · next notNull => exact testValue_eq known (by simpa using notNull)

/-- What is done for a declared field, its inside apart, is what its checks report. -/
theorem validateField_eq {name : String} {property : Property}
    (declared : schema.get? name = some property) (known : KnowsChecks property.toPropertyTraits)
    (inside : validateInside property.properties value =
      ((placesInside property.properties value).flatMap Place.checks).forM Check.report) :
    validateField schema name value =
      ((placesAt schema name value).flatMap Place.checks).forM Check.report := by
  rw [validateField_of_get? declared, placesAt, declared, Place.checks_under,
    forM_map_of_mapError (Check.report_under [.field name]), List.flatMap_cons, forM_append,
    ← inside, ← test_eq known, Location.path_singleton]
  rfl

theorem validateInside_eq
    (each : ∀ fields, validateFields nested fields = (nested.checks fields).forM Check.report) :
    validateInside (some nested) value =
      ((placesInside (some nested) value).flatMap Place.checks).forM Check.report := by
  rw [validateInside_eq_forM, placesInside_eq, List.flatMap_assoc, forM_flatMap]
  congr
  funext held
  rw [each, Place.checks_under, forM_map_of_mapError (Check.report_under held.1)]
  rfl

theorem validateFields_eq (schema : Schema) :
    (schema.AllProperties fun property => KnowsChecks property.toPropertyTraits) →
      ∀ document, validateFields schema document = (schema.checks document).forM Check.report := by
  induction schema using Schema.induction with
  | step schema induction =>
      intro known document
      rw [validateFields_eq_forM, checks, places_eq, List.flatMap_assoc, forM_flatMap]
      congr
      funext ⟨name, value⟩
      cases declared : schema.get? name with
      | none =>
          rw [validateField, placesAt, declared]
          rfl
      | some property =>
          have listed := (get?_eq_some declared).1
          refine validateField_eq declared (known.here listed) ?_
          cases carries : property.properties with
          | none => cases value <;> rfl
          | some nested =>
              exact validateInside_eq (induction property listed nested carries
                (known.of_carries listed carries))

theorem knowsChecks_of_ofDeclarations {declarations : Declarations}
    (normalized : ofDeclarations declarations = .ok schema) :
    schema.AllProperties fun property => KnowsChecks property.toPropertyTraits := by
  intro inner nests property member checkName parameter listed
  obtain ⟨name, path, top, declaration, normalizedProperty⟩ :=
    Declaration.exists_declaration_of_nests (normalizeAll_of_ofDeclarations normalized) nests member
  obtain ⟨type, -, -, traits⟩ := Declaration.normalize_eq_ok_iff.mp normalizedProperty
  exact Declaration.takesCheck_of_normalTraits traits listed

end Validate

/-- Validation runs the checks in order and reports the first that fails: with its code, the
path of its field, and the value there or, if user code failed, the text of the failure.  The
checks are those of all declared fields at every depth, in the order of the document. -/
theorem validate_reports_first_failure {declarations : Declarations} {schema : Schema}
    (normalized : ofDeclarations declarations = .ok schema) (document : Document) :
    schema.validate document = (schema.checks document).forM Check.report ∧
    (schema.validate document = .ok () ↔ ∀ check ∈ schema.checks document, check.Passes) ∧
    (∀ error, schema.validate document = .error error ↔
      ∃ before first after, schema.checks document = before ++ first :: after ∧
        (∀ check ∈ before, check.Passes) ∧ first.FailsWith error) ∧
    ((Value.map document).isDistinct = true →
      Location.Enumerates Place.location (Value.map document).namesAt (schema.places document)
        (schema.HasPlace document)) := by
  have runs := validateFields_eq schema (knowsChecks_of_ofDeclarations normalized) document
  refine ⟨runs, ?_, ?_, enumerates_places schema (ofDeclarations_isDeeplyNormal normalized)
    document⟩
  · rw [validate, runs, forM_eq_ok_iff]
    simp only [Check.report_eq_ok_iff]
  · intro error
    rw [validate, runs, forM_eq_error_iff]
    simp only [Check.report_eq_ok_iff, Check.report_eq_error_iff]

/-- A parcel that stops in a city to which no parcels go. -/
def strayParcel : Document :=
  [("zone", .string "south"),
    ("stops", .list [.map [("city", .string "Oslo")], .null, .map [("city", .string "Paris")]]),
    ("id", .null), ("sent", .string "never")]

theorem validate_reports_first_failure_of_parcel :
    ∃ schema, ofDeclarations parcelDeclarations = .ok schema ∧
      (schema.checks strayParcel).forM Check.report =
        .error (.field "stops[2].city" (.string "Paris") "enum") ∧
      (∃ before first after, schema.checks strayParcel = before ++ first :: after ∧
        (∀ check ∈ before, check.Passes) ∧
          first.FailsWith (.field "stops[2].city" (.string "Paris") "enum")) ∧
      Location.Enumerates Place.location (Value.map strayParcel).namesAt
        (schema.places strayParcel) (schema.HasPlace strayParcel) := by
  have refused : ∃ schema, ofDeclarations parcelDeclarations = .ok schema ∧
      schema.validate strayParcel = .error (.field "stops[2].city" (.string "Paris") "enum") :=
    ⟨_, rfl, rfl⟩
  obtain ⟨schema, normalized, failed⟩ := refused
  obtain ⟨runs, -, fails, ordered⟩ := validate_reports_first_failure normalized strayParcel
  exact ⟨schema, normalized, runs ▸ failed, (fails _).mp failed, ordered (by decide)⟩

/-- A predicate that asks elsewhere, and gets no answer. -/
def remoteDeclarations : Declarations :=
  [("a", {
    type := "STRING"
    validators := [("remote", .custom fun _ => .error "lookup failed")] })]

/-- Not every failure is reported with the value of the field. -/
theorem broken_predicate_reports_no_value :
    ¬ ∀ declarations schema document error, ofDeclarations declarations = .ok schema →
      schema.validate document = .error error → ∃ check ∈ schema.checks document,
        error = .field check.place.location.path check.place.value check.test.code := by
  intro carries
  have broken : ∃ schema, ofDeclarations remoteDeclarations = .ok schema ∧
      schema.validate [("a", .string "x")] = .error (.validator "a" "remote" "lookup failed") :=
    ⟨_, rfl, rfl⟩
  obtain ⟨schema, normalized, failed⟩ := broken
  obtain ⟨check, -, same⟩ := carries _ _ _ _ normalized failed
  cases same

end Schema

end ItemTable
