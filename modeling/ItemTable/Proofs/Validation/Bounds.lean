import ItemTable.Proofs.Validation.Checks

/-!
# Bounds of dates

A schema is tested once, when it is normalized: every built-in check that it names is one that
the type of the property has, and every comparison has a date to compare with.  So validation
never meets a check that it does not know, and a comparison fails only for a date that is on
the wrong side of its bound.
-/

namespace ItemTable

namespace BuiltinCheck

variable {check other : BuiltinCheck} {type : AttributeType} {parameter : Value}

/-- Whether two dates are in the order that a comparison asks for. -/
def ordersDates : BuiltinCheck → Instant → Instant → Bool
  | isBefore, instant, bound => instant.before bound
  | isAfter, instant, bound => bound.before instant
  | _, _, _ => true

theorem eq_of_name_eq : check.name = other.name → check = other := by
  cases check <;> cases other <;> decide

theorem eq_date_of_comparesDates :
    check ∈ type.builtinChecks → check.comparesDates = true → type = .date := by
  cases type <;> cases check <;> decide

theorem builtinCheck?_of_comparesDates :
    check.comparesDates = true → AttributeType.date.builtinCheck? check.name = some check := by
  cases check <;> decide

theorem passes_eq_ordersDates {instant bound : Instant}
    (read : parameter.toInstant? = some bound) (compares : check.comparesDates = true) :
    check.passes .date (.date instant) parameter = check.ordersDates instant bound := by
  cases check with
  | isBefore => simp only [passes, read, ordersDates]
  | isAfter => simp only [passes, read, ordersDates]
  | _ => cases compares

/-- Where a comparison of dates is declared, the type is a date and there is a bound. -/
theorem date_of_takesCheck (takes : type.TakesCheck check.name parameter)
    (compares : check.comparesDates = true) :
    type = .date ∧ ∃ bound, parameter.toInstant? = some bound := by
  obtain ⟨listed, member, named⟩ := takes.known
  rw [eq_of_name_eq named] at member
  exact ⟨eq_date_of_comparesDates member compares,
    takes.dated (check.comparesDates_iff.mp compares)⟩

end BuiltinCheck

namespace Check

variable {check : Check} {error : ValidationError}

/-- A date that is not in the order with its bound that a comparison asks for. -/
structure MissesBound (check : Check) (comparison : BuiltinCheck) (parameter : Value)
    (instant bound : Instant) : Prop where
  test : check.test = .entry comparison.name (.builtin parameter)
  date : check.place.value = .date instant
  read : parameter.toInstant? = some bound
  missed : comparison.ordersDates instant bound = false

/-- The built-in check of a failed test refused the value. -/
theorem FailsWith.of_builtin {name : String} {parameter : Value} (fails : check.FailsWith error)
    (test : check.test = .entry name (.builtin parameter)) :
    (check.place.traits.type.builtinCheck? name).any
      (·.passes check.place.traits.type check.place.value parameter) = false := by
  cases fails with
  | refused judged =>
      rw [outcome, test, ValueTest.judge] at judged
      exact Except.ok.inj judged
  | broken judged =>
      rw [outcome, test, ValueTest.judge] at judged
      cases judged

theorem FailsWith.code?_eq (fails : check.FailsWith error) :
    error.code? = some check.test.code := by
  cases fails <;> rfl

theorem FailsWith.ne_unknownValidator (fails : check.FailsWith error) (path code : String) :
    error ≠ .unknownValidator path code := by
  cases fails <;> rintro ⟨⟩

/-- A test whose failure is reported as a comparison is an entry of that name. -/
theorem exists_entry_of_code {comparison : BuiltinCheck} {test : ValueTest}
    (compares : comparison.comparesDates = true) (named : test.code = comparison.name) :
    ∃ validator, test = .entry comparison.name validator := by
  cases test with
  | entry name validator =>
      obtain rfl : name = comparison.name := named
      exact ⟨validator, rfl⟩
  | notNull parameter =>
      have same : BuiltinCheck.notNull = comparison := BuiltinCheck.eq_of_name_eq named
      cases same
      cases compares
  | type =>
      have same : BuiltinCheck.type = comparison := BuiltinCheck.eq_of_name_eq named
      cases same
      cases compares
  | allowed values => cases comparison <;> simp [ValueTest.code, BuiltinCheck.name] at named

end Check

namespace Place

variable {place : Place} {check : Check} {earlier later : List Check} {name : String}
variable {validator : Validator}

/-- The entries of a property are tested on values other than null, after the type. -/
theorem mem_tests_entry (member : .entry name validator ∈ place.tests) :
    (name, validator) ∈ place.traits.validators ∧ ∃ rest, place.tests = .type :: rest := by
  rw [tests] at member ⊢
  split at member
  · simp at member
  · next notNull =>
      rw [if_neg notNull]
      simp only [List.mem_cons, List.mem_append, List.mem_map, reduceCtorEq, and_false,
        exists_false, false_or] at member
      obtain ⟨⟨entryName, entry⟩, listed, same⟩ := member
      cases same
      exact ⟨listed, _, rfl⟩

/-- An entry is tested only on values of the type. -/
theorem declared_of_checks_eq (split : place.checks = earlier ++ check :: later)
    (passed : ∀ other ∈ earlier, other.Passes) (test : check.test = .entry name validator) :
    check.place = place ∧ (name, validator) ∈ place.traits.validators ∧
      place.traits.type.admits place.value = true := by
  have member : check ∈ place.checks := by simp [split]
  obtain ⟨_, listed, rfl⟩ := List.mem_map.mp member
  cases test
  obtain ⟨declared, rest, tests_eq⟩ := mem_tests_entry listed
  refine ⟨rfl, declared, ?_⟩
  rw [checks, tests_eq, List.map_cons] at split
  cases earlier with
  | nil => cases (List.cons.inj split).1
  | cons first earlier =>
      obtain ⟨rfl, -⟩ := List.cons.inj split
      exact Except.ok.inj (passed _ List.mem_cons_self)

end Place

namespace Schema

variable {schema nested : Schema} {document : Document} {value : Value} {place : Place}

theorem traits_of_mem_places {condition : PropertyTraits → Prop} (schema : Schema) :
    (schema.AllProperties fun property => condition property.toPropertyTraits) →
      ∀ document, ∀ place ∈ schema.places document, condition place.traits := by
  induction schema using Schema.induction with
  | step schema induction =>
      intro all document place member
      rw [places_eq] at member
      obtain ⟨⟨name, value⟩, -, member⟩ := List.mem_flatMap.mp member
      rw [placesAt] at member
      cases declared : schema.get? name with
      | none => simp [declared] at member
      | some property =>
          have listed := (get?_eq_some declared).1
          rw [declared] at member
          obtain ⟨inner, within, rfl⟩ := List.mem_map.mp member
          rcases List.mem_cons.mp within with rfl | inside
          · exact all.here listed
          · cases carries : property.properties with
            | none => simp [carries, placesInside_none] at inside
            | some nested =>
                rw [carries, placesInside_eq] at inside
                obtain ⟨held, -, within⟩ := List.mem_flatMap.mp inside
                obtain ⟨innermost, nestedMember, rfl⟩ := List.mem_map.mp within
                exact induction property listed nested carries (all.of_carries listed carries)
                  held.2 innermost nestedMember

/-- The first check that fails, as one of the checks of its place. -/
theorem exists_place_of_failure {error : ValidationError}
    (failed : (schema.checks document).forM Check.report = .error error) :
    ∃ place ∈ schema.places document, ∃ before check after, ∃ earlier later,
      schema.checks document = before ++ earlier ++ check :: (later ++ after) ∧
      place.checks = earlier ++ check :: later ∧
      (∀ other ∈ before ++ earlier, other.Passes) ∧ check.FailsWith error := by
  rw [checks, forM_flatMap, forM_eq_error_iff] at failed
  obtain ⟨front, place, back, placesSplit, frontPassed, failed⟩ := failed
  obtain ⟨earlier, check, later, checksSplit, passed, reported⟩ := forM_eq_error_iff.mp failed
  refine ⟨place, by simp [placesSplit], front.flatMap Place.checks, check,
    back.flatMap Place.checks, earlier, later, ?_, checksSplit, ?_,
    Check.report_eq_error_iff.mp reported⟩
  · simp [checks, placesSplit, checksSplit]
  · intro other member
    rcases List.mem_append.mp member with inFront | inPlace
    · obtain ⟨otherPlace, listed, tested⟩ := List.mem_flatMap.mp inFront
      exact Check.report_eq_ok_iff.mp
        (forM_eq_ok_iff.mp (frontPassed otherPlace listed) other tested)
    · exact Check.report_eq_ok_iff.mp (passed other inPlace)

/-- A failed comparison of a place whose checks are known is that of a date with its bound. -/
theorem missesBound_of_failure {comparison : BuiltinCheck} {check : Check}
    {earlier later : List Check} {error : ValidationError} {parameter : Value}
    (known : KnowsChecks place.traits) (compares : comparison.comparesDates = true)
    (split : place.checks = earlier ++ check :: later)
    (passed : ∀ other ∈ earlier, other.Passes) (fails : check.FailsWith error)
    (test : check.test = .entry comparison.name (.builtin parameter)) :
    ∃ instant bound, check.MissesBound comparison parameter instant bound := by
  obtain ⟨rfl, declared, admitted⟩ := Place.declared_of_checks_eq split passed test
  obtain ⟨isDate, bound, read⟩ := BuiltinCheck.date_of_takesCheck (known _ _ declared) compares
  have refused := fails.of_builtin test
  rw [isDate] at admitted refused
  cases dated : check.place.value with
  | date instant =>
      rw [BuiltinCheck.builtinCheck?_of_comparesDates compares, dated, Option.any_some,
        BuiltinCheck.passes_eq_ordersDates read compares] at refused
      exact ⟨instant, bound, test, dated, read, refused⟩
  | _ =>
      rw [dated] at admitted
      cases admitted

/-- Validation of a normalized schema knows every check that it meets.  The first check that
fails, if it is a built-in comparison, is that of a date with a bound that could be read, on
the wrong side of it. -/
theorem comparisons_have_bounds {declarations : Declarations} {schema : Schema}
    (normalized : ofDeclarations declarations = .ok schema) (document : Document) :
    (∀ path code, schema.validate document ≠ .error (.unknownValidator path code)) ∧
    ∀ error, schema.validate document = .error error →
      ∃ before check after, schema.checks document = before ++ check :: after ∧
        (∀ earlier ∈ before, earlier.Passes) ∧ check.FailsWith error ∧
        ∀ comparison, comparison = .isBefore ∨ comparison = .isAfter →
          error.code? = some comparison.name →
            (∃ predicate, check.test = .entry comparison.name (.custom predicate)) ∨
            ∃ parameter instant bound, check.MissesBound comparison parameter instant bound := by
  have known := knowsChecks_of_ofDeclarations normalized
  have runs := validateFields_eq schema known document
  have failure : ∀ error, schema.validate document = .error error →
      (schema.checks document).forM Check.report = .error error := by
    intro error failed
    rwa [validate, runs] at failed
  constructor
  · intro path code failed
    obtain ⟨_, -, _, _, _, _, _, -, -, -, fails⟩ := exists_place_of_failure (failure _ failed)
    exact fails.ne_unknownValidator path code rfl
  · intro error failed
    obtain ⟨place, listed, before, check, after, earlier, later, split, placeSplit, passed, fails⟩ :=
      exists_place_of_failure (failure _ failed)
    refine ⟨_, check, _, split, passed, fails, ?_⟩
    intro comparison isComparison coded
    have compares : comparison.comparesDates = true := by
      rcases isComparison with rfl | rfl <;> rfl
    rw [fails.code?_eq, Option.some.injEq] at coded
    obtain ⟨validator, test⟩ := Check.exists_entry_of_code compares coded
    cases validator with
    | custom predicate => exact Or.inl ⟨predicate, test⟩
    | builtin parameter =>
        obtain ⟨instant, bound, misses⟩ := missesBound_of_failure
          (traits_of_mem_places schema known document place listed) compares placeSplit
          (fun other member => passed other (List.mem_append_right _ member)) fails test
        exact Or.inr ⟨parameter, instant, bound, misses⟩

/-- Rooms are let until a day before 2021. -/
def leaseDeclarations : Declarations :=
  [("rooms", {
      type := "list"
      properties := some [("until", {
        type := "date"
        validators := [("isBefore", .builtin (.string "2021-01-01T00:00:00Z"))] })] })]

/-- The first second of 2021. -/
def newYear : Instant :=
  .startOf 1609459200 (by decide)

/-- A lease with a room that is let up to the bound itself. -/
def longLease : Document :=
  [("rooms", .list [.map [("until", .null)], .map [("until", .date newYear)]])]

theorem comparisons_have_bounds_of_lease :
    ∃ schema, ofDeclarations leaseDeclarations = .ok schema ∧
      schema.validate longLease = .error (.field "rooms[1].until" (.date newYear) "isBefore") ∧
      ∃ check : Check, check.FailsWith (.field "rooms[1].until" (.date newYear) "isBefore") ∧
        ((∃ predicate, check.test = .entry "isBefore" (.custom predicate)) ∨
          ∃ parameter instant bound, check.MissesBound .isBefore parameter instant bound) := by
  have refused : ∃ schema, ofDeclarations leaseDeclarations = .ok schema ∧
      schema.validate longLease = .error (.field "rooms[1].until" (.date newYear) "isBefore") :=
    ⟨_, rfl, rfl⟩
  obtain ⟨schema, normalized, failed⟩ := refused
  obtain ⟨-, bounded⟩ := comparisons_have_bounds normalized longLease
  obtain ⟨before, check, after, -, -, fails, misses⟩ := bounded _ failed
  exact ⟨schema, normalized, failed, check, fails, misses .isBefore (Or.inl rfl) rfl⟩

end Schema

end ItemTable
