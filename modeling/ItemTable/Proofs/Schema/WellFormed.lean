import ItemTable.Proofs.Schema.Normal
import Mathlib.Data.List.Forall2

/-!
# Which declarations are accepted

Declarations get past the checks of every level exactly when they are well-formed at every
depth, and the schema then carries over what they say.  Cycles of templates are looked
for only afterwards, on the whole schema.
-/

namespace ItemTable

/-- What a type demands of an entry for a built-in check: the type has a check of this name,
and where dates are compared there is a date to compare with. -/
structure AttributeType.TakesCheck (type : AttributeType) (name : String) (parameter : Value) :
    Prop where
  known : ∃ check ∈ type.builtinChecks, check.name = name
  dated : name = "isBefore" ∨ name = "isAfter" → ∃ instant, parameter.toInstant? = some instant

/-- What a level that declares `names` demands of the traits of a property of a type. -/
structure DeclaredTraits.IsWellFormed (traits : DeclaredTraits) (top : Bool)
    (type : AttributeType) (names : List String) : Prop where
  allowed : ∀ value, traits.allowed = some value → value = .null ∨ ∃ values, value = .list values
  validators : ∀ name parameter, (name, Validator.builtin parameter) ∈ traits.validators →
    type.TakesCheck name parameter
  composite : ∀ source, traits.composite = some source →
    top = true ∧ type = .string ∧ traits.default = none ∧ traits.hooks.onCreate = none
  references : ∀ source, traits.composite = some source →
    ∀ name ∈ Template.references ⟨source⟩, name ∈ names

/-- Declarations that are well-formed at their own level, which may be the top, and at all
levels inside. -/
inductive Declarations.IsWellFormed : Bool → Declarations → Prop
  | level {top : Bool} {declarations : Declarations}
      (undotted : ∀ name ∈ Entries.names declarations, '.' ∉ name.toList)
      (distinct : (Entries.names declarations).Nodup)
      (traits : ∀ entry ∈ declarations, ∃ type,
        AttributeType.ofSpelling? entry.2.type = some type ∧
        (∀ nested, entry.2.properties = some nested → type = .list ∨ type = .object) ∧
        entry.2.toDeclaredTraits.IsWellFormed top type (Entries.names declarations))
      (inside : ∀ entry ∈ declarations, ∀ nested, entry.2.properties = some nested →
        IsWellFormed false nested) :
      IsWellFormed top declarations

/-- What becomes of declared traits.  A template takes the place of the default and of the
create hook; all else is kept. -/
structure DeclaredTraits.Becomes (traits : DeclaredTraits) (name : String)
    (normal : PropertyTraits) : Prop where
  name : normal.name = name
  type : AttributeType.ofSpelling? traits.type = some normal.type
  required : normal.required = traits.required
  composite : normal.composite = traits.composite.map Template.mk
  installed : ∀ template, normal.composite = some template →
    normal.default = some (.composite template) ∧
      normal.hooks.onCreate = some template.toHook
  plain : normal.composite = none →
    normal.default = traits.default ∧ normal.hooks.onCreate = traits.hooks.onCreate
  onUpdate : normal.hooks.onUpdate = traits.hooks.onUpdate
  onUpsert : normal.hooks.onUpsert = traits.hooks.onUpsert
  get : normal.get = traits.get
  set : normal.set = traits.set
  allowed : ∀ values, normal.allowed = some values ↔ traits.allowed = some (.list values)
  validators : normal.validators = traits.validators
  format : normal.format = traits.format.getD .iso

/-- A schema that says at every level what the declarations say, in the same order. -/
inductive Declarations.CarriedOver : Declarations → Schema → Prop
  | nil : CarriedOver [] []
  | flat {traits : DeclaredTraits} {name : String} {normal : PropertyTraits}
      {declarations : Declarations} {schema : Schema} (becomes : traits.Becomes name normal)
      (rest : CarriedOver declarations schema) :
      CarriedOver ((name, ⟨traits, none⟩) :: declarations) (⟨normal, none⟩ :: schema)
  | nested {traits : DeclaredTraits} {name : String} {normal : PropertyTraits}
      {declarations nested : Declarations} {schema inner : Schema}
      (becomes : traits.Becomes name normal) (inside : CarriedOver nested inner)
      (rest : CarriedOver declarations schema) :
      CarriedOver ((name, ⟨traits, some nested⟩) :: declarations) (⟨normal, some inner⟩ :: schema)

/-- What holds of declarations if it holds of the declarations inside them, holds of all. -/
theorem Declarations.induction {holds : Declarations → Prop}
    (step : ∀ declarations : Declarations,
      (∀ entry ∈ declarations, ∀ nested, entry.2.properties = some nested → holds nested) →
        holds declarations) (declarations : Declarations) : holds declarations := by
  apply step
  intro entry member nested carries
  exact Declarations.induction step nested
termination_by sizeOf declarations
decreasing_by
  have smaller := List.sizeOf_lt_of_mem member
  obtain ⟨name, traits, properties⟩ := entry
  cases carries
  simp only [Prod.mk.sizeOf_spec, Declaration.mk.sizeOf_spec, Option.some.sizeOf_spec] at smaller
  omega

/-- A list has a related one if each of its members has something related. -/
theorem exists_forall₂_iff {α β : Type} {related : α → β → Prop} {items : List α} :
    (∃ results, List.Forall₂ related items results) ↔
      ∀ item ∈ items, ∃ result, related item result := by
  induction items with
  | nil => simp
  | cons item items induction =>
      rw [List.forall_mem_cons, ← induction]
      constructor
      · rintro ⟨_, each⟩
        cases each with
        | cons first rest => exact ⟨⟨_, first⟩, _, rest⟩
      · rintro ⟨⟨result, first⟩, results, rest⟩
        exact ⟨result :: results, .cons first rest⟩

theorem Schema.declares_iff {schema : Schema} {name : String} :
    schema.declares name = true ↔ name ∈ schema.names := by
  constructor
  · intro declared
    by_contra unlisted
    obtain ⟨property, found⟩ := Option.isSome_iff_exists.mp declared
    obtain ⟨member, rfl⟩ := get?_eq_some found
    exact unlisted (List.mem_map_of_mem member)
  · intro listed
    rw [declares, ← Option.ne_none_iff_isSome]
    intro undeclared
    exact not_mem_names_of_get? undeclared listed

theorem BuiltinCheck.comparesDates_iff (check : BuiltinCheck) :
    check.comparesDates = true ↔ check.name = "isBefore" ∨ check.name = "isAfter" := by
  cases check <;> decide

namespace Declaration

variable {name path parent : String} {top : Bool} {seen : List String} {type : AttributeType}
variable {traits : DeclaredTraits} {normal : PropertyTraits} {property : Property}
variable {declarations : Declarations} {properties : List Property}

section Traits

theorem allowedValues_eq_ok {declared : Option Value} {allowed : Option (List Value)}
    (taken : allowedValues path declared = .ok allowed) (values : List Value) :
    allowed = some values ↔ declared = some (.list values) := by
  cases declared with
  | none =>
      cases taken
      simp
  | some value => cases value <;> cases taken <;> simp

theorem exists_allowedValues_iff {declared : Option Value} :
    (∃ allowed, allowedValues path declared = .ok allowed) ↔
      ∀ value, declared = some value → value = .null ∨ ∃ values, value = .list values := by
  cases declared with
  | none => simp [allowedValues]
  | some value => cases value <;> simp [allowedValues]

theorem testValidators_eq_ok_iff {validators : List (String × Validator)} :
    testValidators path type validators = .ok () ↔
      ∀ name parameter, (name, Validator.builtin parameter) ∈ validators →
        type.TakesCheck name parameter := by
  induction validators with
  | nil => simp [testValidators]
  | cons entry validators induction =>
      obtain ⟨entryName, validator⟩ := entry
      cases validator with
      | custom predicate => simpa [testValidators] using induction
      | builtin entryParameter =>
          have cons_iff : (∀ name parameter, (name, Validator.builtin parameter) ∈
                (entryName, Validator.builtin entryParameter) :: validators →
                  type.TakesCheck name parameter) ↔
              type.TakesCheck entryName entryParameter ∧
                testValidators path type validators = .ok () := by
            rw [induction]
            constructor
            · intro all
              exact ⟨all _ _ List.mem_cons_self,
                fun name parameter later => all name parameter (List.mem_cons_of_mem _ later)⟩
            · rintro ⟨here, rest⟩ name parameter member
              rcases List.mem_cons.mp member with same | later
              · cases same
                exact here
              · exact rest name parameter later
          rw [cons_iff, testValidators]
          cases found : type.builtinCheck? entryName with
          | none =>
              refine iff_of_false (by simp) ?_
              rintro ⟨⟨⟨check, member, named⟩, -⟩, -⟩
              simpa [named] using List.find?_eq_none.mp found check member
          | some check =>
              have named : check.name = entryName := by simpa using List.find?_some found
              have dated : check.comparesDates = true ↔
                  entryName = "isBefore" ∨ entryName = "isAfter" := by
                rw [check.comparesDates_iff, named]
              dsimp only
              split
              · next undated =>
                  rw [Bool.and_eq_true, Option.isNone_iff_eq_none, dated] at undated
                  refine iff_of_false (by simp) ?_
                  rintro ⟨takes, -⟩
                  obtain ⟨instant, read⟩ := takes.dated undated.1
                  rw [undated.2] at read
                  cases read
              · next suits =>
                  rw [Bool.and_eq_true, Option.isNone_iff_eq_none, dated, not_and] at suits
                  refine (and_iff_right ⟨⟨check, List.mem_of_find?_eq_some found, named⟩, ?_⟩).symm
                  intro compares
                  exact Option.ne_none_iff_exists'.mp (suits compares)

theorem compositeTemplate_eq_ok {composite : Option Template}
    (taken : compositeTemplate path top type traits = .ok composite) :
    composite = traits.composite.map Template.mk := by
  unfold compositeTemplate at taken
  cases declared : traits.composite with
  | none =>
      rw [declared] at taken
      cases taken
      rfl
  | some source =>
      rw [declared] at taken
      dsimp only at taken
      split at taken
      · cases taken
      · split at taken
        · cases taken
        · split at taken
          · cases taken
          · cases taken
            rfl

theorem exists_compositeTemplate_iff :
    (∃ composite, compositeTemplate path top type traits = .ok composite) ↔
      ∀ source, traits.composite = some source →
        top = true ∧ type = .string ∧ traits.default = none ∧ traits.hooks.onCreate = none := by
  unfold compositeTemplate
  cases traits.composite with
  | none => simp
  | some source =>
      dsimp only
      split
      · next nested => simp [show top = false by simpa using nested]
      · next isTop =>
          split
          · next notString => simp [notString]
          · next isString =>
              split
              · next taken =>
                  refine iff_of_false (by simp) ?_
                  intro all
                  obtain ⟨-, -, noDefault, noHook⟩ := all source rfl
                  simp [noDefault, noHook] at taken
              · next free =>
                  refine iff_of_true ⟨_, rfl⟩ ?_
                  rintro _ -
                  exact ⟨by simpa using isTop, not_not.mp isString, by simpa using free⟩

theorem normalTraits_becomes (resolved : AttributeType.ofSpelling? traits.type = some type)
    (normalized : normalTraits name path top type traits = .ok normal) :
    traits.Becomes name normal := by
  simp only [normalTraits, bind_eq_ok_iff] at normalized
  obtain ⟨allowed, taken, ⟨⟩, -, composite, declared, built⟩ := normalized
  cases built
  have kept := compositeTemplate_eq_ok declared
  cases composite with
  | none =>
      exact ⟨rfl, resolved, rfl, kept, by rintro template ⟨⟩, fun _ => ⟨rfl, rfl⟩, rfl, rfl, rfl,
        rfl, allowedValues_eq_ok taken, rfl, rfl⟩
  | some template =>
      refine ⟨rfl, resolved, rfl, kept, ?_, by rintro ⟨⟩, rfl, rfl, rfl, rfl,
        allowedValues_eq_ok taken, rfl, rfl⟩
      rintro other ⟨⟩
      exact ⟨rfl, rfl⟩

theorem exists_normalTraits_iff :
    (∃ normal, normalTraits name path top type traits = .ok normal) ↔
      (∃ allowed, allowedValues path traits.allowed = .ok allowed) ∧
      testValidators path type traits.validators = .ok () ∧
      ∃ composite, compositeTemplate path top type traits = .ok composite := by
  simp only [normalTraits, bind_eq_ok_iff]
  constructor
  · rintro ⟨normal, allowed, taken, ⟨⟩, tested, composite, declared, -⟩
    exact ⟨⟨allowed, taken⟩, tested, composite, declared⟩
  · rintro ⟨⟨allowed, taken⟩, tested, composite, declared⟩
    exact ⟨_, allowed, taken, (), tested, composite, declared, rfl⟩

theorem takesCheck_of_normalTraits
    (normalized : normalTraits name path top type traits = .ok normal)
    {checkName : String} {parameter : Value}
    (member : (checkName, Validator.builtin parameter) ∈ normal.validators) :
    normal.type.TakesCheck checkName parameter := by
  obtain ⟨-, tested, -⟩ := exists_normalTraits_iff.mp ⟨normal, normalized⟩
  have kept : normal.type = type ∧ normal.validators = traits.validators := by
    simp only [normalTraits, bind_eq_ok_iff] at normalized
    obtain ⟨_, -, _, -, _, -, ⟨⟩⟩ := normalized
    exact ⟨rfl, rfl⟩
  rw [kept.2] at member
  rw [kept.1]
  exact testValidators_eq_ok_iff.mp tested checkName parameter member

end Traits

section Levels

theorem isScalar_eq_false_iff : type.isScalar = false ↔ type = .list ∨ type = .object := by
  cases type <;> decide

theorem exists_normalizeInside_iff {nested : Option Declarations} :
    (∃ inside, normalizeInside path type nested = .ok inside) ↔
      ∀ declarations, nested = some declarations → (type = .list ∨ type = .object) ∧
        ∃ properties, normalizeLevel (insidePath path type) false declarations = .ok properties := by
  cases nested with
  | none => simp [normalizeInside]
  | some declarations =>
      simp only [normalizeInside_some, Option.some.injEq, forall_eq', ← isScalar_eq_false_iff]
      cases type.isScalar with
      | true => simp
      | false => simp [map_eq_ok_iff]

theorem exists_normalize_iff {declaration : Declaration} :
    (∃ property, normalize name path top declaration = .ok property) ↔
      ∃ type, AttributeType.ofSpelling? declaration.type = some type ∧
        (∃ inside, normalizeInside path type declaration.properties = .ok inside) ∧
        ∃ normal, normalTraits name path top type declaration.toDeclaredTraits = .ok normal := by
  simp only [normalize_eq_ok_iff]
  constructor
  · rintro ⟨property, type, resolved, inside, normalized⟩
    exact ⟨type, resolved, ⟨_, inside⟩, _, normalized⟩
  · rintro ⟨type, resolved, ⟨inside, normalizedInside⟩, normal, normalized⟩
    exact ⟨⟨normal, inside⟩, type, resolved, normalizedInside, normalized⟩

theorem exists_normalizeAll_iff :
    (∃ properties, normalizeAll parent top [] declarations = .ok properties) ↔
      (∀ entry ∈ declarations, ∃ property,
        normalize entry.1 (Path.join parent entry.1) top entry.2 = .ok property) ∧
      (∀ name ∈ Entries.names declarations, '.' ∉ name.toList) ∧
      (Entries.names declarations).Nodup := by
  simp only [normalizeAll_eq_ok_iff, List.not_mem_nil, not_false_eq_true, and_true]
  rw [exists_and_right, exists_forall₂_iff]

theorem testVariables_eq_ok_iff {tested : List Property} :
    testVariables parent properties tested = .ok () ↔
      ∀ property ∈ tested, ∀ template, property.composite = some template →
        ∀ name ∈ template.references, name ∈ Schema.names properties := by
  induction tested with
  | nil => simp [testVariables]
  | cons property tested induction =>
      rw [testVariables, List.forall_mem_cons]
      have here : property.composite.bind (unknownVariable? properties) = none ↔
          ∀ template, property.composite = some template →
            ∀ name ∈ template.references, name ∈ Schema.names properties := by
        simp [unknownVariable?, Schema.declares_iff]
      cases unknown : property.composite.bind (unknownVariable? properties) with
      | none => exact induction.trans (and_iff_right (here.mp unknown)).symm
      | some name =>
          refine iff_of_false (by simp) ?_
          rintro ⟨known, -⟩
          rw [here.mpr known] at unknown
          cases unknown

theorem composite_eq_of_normalized {declaration : Declaration}
    (normalized : normalize name path top declaration = .ok property) :
    property.composite = declaration.composite.map Template.mk := by
  obtain ⟨type, resolved, -, traits⟩ := normalize_eq_ok_iff.mp normalized
  exact (normalTraits_becomes resolved traits).composite

/-- The templates of a normalized level are those that are declared. -/
theorem forall_composite_iff
    (normalized : normalizeAll parent top [] declarations = .ok properties)
    {condition : Template → Prop} :
    (∀ property ∈ properties, ∀ template, property.composite = some template →
      condition template) ↔
      ∀ entry ∈ declarations, ∀ source, entry.2.composite = some source → condition ⟨source⟩ := by
  obtain ⟨each, -⟩ := normalizeAll_eq_ok_iff.mp normalized
  clear normalized
  induction each with
  | nil => simp
  | cons first _ induction =>
      rw [List.forall_mem_cons, List.forall_mem_cons, induction,
        composite_eq_of_normalized first]
      simp

/-- A level is normalized if it is well-formed and the levels inside are normalized. -/
theorem exists_normalizeLevel_of_inside
    (inside : ∀ entry ∈ declarations, ∀ nested, entry.2.properties = some nested →
      ∀ {parent : String}, (∃ properties, normalizeLevel parent false nested = .ok properties) ↔
        Declarations.IsWellFormed false nested) :
    (∃ properties, normalizeLevel parent top declarations = .ok properties) ↔
      declarations.IsWellFormed top := by
  simp only [normalizeLevel_eq_ok_iff]
  constructor
  · rintro ⟨properties, normalized, tested⟩
    have knownNames := testVariables_eq_ok_iff.mp tested
    rw [names_eq_of_normalized normalized, forall_composite_iff normalized] at knownNames
    obtain ⟨each, undotted, distinct⟩ := exists_normalizeAll_iff.mp ⟨_, normalized⟩
    refine .level undotted distinct ?_ ?_
    · intro entry member
      obtain ⟨type, resolved, normalizedInside, normalTraits⟩ :=
        exists_normalize_iff.mp (each entry member)
      obtain ⟨allowed, validators, composite⟩ := exists_normalTraits_iff.mp normalTraits
      exact ⟨type, resolved,
        fun nested carries => (exists_normalizeInside_iff.mp normalizedInside nested carries).1,
        exists_allowedValues_iff.mp allowed, testValidators_eq_ok_iff.mp validators,
        exists_compositeTemplate_iff.mp composite, knownNames entry member⟩
    · intro entry member nested carries
      obtain ⟨type, -, normalizedInside, -⟩ := exists_normalize_iff.mp (each entry member)
      exact (inside entry member nested carries).mp
        (exists_normalizeInside_iff.mp normalizedInside nested carries).2
  · rintro ⟨undotted, distinct, traits, wellFormedInside⟩
    have each : ∀ entry ∈ declarations, ∃ property,
        normalize entry.1 (Path.join parent entry.1) top entry.2 = .ok property := by
      intro entry member
      obtain ⟨type, resolved, structural, wellFormed⟩ := traits entry member
      rw [exists_normalize_iff]
      refine ⟨type, resolved, exists_normalizeInside_iff.mpr ?_, exists_normalTraits_iff.mpr
        ⟨exists_allowedValues_iff.mpr wellFormed.allowed,
          testValidators_eq_ok_iff.mpr wellFormed.validators,
          exists_compositeTemplate_iff.mpr wellFormed.composite⟩⟩
      intro nested carries
      exact ⟨structural nested carries, (inside entry member nested carries).mpr
        (wellFormedInside entry member nested carries)⟩
    obtain ⟨properties, normalized⟩ := exists_normalizeAll_iff.mpr ⟨each, undotted, distinct⟩
    refine ⟨properties, normalized, testVariables_eq_ok_iff.mpr ?_⟩
    rw [names_eq_of_normalized normalized, forall_composite_iff normalized]
    intro entry member
    obtain ⟨type, -, -, wellFormed⟩ := traits entry member
    exact wellFormed.references

theorem exists_normalizeLevel_iff (declarations : Declarations) :
    ∀ {parent : String} {top : Bool},
      (∃ properties, normalizeLevel parent top declarations = .ok properties) ↔
        declarations.IsWellFormed top := by
  induction declarations using Declarations.induction with
  | step declarations induction =>
      intro parent top
      exact exists_normalizeLevel_of_inside fun entry member nested carries =>
        induction entry member nested carries

theorem carriedOver_of_normalized (declarations : Declarations) :
    ∀ {parent : String} {top : Bool} {properties : List Property},
      normalizeAll parent top [] declarations = .ok properties →
        declarations.CarriedOver properties := by
  induction declarations using Declarations.induction with
  | step declarations induction =>
      intro parent top properties normalized
      obtain ⟨each, -⟩ := normalizeAll_eq_ok_iff.mp normalized
      clear normalized
      induction each with
      | nil => exact .nil
      | @cons entry property declarations properties first _ listInduction =>
          have rest := listInduction fun other member =>
            induction other (List.mem_cons_of_mem _ member)
          obtain ⟨type, resolved, inside, traits⟩ := normalize_eq_ok_iff.mp first
          have becomes := normalTraits_becomes resolved traits
          have inductionHere := induction entry List.mem_cons_self
          obtain ⟨name, declared, nested⟩ := entry
          obtain ⟨normal, carried⟩ := property
          cases nested with
          | none =>
              rw [normalizeInside] at inside
              cases inside
              exact .flat becomes rest
          | some nested =>
              rw [normalizeInside_some] at inside
              split at inside
              · cases inside
              · obtain ⟨inner, normalizedInner, same⟩ := map_eq_ok_iff.mp inside
                cases same
                exact .nested becomes (inductionHere nested rfl
                  (normalizeLevel_eq_ok_iff.mp normalizedInner).1) rest

end Levels

section Faults

/-- The outcome of a step that never reports a cycle. -/
def ReportsNoCycle {α : Type} (outcome : Except SchemaError α) : Prop :=
  ∀ error, outcome = .error error → ∀ name, error.fault ≠ .compositeCycle name

theorem ReportsNoCycle.ok {α : Type} (result : α) : ReportsNoCycle (.ok result) := by
  rintro error ⟨⟩

theorem ReportsNoCycle.bind {α β : Type} {first : Except SchemaError α}
    {next : α → Except SchemaError β} (reports : ReportsNoCycle first)
    (reportsNext : ∀ result, ReportsNoCycle (next result)) : ReportsNoCycle (first >>= next) := by
  cases first with
  | error cause =>
      intro error same
      cases same
      exact reports _ rfl
  | ok result => exact reportsNext result

theorem allowedValues_reportsNoCycle {declared : Option Value} :
    ReportsNoCycle (allowedValues path declared) := by
  unfold allowedValues
  split
  · exact .ok none
  · exact .ok none
  · exact .ok _
  · rintro error ⟨⟩
    simp

theorem testValidators_reportsNoCycle {validators : List (String × Validator)} :
    ReportsNoCycle (testValidators path type validators) := by
  induction validators with
  | nil => exact .ok ()
  | cons entry validators induction =>
      obtain ⟨entryName, validator⟩ := entry
      cases validator with
      | custom predicate => exact induction
      | builtin parameter =>
          rw [testValidators]
          split
          · rintro error ⟨⟩
            simp
          · split
            · rintro error ⟨⟩
              simp
            · exact induction

theorem compositeTemplate_reportsNoCycle :
    ReportsNoCycle (compositeTemplate path top type traits) := by
  unfold compositeTemplate
  split
  · exact .ok none
  · split
    · rintro error ⟨⟩
      simp
    · split
      · rintro error ⟨⟩
        simp
      · split
        · rintro error ⟨⟩
          simp
        · exact .ok _

theorem testVariables_reportsNoCycle {tested : List Property} :
    ReportsNoCycle (testVariables parent properties tested) := by
  induction tested with
  | nil => exact .ok ()
  | cons property tested induction =>
      rw [testVariables]
      split
      · rintro error ⟨⟩
        simp
      · exact induction

theorem normalTraits_reportsNoCycle :
    ReportsNoCycle (normalTraits name path top type traits) :=
  allowedValues_reportsNoCycle.bind fun _ => testValidators_reportsNoCycle.bind fun _ =>
    compositeTemplate_reportsNoCycle.bind fun _ => .ok _

theorem normalizeAll_reportsNoCycle (declarations : Declarations) :
    ∀ {parent : String} {top : Bool} {seen : List String},
      ReportsNoCycle (normalizeAll parent top seen declarations) := by
  induction declarations using Declarations.induction with
  | step declarations induction =>
      intro parent top seen
      induction declarations generalizing seen with
      | nil => exact .ok []
      | cons entry declarations listInduction =>
          have rest : ∀ {seen : List String},
              ReportsNoCycle (normalizeAll parent top seen declarations) :=
            listInduction fun other member => induction other (List.mem_cons_of_mem _ member)
          have inductionHere := induction entry List.mem_cons_self
          obtain ⟨name, declaration⟩ := entry
          have reports : ReportsNoCycle (normalize name (Path.join parent name) top declaration) := by
            rw [normalize_eq]
            split
            · rintro error ⟨⟩
              simp
            · next type _ =>
                refine .bind ?_ fun _ => normalTraits_reportsNoCycle.bind fun _ => .ok _
                cases carried : declaration.properties with
                | none => exact .ok none
                | some nested =>
                    rw [normalizeInside]
                    split
                    · rintro error ⟨⟩
                      simp
                    · exact (inductionHere nested carried).bind fun _ =>
                        testVariables_reportsNoCycle.bind fun _ => .ok _
          simp only [normalizeAll]
          split
          · rintro error ⟨⟩
            simp
          · split
            · rintro error ⟨⟩
              simp
            · exact reports.bind fun _ => rest.bind fun _ => .ok _

theorem normalizeLevel_reportsNoCycle :
    ReportsNoCycle (normalizeLevel parent top declarations) :=
  (normalizeAll_reportsNoCycle declarations).bind fun _ =>
    testVariables_reportsNoCycle.bind fun _ => .ok _

end Faults

end Declaration

namespace Schema

open Declaration

/-- Declarations get past the tests of their levels if a schema or a cycle is found. -/
theorem exists_ofLevel_iff {declarations : Declarations} :
    (∃ schema, ofLevel declarations = .ok schema) ↔
      (∃ schema, ofDeclarations declarations = .ok schema) ∨
        ∃ path name, ofDeclarations declarations = .error ⟨path, .compositeCycle name⟩ := by
  have reports : ReportsNoCycle (ofLevel declarations) := normalizeLevel_reportsNoCycle
  rw [ofDeclarations]
  cases levelled : ofLevel declarations with
  | error error =>
      refine iff_of_false (by simp) ?_
      rintro (⟨schema, ⟨⟩⟩ | ⟨path, name, same⟩)
      cases same
      exact reports _ levelled name rfl
  | ok schema =>
      refine iff_of_true ⟨schema, rfl⟩ ?_
      cases traced : schema.findSome? (cycleFrom? schema) with
      | none => exact Or.inl ⟨schema, by simp [bind, Except.bind, traced]; rfl⟩
      | some error =>
          obtain ⟨property, -, cycle⟩ := List.exists_of_findSome?_eq_some traced
          simp only [cycleFrom?, Option.bind_eq_bind, Option.bind_eq_some_iff,
            Option.some.injEq] at cycle
          obtain ⟨template, -, name, -, rfl⟩ := cycle
          exact Or.inr ⟨property.name, name, by simp [bind, Except.bind, traced]⟩

/-- Declarations get past the tests of their levels exactly when they are well-formed, and a
schema says at every level what they say. -/
theorem accepts_wellFormed (declarations : Declarations) :
    (((∃ schema, ofDeclarations declarations = .ok schema) ∨
        ∃ path name, ofDeclarations declarations = .error ⟨path, .compositeCycle name⟩) ↔
      declarations.IsWellFormed true) ∧
    ∀ schema, ofDeclarations declarations = .ok schema → declarations.CarriedOver schema := by
  constructor
  · rw [← exists_ofLevel_iff]
    exact exists_normalizeLevel_iff declarations
  · intro schema normalized
    exact carriedOver_of_normalized declarations (normalizeAll_of_ofDeclarations normalized)

/-- Parcels have a label, a day on which they are sent and stops with a city each. -/
def parcelDeclarations : Declarations :=
  [("id", { type := " Text", required := true }),
    ("label", { type := "string", composite := some "{id}/{zone}" }),
    ("zone", { type := "str", default := some (.constant (.string "north")) }),
    ("sent", {
      type := "date", allowed := some .null, format := some .number
      validators := [("isAfter", .builtin (.string "2020-01-01T00:00:00Z"))] }),
    ("stops", {
      type := "list"
      properties := some [("city", {
        type := "string", allowed := some (.list [.string "Oslo", .string "Rome"])
        validators := [("notEmpty", .builtin (.bool true))] })] })]

theorem accepts_wellFormed_of_parcel :
    ∃ schema, ofDeclarations parcelDeclarations = .ok schema ∧
      parcelDeclarations.IsWellFormed true ∧ parcelDeclarations.CarriedOver schema := by
  obtain ⟨accepted, carried⟩ := accepts_wellFormed parcelDeclarations
  exact ⟨_, rfl, accepted.mp (Or.inl ⟨_, rfl⟩), carried _ rfl⟩

end Schema

end ItemTable
