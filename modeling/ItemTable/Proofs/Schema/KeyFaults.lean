import ItemTable.Proofs.Outcome
import ItemTable.Proofs.Schema.Requirement
import ItemTable.Schema.Normalize

/-!
# Keys with variables that are not required

The attributes of a key are tested in order and the first fault is reported.  A composite is
at fault if it has a variable that is not required; in a primary key, any other property is at
fault if it is not required itself.
-/

namespace ItemTable.Schema

variable {schema : Schema} {name : String} {key : KeySchema} {index : String} {primary : Bool}

theorem forall_attributes {key : KeySchema} {condition : String → Prop} :
    (∀ name ∈ key.attributes, condition name) ↔
      condition key.hash ∧ ∀ name, key.range = some name → condition name := by
  cases key with
  | mk hash range => cases range <;> simp [KeySchema.attributes]

/-- Every property of a key is declared with a type for keys. -/
def DeclaresKey (schema : Schema) (key : KeySchema) : Prop :=
  ∀ name ∈ key.attributes, ∃ property, schema.get? name = some property ∧
    property.type.isKeyType = true

/-- From a variable of a key, no composite is met along two paths. -/
def SharesNothing (schema : Schema) (key : KeySchema) : Prop :=
  ∀ name ∈ key.attributes, ∀ property, schema.get? name = some property →
    ∀ template, property.composite = some template →
      ∀ variableName ∈ template.references, schema.IsUnshared variableName

/-- A composite with a variable that is not required. -/
def LacksVariable (schema : Schema) (name : String) : Prop :=
  ∃ property template, schema.get? name = some property ∧ property.composite = some template ∧
    ∃ variableName ∈ template.references, ¬ schema.IsRequired variableName

/-- A property of the primary key that is no composite and is not required. -/
def IsLeftOptional (schema : Schema) (primary : Bool) (name : String) : Prop :=
  primary = true ∧ ∃ property, schema.get? name = some property ∧ property.composite = none ∧
    property.required = false

/-- Some property of a key lacks a variable, and none before it is left optional. -/
def KeyLacksVariable (schema : Schema) (key : KeySchema) (primary : Bool) : Prop :=
  ∃ before name after, key.attributes = before ++ name :: after ∧ schema.LacksVariable name ∧
    ∀ other ∈ before, ¬ schema.IsLeftOptional primary other

/-- The key is refused because of a variable. -/
def RefusesVariable (schema : Schema) (index : String) (key : KeySchema) (primary : Bool) : Prop :=
  ∃ name variableName, schema.testKey index key primary =
    .error ⟨name, .compositeVariableNotRequired index variableName⟩

/-- The outcomes of the test of one attribute whose type is one for keys. -/
inductive Judges (schema : Schema) (index : String) (primary : Bool) (name : String) :
    Except SchemaError Unit → Prop
  | accepts (kept : ¬ schema.IsLeftOptional primary name)
      (required : ∀ property template, schema.get? name = some property →
        property.composite = some template →
          ∀ variableName ∈ template.references, schema.requires name variableName = true) :
      Judges schema index primary name (.ok ())
  | optional (left : schema.IsLeftOptional primary name) :
      Judges schema index primary name (.error ⟨name, .keyNotRequired index⟩)
  | refuses {property : Property} {template : Template} {variableName : String}
      (found : schema.get? name = some property) (composed : property.composite = some template)
      (referred : variableName ∈ template.references)
      (refused : schema.requires name variableName = false) :
      Judges schema index primary name
        (.error ⟨name, .compositeVariableNotRequired index variableName⟩)

theorem testKeyAttribute_judges (index : String) (primary : Bool)
    (declared : ∃ property, schema.get? name = some property ∧ property.type.isKeyType = true) :
    Judges schema index primary name (schema.testKeyAttribute index primary name) := by
  obtain ⟨property, found, keyType⟩ := declared
  have onlyOne : ∀ same, schema.get? name = some same → same = property := by
    intro same foundSame
    rw [found, Option.some.injEq] at foundSame
    exact foundSame.symm
  rw [testKeyAttribute]
  simp only [found, keyType, Bool.not_true, Bool.false_eq_true, if_false]
  split
  · next template composed =>
      split
      · next variableName first =>
          have refused := List.find?_some first
          rw [Bool.not_eq_true'] at refused
          exact .refuses found composed (List.mem_of_find?_eq_some first) refused
      · next allRequired =>
          refine .accepts ?_ ?_
          · rintro ⟨-, same, foundSame, underived, -⟩
            rw [onlyOne same foundSame, composed] at underived
            cases underived
          · intro same other foundSame composedOther variableName referred
            rw [onlyOne same foundSame, composed, Option.some.injEq] at composedOther
            subst composedOther
            simpa using List.find?_eq_none.mp allRequired variableName referred
  · next underived =>
      have noTemplate : ∀ same template, schema.get? name = some same →
          same.composite = some template → False := by
        intro same template foundSame composed
        rw [onlyOne same foundSame, underived] at composed
        cases composed
      cases judged : primary && !property.required with
      | true =>
          rw [Bool.and_eq_true, Bool.not_eq_true'] at judged
          exact .optional ⟨judged.1, property, found, underived, judged.2⟩
      | false =>
          refine .accepts ?_ fun same template foundSame composed =>
            (noTemplate same template foundSame composed).elim
          rintro ⟨rfl, same, foundSame, -, optional⟩
          rw [← onlyOne same foundSame, optional] at judged
          cases judged

theorem LacksVariable.refused (index : String) (primary : Bool) (lacks : schema.LacksVariable name)
    (declared : ∃ property, schema.get? name = some property ∧ property.type.isKeyType = true) :
    ∃ variableName, schema.testKeyAttribute index primary name =
      .error ⟨name, .compositeVariableNotRequired index variableName⟩ := by
  obtain ⟨property, template, found, composed, variableName, referred, optional⟩ := lacks
  have judged := testKeyAttribute_judges index primary declared
  generalize schema.testKeyAttribute index primary name = tested at judged
  cases judged with
  | accepts _ required =>
      have accepted := required property template found composed variableName referred
      exact absurd (isRequired_of_requiresFrom accepted) optional
  | optional left =>
      obtain ⟨-, same, foundSame, underived, -⟩ := left
      rw [found, Option.some.injEq] at foundSame
      rw [← foundSame, composed] at underived
      cases underived
  | refuses => exact ⟨_, rfl⟩

theorem refusesVariable_of_keyLacksVariable
    (declares : schema.DeclaresKey key) (lacks : schema.KeyLacksVariable key primary) :
    schema.RefusesVariable index key primary := by
  obtain ⟨before, name, after, split, lacks, kept⟩ := lacks
  rw [RefusesVariable, testKey]
  rw [DeclaresKey, split] at declares
  rw [split]
  clear split
  -- What stands before passes, or is refused for a variable of its own.
  induction before with
  | nil =>
      obtain ⟨variableName, refused⟩ := lacks.refused index primary (declares name (by simp))
      refine ⟨name, variableName, forM_eq_error_iff.mpr ⟨[], name, after, rfl, by simp, refused⟩⟩
  | cons first before induction =>
      rw [List.forall_mem_cons] at kept
      rw [List.cons_append, List.forall_mem_cons] at declares
      have judged := testKeyAttribute_judges index primary declares.1
      rw [List.cons_append, List.forM_eq_forM, List.forM_cons, ← List.forM_eq_forM]
      generalize schema.testKeyAttribute index primary first = tested at judged
      cases judged with
      | accepts => exact induction declares.2 kept.2
      | optional left => exact absurd left kept.1
      | refuses => exact ⟨_, _, rfl⟩

theorem keyLacksVariable_of_refusesVariable
    (declares : schema.DeclaresKey key) (unshared : schema.SharesNothing key)
    (refuses : schema.RefusesVariable index key primary) :
    schema.KeyLacksVariable key primary := by
  obtain ⟨path, variableName, failed⟩ := refuses
  rw [testKey, forM_eq_error_iff] at failed
  obtain ⟨before, name, after, split, passed, refused⟩ := failed
  rw [DeclaresKey, split] at declares
  rw [SharesNothing, split] at unshared
  refine ⟨before, name, after, split, ?_, ?_⟩
  · have judged := testKeyAttribute_judges index primary (declares name (by simp))
    rw [refused] at judged
    cases judged with
    | @refuses property template _ found composed referred refused =>
        refine ⟨property, template, found, composed, variableName, referred, ?_⟩
        have unsharedHere := unshared path (by simp) property found template composed
          variableName referred
        rw [← requires_iff found composed referred unsharedHere, refused]
        exact Bool.false_ne_true
  · intro other member
    have judged := testKeyAttribute_judges index primary
      (declares other (List.mem_append_left _ member))
    rw [passed other member] at judged
    cases judged with
    | accepts kept _ => exact kept

/-- The test of a key reports the variables that are not required.  If a property before is
left optional, that is reported in their place; and a composite that is met along two paths
may be reported although it is required. -/
theorem testKey_judges_variables (schema : Schema) (index : String) (key : KeySchema)
    (primary : Bool) (declares : schema.DeclaresKey key) :
    (schema.KeyLacksVariable key primary → schema.RefusesVariable index key primary) ∧
      (schema.SharesNothing key →
        schema.RefusesVariable index key primary → schema.KeyLacksVariable key primary) :=
  ⟨refusesVariable_of_keyLacksVariable declares, keyLacksVariable_of_refusesVariable declares⟩

/-- A memo is sorted by its label, which is only there if the memo has a title. -/
def memoDeclarations : Declarations :=
  [("id", { type := "string", required := true }),
    ("title", { type := "string" }),
    ("head", { type := "string", composite := some "{title}" }),
    ("label", { type := "string", composite := some "{id}/{head}" })]

theorem testKey_judges_variables_of_memo :
    ∃ schema, ofDeclarations memoDeclarations = .ok schema ∧
      schema.KeyLacksVariable { hash := "id", range := some "label" } true ∧
      schema.RefusesVariable "primary" { hash := "id", range := some "label" } true := by
  refine ⟨_, rfl, ?_, "label", "head", rfl⟩
  refine (testKey_judges_variables _ "primary" _ true ?_).2 ?_ ⟨"label", "head", rfl⟩
  · rw [DeclaresKey, forall_attributes]
    exact ⟨⟨_, rfl, rfl⟩, by rintro _ ⟨⟩; exact ⟨_, rfl, rfl⟩⟩
  · rw [SharesNothing, forall_attributes]
    constructor
    · intro property found template composed
      cases found
      cases composed
    · rintro _ ⟨⟩ property found template composed variableName referred
      cases found
      cases composed
      apply isUnshared_of_plain_references
      intro inner opens next referredNext last opensNext
      rw [show Template.references ⟨"{id}/{head}"⟩ = ["id", "head"] from rfl] at referred
      simp only [List.mem_cons, List.not_mem_nil, or_false] at referred
      rcases referred with rfl | rfl
      · cases (opens.of_found rfl).1
      · cases (opens.of_found rfl).2
        rw [show Template.references ⟨"{title}"⟩ = ["title"] from rfl,
          List.mem_singleton] at referredNext
        subst referredNext
        cases (opensNext.of_found rfl).2

/-- A task is sorted by a label made of its title, and neither its owner nor its title is
required. -/
def taskDeclarations : Declarations :=
  [("owner", { type := "string" }),
    ("title", { type := "string" }),
    ("label", { type := "string", composite := some "{title}" })]

/-- Both ends of a route are named after one city. -/
def routeDeclarations : Declarations :=
  [("id", { type := "string", required := true }),
    ("city", { type := "string", composite := some "city {id}" }),
    ("start", { type := "string", composite := some "from {city}" }),
    ("goal", { type := "string", composite := some "to {city}" }),
    ("route", { type := "string", composite := some "{start} {goal}" }),
    ("key", { type := "string", composite := some "{route}" })]

/-- Another property can be reported in place of a missing variable, and a variable can be
reported although it is required. -/
theorem key_variables_are_misjudged :
    (∃ schema, ofDeclarations taskDeclarations = .ok schema ∧
      schema.DeclaresKey { hash := "owner", range := some "label" } ∧
      schema.LacksVariable "label" ∧
      schema.testKey "primary" { hash := "owner", range := some "label" } true =
        .error ⟨"owner", .keyNotRequired "primary"⟩) ∧
    ∃ schema, ofDeclarations routeDeclarations = .ok schema ∧
      schema.DeclaresKey { hash := "key", range := none } ∧
      ¬ schema.LacksVariable "key" ∧
      schema.requires "key" "start" = true ∧ schema.requires "key" "goal" = true ∧
      schema.testKey "primary" { hash := "key", range := none } true =
        .error ⟨"key", .compositeVariableNotRequired "primary" "route"⟩ := by
  constructor
  · refine ⟨_, rfl, ?_, ⟨_, _, rfl, rfl, "title", by decide, ?_⟩, rfl⟩
    · rw [DeclaresKey, forall_attributes]
      exact ⟨⟨_, rfl, rfl⟩, by rintro _ ⟨⟩; exact ⟨_, rfl, rfl⟩⟩
    · intro required
      cases required with
      | declared found required =>
          cases found
          cases required
      | composite found composed =>
          cases found
          cases composed
  · refine ⟨_, rfl, ?_, ?_, rfl, rfl, rfl⟩
    · rw [DeclaresKey, forall_attributes]
      exact ⟨⟨_, rfl, rfl⟩, by rintro _ ⟨⟩⟩
    · rintro ⟨property, template, found, composed, variableName, referred, optional⟩
      cases found
      cases composed
      rw [show Template.references ⟨"{route}"⟩ = ["route"] from rfl, List.mem_singleton] at referred
      subst referred
      apply optional
      refine .composite rfl rfl fun endName referredEnd => ?_
      rw [show Template.references ⟨"{start} {goal}"⟩ = ["start", "goal"] from rfl] at referredEnd
      simp only [List.mem_cons, List.not_mem_nil, or_false] at referredEnd
      rcases referredEnd with rfl | rfl
      · exact isRequired_of_requiresFrom (rfl : Schema.requires _ "key" "start" = true)
      · exact isRequired_of_requiresFrom (rfl : Schema.requires _ "key" "goal" = true)

end ItemTable.Schema
