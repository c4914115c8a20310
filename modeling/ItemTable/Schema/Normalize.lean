import ItemTable.Path
import ItemTable.Schema.Declaration
import ItemTable.Schema.Error
import ItemTable.Validation.Builtin

/-!
# Normalization

Normalization turns declarations into a schema: types are resolved, the
parameters of checks are tested, and the template of every composite becomes both
its default and its create hook.  The first fault in declaration order is
reported; a fault in the references of templates only after all others of its
level, and a cycle of templates only after all others.

Elements of a list are reported under the path of the list followed by `[]`.
-/

namespace ItemTable

namespace Template

/-- The create hook that renders a template. -/
def toHook (template : Template) : Hook :=
  fun _ document => .ok (some (.string (template.render document)))

end Template

namespace Declaration

/-- The allowed values, when a list of them or nothing is declared. -/
def allowedValues (path : String) : Option Value → Except SchemaError (Option (List Value))
  | none => .ok none
  | some .null => .ok none
  | some (.list values) => .ok (some values)
  | some _ => .error ⟨path, .enumNotList⟩

/-- Tests that built-in checks exist and that comparisons have a date to compare with. -/
def testValidators (path : String) (type : AttributeType) :
    List (String × Validator) → Except SchemaError Unit
  | [] => .ok ()
  | (_, .custom _) :: rest => testValidators path type rest
  | (name, .builtin parameter) :: rest =>
      match type.builtinCheck? name with
      | none => .error ⟨path, .unknownValidator name⟩
      | some check =>
          if check.comparesDates && parameter.toInstant?.isNone then
            .error ⟨path, .invalidValidatorParameter name⟩
          else testValidators path type rest

/-- The template of a composite, where one is declared and allowed. -/
def compositeTemplate (path : String) (top : Bool) (type : AttributeType)
    (traits : DeclaredTraits) : Except SchemaError (Option Template) :=
  match traits.composite with
  | none => .ok none
  | some source =>
      if !top then .error ⟨path, .nestedComposite⟩
      else if type ≠ .string then .error ⟨path, .compositeNotString type⟩
      else if traits.default.isSome || traits.hooks.onCreate.isSome then
        .error ⟨path, .compositeWithDefault⟩
      else .ok (some ⟨source⟩)

/-- The traits of a property of the resolved type. -/
def normalTraits (name path : String) (top : Bool) (type : AttributeType)
    (traits : DeclaredTraits) : Except SchemaError PropertyTraits := do
  let allowed ← allowedValues path traits.allowed
  testValidators path type traits.validators
  let composite ← compositeTemplate path top type traits
  return {
    name, type, allowed, composite
    required := traits.required
    default := match composite with
      | some template => some (.composite template)
      | none => traits.default
    hooks := match composite with
      | some template => { traits.hooks with onCreate := some template.toHook }
      | none => traits.hooks
    get := traits.get
    set := traits.set
    validators := traits.validators
    format := traits.format.getD .iso }

/-- The first variable of a template that no property declares. -/
def unknownVariable? (properties : List Property) (template : Template) : Option String :=
  template.references.find? fun name => !Schema.declares properties name

/-- Tests that templates refer to declared properties only. -/
def testVariables (parent : String) (properties : List Property) :
    List Property → Except SchemaError Unit
  | [] => .ok ()
  | property :: rest =>
      match property.composite.bind (unknownVariable? properties) with
      | some name =>
          .error ⟨Path.join parent property.name, .compositeUnknownVariable name⟩
      | none => testVariables parent properties rest

mutual

/-- The property of a declaration at the given path. -/
def normalize (name path : String) (top : Bool) : Declaration → Except SchemaError Property
  | ⟨traits, nested⟩ =>
      match AttributeType.ofSpelling? traits.type with
      | none => .error ⟨path, .unknownType traits.type⟩
      | some type => do
          let properties ← normalizeInside path type nested
          let traits ← normalTraits name path top type traits
          return { toPropertyTraits := traits, properties }

/-- The schema inside a property of the given type. -/
def normalizeInside (path : String) (type : AttributeType) :
    Option (List (String × Declaration)) → Except SchemaError (Option (List Property))
  | none => .ok none
  | some declarations =>
      if type.isScalar then .error ⟨path, .nestedOnScalar type⟩
      else do
        let inside := if type = .list then path ++ "[]" else path
        let properties ← normalizeAll inside false [] declarations
        testVariables inside properties properties
        return some properties

/-- The properties of declarations; `seen` holds the names before them. -/
def normalizeAll (parent : String) (top : Bool) (seen : List String) :
    List (String × Declaration) → Except SchemaError (List Property)
  | [] => .ok []
  | (name, declaration) :: rest =>
      let path := Path.join parent name
      if name.toList.contains '.' then .error ⟨path, .dottedName⟩
      else if seen.contains name then .error ⟨path, .duplicateName⟩
      else do
        let property ← normalize name path top declaration
        let properties ← normalizeAll parent top (name :: seen) rest
        return property :: properties

end

end Declaration

namespace Schema

/-- The first variable, following templates in order, that closes a cycle with
the names on the way to it. -/
def cycleVariable? (schema : Schema) : Nat → List String → Template → Option String
  | 0, _, _ => none
  | fuel + 1, chain, template =>
      template.references.findSome? fun name =>
        if chain.contains name then some name
        else match (schema.get? name).bind fun property => property.composite with
          | some next => cycleVariable? schema fuel (name :: chain) next
          | none => none

/-- The cycle fault reported for a property.  A chain without a repeated name is
no longer than the schema, which bounds the search. -/
def cycleFrom? (schema : Schema) (property : Property) : Option SchemaError := do
  let template ← property.composite
  let name ← cycleVariable? schema (schema.length + 1) [property.name] template
  some ⟨property.name, .compositeCycle name⟩

/-- The properties of a level, with their faults other than cycles. -/
def ofLevel (declarations : Declarations) : Except SchemaError Schema := do
  let properties ← Declaration.normalizeAll "" true [] declarations
  Declaration.testVariables "" properties properties
  return properties

/-- The schema of declarations. -/
def ofDeclarations (declarations : Declarations) : Except SchemaError Schema := do
  let schema ← ofLevel declarations
  match schema.findSome? (cycleFrom? schema) with
  | some error => .error error
  | none => return schema

end Schema

end ItemTable
