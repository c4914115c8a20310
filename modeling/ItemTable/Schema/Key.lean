import ItemTable.KeySchema
import ItemTable.Schema.Basic
import ItemTable.Schema.Error

/-!
# Keys of a schema

The properties of a key have to be declared with a type that keys may have.  A
composite key property needs every variable of its template to be required,
directly or as a composite whose variables are.  A property of the primary key
that is no composite has to be required itself.
-/

namespace ItemTable.Schema

/-- Tests names in order until one fails, passing on what has been seen. -/
def allSeen (test : String → List String → Bool × List String) :
    List String → List String → Bool × List String
  | [], seen => (true, seen)
  | name :: rest, seen =>
      match test name seen with
      | (true, seen) => allSeen test rest seen
      | (false, seen) => (false, seen)

/-- Whether a property is required, directly or through its template.  A composite
met before on the search is not followed again and does not count as required. -/
def requiresFrom (schema : Schema) : Nat → String → List String → Bool × List String
  | 0, _, seen => (false, seen)
  | fuel + 1, name, seen =>
      match schema.get? name with
      | none => (false, seen)
      | some property =>
          if property.required then (true, seen)
          else match property.composite with
            | none => (false, seen)
            | some template =>
                if seen.contains name then (false, seen)
                else allSeen (requiresFrom schema fuel) template.references (name :: seen)

/-- Whether a variable of a composite key property is required.  Every composite
followed is new, so a search is no deeper than the schema is long. -/
def requires (schema : Schema) (key variableName : String) : Bool :=
  (requiresFrom schema (schema.length + 1) variableName [key]).1

/-- Tests one property of a key. -/
def testKeyAttribute (schema : Schema) (index : String) (primary : Bool) (name : String) :
    Except SchemaError Unit :=
  match schema.get? name with
  | none => .error ⟨name, .unknownKeyAttribute index⟩
  | some property =>
      if !property.type.isKeyType then .error ⟨name, .invalidKeyType index property.type⟩
      else match property.composite with
        | some template =>
            match template.references.find? fun variableName => !schema.requires name variableName with
            | some variableName => .error ⟨name, .compositeVariableNotRequired index variableName⟩
            | none => .ok ()
        | none =>
            if primary && !property.required then .error ⟨name, .keyNotRequired index⟩
            else .ok ()

/-- Tests the key of a table, with `primary`, or of an index. -/
def testKey (schema : Schema) (index : String) (key : KeySchema) (primary : Bool) :
    Except SchemaError Unit :=
  key.attributes.forM (testKeyAttribute schema index primary)

end ItemTable.Schema
