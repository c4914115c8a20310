import ItemTable.Schema.Basic
import ItemTable.Validation.Builtin
import ItemTable.Validation.Error

/-!
# Validation of documents

Declared fields are checked in the order of the document, and the first failing
check is reported.  A field is checked for its type, for membership in its
allowed values, by its validators in order, and then inside.  Of a null only
`notNull` is checked.
-/

namespace ItemTable

namespace PropertyTraits

/-- One entry of a property's checks. -/
def testValidator (type : AttributeType) (value : Value) (name : String) :
    Validator → Except ValidationError Unit
  | .builtin parameter =>
      match type.builtinCheck? name with
      | none => .error (.unknownValidator "" name)
      | some check =>
          if check.passes type value parameter then .ok () else .error (.field "" value name)
  | .custom predicate =>
      match predicate value with
      | .ok true => .ok ()
      | .ok false => .error (.field "" value name)
      | .error source => .error (.validator "" name source)

/-- Entries of a property's checks in order. -/
def testValidators (type : AttributeType) (value : Value) :
    List (String × Validator) → Except ValidationError Unit
  | [] => .ok ()
  | (name, validator) :: rest => do
      testValidator type value name validator
      testValidators type value rest

/-- The check of a null. -/
def testNull (traits : PropertyTraits) (value : Value) : Except ValidationError Unit :=
  match traits.builtinParameter? BuiltinCheck.notNull.name with
  | some parameter =>
      if BuiltinCheck.notNull.passes traits.type value parameter then .ok ()
      else .error (.field "" value BuiltinCheck.notNull.name)
  | none => .ok ()

/-- The checks of a value other than null, apart from those inside it. -/
def testValue (traits : PropertyTraits) (value : Value) : Except ValidationError Unit :=
  if !traits.type.admits value then .error (.field "" value BuiltinCheck.type.name)
  else if (traits.allowed.map fun values => !values.any value.same).getD false then
    .error (.field "" value "enum")
  else testValidators traits.type value traits.validators

end PropertyTraits

namespace Schema

mutual

/-- Checks the documents inside a value under a schema. -/
def validateInside (nested : Option (List Property)) : Value → Except ValidationError Unit
  | .map fields =>
      match nested with
      | some schema => validateFields schema fields
      | none => .ok ()
  | .list items =>
      match nested with
      | some schema => validateElements schema 0 items
      | none => .ok ()
  | _ => .ok ()

/-- Checks the documents among list elements. -/
def validateElements (schema : List Property) :
    Nat → List Value → Except ValidationError Unit
  | _, [] => .ok ()
  | position, item :: rest => do
      if item matches .map _ then
        (validateInside (some schema) item).mapError (·.under (Path.element position))
      validateElements schema (position + 1) rest

/-- Checks fields in order. -/
def validateFields (schema : List Property) :
    List (String × Value) → Except ValidationError Unit
  | [] => .ok ()
  | (name, value) :: rest => do
      match Schema.get? schema name with
      | none => pure ()
      | some property =>
          let tested :=
            if value.isNull then property.testNull value
            else do
              property.testValue value
              validateInside property.properties value
          tested.mapError (·.under name)
      validateFields schema rest

end

/-- Checks every declared field of a document. -/
def validate (schema : Schema) (document : Document) : Except ValidationError Unit :=
  validateFields schema document

end Schema

end ItemTable
