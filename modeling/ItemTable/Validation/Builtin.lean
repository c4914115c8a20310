import ItemTable.Value.Date

/-!
# Built-in checks

Every type has a fixed list of checks, each with a name under which a schema
switches it on and a parameter taken from the schema.  The check `type` is the
membership of a value in a type; it takes no notice of its parameter.
-/

namespace ItemTable

/-- A check that a schema may name. -/
inductive BuiltinCheck
  | type
  | notNull
  | notEmpty
  | isUnsigned
  | isBefore
  | isAfter
  deriving DecidableEq

namespace BuiltinCheck

def name : BuiltinCheck → String
  | type => "type"
  | notNull => "notNull"
  | notEmpty => "notEmpty"
  | isUnsigned => "isUnsigned"
  | isBefore => "isBefore"
  | isAfter => "isAfter"

/-- Whether the check compares with a date. -/
def comparesDates : BuiltinCheck → Bool
  | isBefore => true
  | isAfter => true
  | _ => false

end BuiltinCheck

namespace AttributeType

/-- The checks of a type, in order. -/
def builtinChecks : AttributeType → List BuiltinCheck
  | string => [.type, .notNull, .notEmpty]
  | number => [.type, .notNull, .isUnsigned]
  | boolean => [.type, .notNull]
  | date => [.type, .notNull, .isBefore, .isAfter]
  | binary => [.type, .notNull, .notEmpty]
  | list => [.type, .notNull]
  | object => [.type, .notNull]

/-- The check of a type that has the given name. -/
def builtinCheck? (type : AttributeType) (name : String) : Option BuiltinCheck :=
  type.builtinChecks.find? fun check => check.name == name

/-- Whether a value is of a type.  A number has to be finite. -/
def admits : AttributeType → Value → Bool
  | string, .string _ => true
  | number, .number value => value.isFinite
  | boolean, .bool _ => true
  | date, .date _ => true
  | binary, .binary _ => true
  | list, .list _ => true
  | object, .map _ => true
  | _, _ => false

end AttributeType

namespace BuiltinCheck

/-- Whether a value is a text or a byte sequence of its type, and not empty. -/
def isFilled : AttributeType → Value → Bool
  | .string, .string text => text != ""
  | .binary, .binary bytes => !bytes.isEmpty
  | _, _ => false

/-- Whether a value passes a check of a type.  A parameter that is not truthy
switches off every check but the type and the two comparisons. -/
def passes (check : BuiltinCheck) (attributeType : AttributeType) (value parameter : Value) :
    Bool :=
  match check with
  | type => attributeType.admits value
  | notNull => !parameter.isTruthy || !value.isNull
  | notEmpty => !parameter.isTruthy || isFilled attributeType value
  | isUnsigned =>
      !parameter.isTruthy ||
        match value with
        | .number number => (Number.zero false).atMost number
        | _ => false
  | isBefore =>
      match value, parameter.toInstant? with
      | .date instant, some bound => instant.before bound
      | _, _ => false
  | isAfter =>
      match value, parameter.toInstant? with
      | .date instant, some bound => bound.before instant
      | _, _ => false

end BuiltinCheck

end ItemTable
