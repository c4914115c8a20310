import ItemTable.AttributeType

/-!
# Schema errors

What may be wrong with the declaration of a schema, a key or an index, and where.
-/

namespace ItemTable

/-- What is wrong with a declaration. -/
inductive SchemaFault
  | unknownType (spelling : String)
  | dottedName
  | duplicateName
  | nestedOnScalar (type : AttributeType)
  | compositeNotString (type : AttributeType)
  | nestedComposite
  | compositeUnknownVariable (variableName : String)
  | compositeCycle (variableName : String)
  | compositeWithDefault
  | unknownValidator (name : String)
  | invalidValidatorParameter (name : String)
  | enumNotList
  | unknownKeyAttribute (index : String)
  | invalidKeyType (index : String) (type : AttributeType)
  | keyNotRequired (index : String)
  | compositeVariableNotRequired (index variableName : String)
  | localIndexHashMismatch (index expected : String)
  | duplicateIndex (name : String)
  deriving DecidableEq

/-- A fault with the path of the property it lies in. -/
structure SchemaError where
  path : String
  fault : SchemaFault
  deriving DecidableEq

namespace SchemaFault

def message : SchemaFault → String
  | unknownType spelling => s!"unknown type '{spelling}'"
  | dottedName => "property names may not contain '.'"
  | duplicateName => "duplicate property"
  | nestedOnScalar type =>
      s!"nested properties are only allowed on LIST and OBJECT, not {type.tag}"
  | compositeNotString type => s!"composite attributes must be STRING, not {type.tag}"
  | nestedComposite => "composite attributes are only allowed at the top level"
  | compositeUnknownVariable variableName =>
      s!"composite references unknown property '{variableName}'"
  | compositeCycle variableName =>
      s!"composite references form a cycle through '{variableName}'"
  | compositeWithDefault =>
      "composite attributes cannot declare a default or onCreate hook"
  | unknownValidator name => s!"unknown validator '{name}'"
  | invalidValidatorParameter name => s!"invalid parameter for validator '{name}'"
  | enumNotList => "enum must be a list"
  | unknownKeyAttribute index => s!"{index}: key attribute is not a declared property"
  | invalidKeyType index type =>
      s!"{index}: key attributes must be STRING, NUMBER, BINARY or DATE, not {type.tag}"
  | keyNotRequired index => s!"{index}: key attribute must be required"
  | compositeVariableNotRequired index variableName =>
      s!"{index}: composite variable '{variableName}' must be required"
  | localIndexHashMismatch index expected =>
      s!"{index}: local indexes must use the table hash key '{expected}'"
  | duplicateIndex name => s!"duplicate index name '{name}'"

/-- The kind of a fault in reports. -/
def tag : SchemaFault → String
  | unknownType _ => "UnknownType"
  | dottedName => "DottedName"
  | duplicateName => "DuplicateName"
  | nestedOnScalar _ => "NestedOnScalar"
  | compositeNotString _ => "CompositeNotString"
  | nestedComposite => "NestedComposite"
  | compositeUnknownVariable _ => "CompositeUnknownVariable"
  | compositeCycle _ => "CompositeCycle"
  | compositeWithDefault => "CompositeWithDefault"
  | unknownValidator _ => "UnknownValidator"
  | invalidValidatorParameter _ => "InvalidValidatorParameter"
  | enumNotList => "EnumNotList"
  | unknownKeyAttribute _ => "UnknownKeyAttribute"
  | invalidKeyType _ _ => "InvalidKeyType"
  | keyNotRequired _ => "KeyNotRequired"
  | compositeVariableNotRequired _ _ => "CompositeVariableNotRequired"
  | localIndexHashMismatch _ _ => "LocalIndexHashMismatch"
  | duplicateIndex _ => "DuplicateIndex"

end SchemaFault

def SchemaError.message (error : SchemaError) : String :=
  s!"invalid schema at '{error.path}': {error.fault.message}"

end ItemTable
