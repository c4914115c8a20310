import ItemTable.Coercion.Error
import ItemTable.Text.Quoted
import ItemTable.Where

/-!
# Compilation errors

Why a where-document, a projection or an update has no expression.
-/

namespace ItemTable

/-- Why a document does not compile. -/
inductive CompileError
  | unknownProperty (name : String)
  | conflictingOperators (name : String) (first second : Operator)
  | mixedOperators (name : String) (operator : Operator)
  | emptyOperators (name : String)
  | emptyIn (name : String)
  | invalidInOperand (name : String)
  | invalidValueType (name : String) (found : String)
  | misplacedOperator (name : String) (operator : Operator)
  | notAGroupOperator (operator : Operator)
  | booleanInKeyCondition (operator : Operator)
  | keyConditionOperatorCount (name : String) (count : Nat)
  | unsupportedKeyOperator (name : String) (operator : Operator)
  | notAKeyAttribute (name index : String)
  | missingHashCondition (name : String)
  | noMatchingIndex (names : List String)
  | unknownIndex (name : String)
  | emptyUpdate
  | coercion (error : CoercionError)
  deriving DecidableEq

/-- The kind of an error in reports. -/
def CompileError.tag : CompileError → String
  | unknownProperty _ => "UnknownProperty"
  | conflictingOperators _ _ _ => "ConflictingOperators"
  | mixedOperators _ _ => "MixedOperators"
  | emptyOperators _ => "EmptyOperators"
  | emptyIn _ => "EmptyIn"
  | invalidInOperand _ => "InvalidInOperand"
  | invalidValueType _ _ => "InvalidValueType"
  | misplacedOperator _ _ => "MisplacedOperator"
  | notAGroupOperator _ => "NotAGroupOperator"
  | booleanInKeyCondition _ => "BooleanInKeyCondition"
  | keyConditionOperatorCount _ _ => "KeyConditionOperatorCount"
  | unsupportedKeyOperator _ _ => "UnsupportedKeyOperator"
  | notAKeyAttribute _ _ => "NotAKeyAttribute"
  | missingHashCondition _ => "MissingHashCondition"
  | noMatchingIndex _ => "NoMatchingIndex"
  | unknownIndex _ => "UnknownIndex"
  | emptyUpdate => "EmptyUpdate"
  | coercion error => "Coercion." ++ error.tag

def CompileError.message : CompileError → String
  | unknownProperty name => s!"unknown property '{name}'"
  | conflictingOperators name first second =>
      s!"'{name}': {first.name} and {second.name} cannot be combined"
  | mixedOperators name operator =>
      s!"'{name}': {operator.name} cannot be combined with other operators"
  | emptyOperators name => s!"'{name}': empty operator set"
  | emptyIn name => s!"'{name}': IN requires a non-empty list"
  | invalidInOperand name => s!"'{name}': IN requires a list"
  | invalidValueType name found => s!"'{name}': cannot compare against a {found} value"
  | misplacedOperator name operator =>
      s!"'{name}': {operator.name} is not a comparison operator"
  | notAGroupOperator operator => s!"{operator.name} cannot group documents"
  | booleanInKeyCondition operator => s!"key conditions cannot use {operator.name}"
  | keyConditionOperatorCount name count =>
      s!"'{name}': key conditions need exactly one operator, found {count}"
  | unsupportedKeyOperator name operator =>
      s!"'{name}': {operator.name} is not allowed in key conditions"
  | notAKeyAttribute name index => s!"'{name}' is not a key attribute of {index}"
  | missingHashCondition name => s!"key condition must test hash key '{name}' with EQ"
  | noMatchingIndex names =>
      "no index can serve a key condition on " ++ Text.quoteListing names
  | unknownIndex name => s!"unknown index '{name}'"
  | emptyUpdate => "update document has no attributes to set"
  | coercion error => error.message

end ItemTable
