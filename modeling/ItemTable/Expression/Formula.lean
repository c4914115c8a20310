import ItemTable.Coercion.Stored
import ItemTable.Expression.Error

/-!
# Formulas

A formula is a clause of a where-document after all checks: the operators of an
attribute have become one test, and operands have their stored form.  Formulas
have no errors left; turning clauses into formulas finds the first one in the
order of the document.

A test is one comparison, a range of two comparisons that bound an attribute from
above and below, or membership in a list.
-/

namespace ItemTable

/-- The test of one attribute against stored operands. -/
inductive Test
  | compare (comparison : Comparison) (operand : Value)
  | range (upper : Comparison) (upperOperand : Value) (lower : Comparison) (lowerOperand : Value)
  | oneOf (operands : List Value)

/-- A checked clause. -/
inductive Formula
  | leaf (name : String) (test : Test)
  | group (junction : Junction) (documents : List (List Formula))

/-- The operators of one attribute, sorted by the part they may play. -/
structure OperatorSet where
  /-- An operator that has to stand alone. -/
  alone : Option (Operator × Value) := none
  /-- `LT` or `LTE`. -/
  upper : Option (Operator × Value) := none
  /-- `GT` or `GTE`. -/
  lower : Option (Operator × Value) := none

namespace OperatorSet

/-- Adds an operator in its part, which has to be free. -/
def add (name : String) (operators : OperatorSet) (pair : Operator × Value) :
    Except CompileError OperatorSet :=
  match pair.1 with
  | .and | .or | .not => .error (.misplacedOperator name pair.1)
  | .lt | .lte =>
      match operators.upper with
      | some first => .error (.conflictingOperators name first.1 pair.1)
      | none => .ok { operators with upper := some pair }
  | .gt | .gte =>
      match operators.lower with
      | some first => .error (.conflictingOperators name first.1 pair.1)
      | none => .ok { operators with lower := some pair }
  | .eq | .ne | .isIn =>
      match operators.alone with
      | some _ => .error (.mixedOperators name pair.1)
      | none => .ok { operators with alone := some pair }

/-- Adds operators in order. -/
def addAll (name : String) : OperatorSet → List (Operator × Value) →
    Except CompileError OperatorSet
  | operators, [] => .ok operators
  | operators, pair :: rest => do
      let operators ← add name operators pair
      addAll name operators rest

end OperatorSet

/-- A test whose operands are not yet stored. -/
inductive TestPlan
  | compare (comparison : Comparison) (operand : Value)
  | range (upper : Comparison) (upperOperand : Value) (lower : Comparison) (lowerOperand : Value)
  | oneOf (list : Value)

namespace TestPlan

/-- The plan of an operator that stands alone. -/
def single (name : String) (pair : Operator × Value) : Except CompileError TestPlan :=
  match pair.1.comparison? with
  | some comparison => .ok (.compare comparison pair.2)
  | none => if pair.1 = .isIn then .ok (.oneOf pair.2) else .error (.misplacedOperator name pair.1)

/-- The plan of sorted operators. -/
def ofOperatorSet (name : String) (operators : OperatorSet) : Except CompileError TestPlan :=
  match operators.alone, operators.upper, operators.lower with
  | some pair, none, none => single name pair
  | none, some pair, none => single name pair
  | none, none, some pair => single name pair
  | none, some upper, some lower =>
      match upper.1.comparison?, lower.1.comparison? with
      | some upperComparison, some lowerComparison =>
          .ok (.range upperComparison upper.2 lowerComparison lower.2)
      | none, _ => .error (.misplacedOperator name upper.1)
      | _, none => .error (.misplacedOperator name lower.1)
  | some pair, _, _ => .error (.mixedOperators name pair.1)
  | none, none, none => .error (.emptyOperators name)

/-- The plan of a condition. -/
def ofCondition (name : String) : Condition → Except CompileError TestPlan
  | .bare value => .ok (.compare .eq value)
  | .operators pairs => do
      let operators ← OperatorSet.addAll name {} pairs
      ofOperatorSet name operators

end TestPlan

namespace Property

/-- The stored form of an operand.  Only strings, numbers, truth values and dates
are compared. -/
def storeOperand (property : Property) (name : String) (value : Value) :
    Except CompileError Value :=
  match value with
  | .string _ | .number _ | .bool _ | .date _ =>
      (property.store value).mapError fun error => .coercion (error.under name)
  | other => .error (.invalidValueType name other.kind)

/-- The stored forms of operands in order. -/
def storeOperands (property : Property) (name : String) :
    List Value → Except CompileError (List Value)
  | [] => .ok []
  | value :: rest => do
      let value ← property.storeOperand name value
      let rest ← property.storeOperands name rest
      return value :: rest

/-- The test of a plan, with its operands stored. -/
def testOfPlan (property : Property) (name : String) : TestPlan → Except CompileError Test
  | .compare comparison operand => do
      let operand ← property.storeOperand name operand
      return .compare comparison operand
  | .range upper upperOperand lower lowerOperand => do
      let upperOperand ← property.storeOperand name upperOperand
      let lowerOperand ← property.storeOperand name lowerOperand
      return .range upper upperOperand lower lowerOperand
  | .oneOf (.list []) => .error (.emptyIn name)
  | .oneOf (.list items) => do
      let operands ← property.storeOperands name items
      return .oneOf operands
  | .oneOf _ => .error (.invalidInOperand name)

end Property

namespace Formula

/-- The formula of a condition on an attribute. -/
def ofCondition (schema : Schema) (name : String) (condition : Condition) :
    Except CompileError Formula :=
  match schema.get? name with
  | none => .error (.unknownProperty name)
  | some property => do
      let plan ← TestPlan.ofCondition name condition
      let test ← property.testOfPlan name plan
      return .leaf name test

mutual

/-- The formula of a clause. -/
def ofClause (schema : Schema) : Clause → Except CompileError Formula
  | .condition name condition => ofCondition schema name condition
  | .group operator documents =>
      match operator.junction? with
      | none => .error (.notAGroupOperator operator)
      | some junction => do
          let documents ← ofDocuments schema documents
          return .group junction documents

/-- The formulas of clauses. -/
def ofClauses (schema : Schema) : List Clause → Except CompileError (List Formula)
  | [] => .ok []
  | clause :: rest => do
      let formula ← ofClause schema clause
      let formulas ← ofClauses schema rest
      return formula :: formulas

/-- The formulas of grouped documents. -/
def ofDocuments (schema : Schema) :
    List (List Clause) → Except CompileError (List (List Formula))
  | [] => .ok []
  | document :: rest => do
      let formulas ← ofClauses schema document
      let documents ← ofDocuments schema rest
      return formulas :: documents

end

/-- The comparison of a key condition, which has exactly one operator. -/
def keyComparison (name : String) : Condition → Except CompileError (Comparison × Value)
  | .bare value => .ok (.eq, value)
  | .operators [(operator, value)] =>
      match operator with
      | .eq => .ok (.eq, value)
      | .lt => .ok (.lt, value)
      | .lte => .ok (.lte, value)
      | .gt => .ok (.gt, value)
      | .gte => .ok (.gte, value)
      | .and | .or | .not => .error (.booleanInKeyCondition operator)
      | .ne | .isIn => .error (.unsupportedKeyOperator name operator)
  | .operators pairs => .error (.keyConditionOperatorCount name pairs.length)

/-- The formula of a clause of a key condition, which is never a group. -/
def ofKeyClause (schema : Schema) : Clause → Except CompileError Formula
  | .group operator _ => .error (.booleanInKeyCondition operator)
  | .condition name condition =>
      match schema.get? name with
      | none => .error (.unknownProperty name)
      | some property => do
          let (comparison, operand) ← keyComparison name condition
          let operand ← property.storeOperand name operand
          return .leaf name (.compare comparison operand)

/-- The formulas of a key condition. -/
def ofKeyClauses (schema : Schema) : List Clause → Except CompileError (List Formula)
  | [] => .ok []
  | clause :: rest => do
      let formula ← ofKeyClause schema clause
      let formulas ← ofKeyClauses schema rest
      return formula :: formulas

end Formula

end ItemTable
