import ItemTable.Proofs.Expression.Syntax

/-!
# Readings of where-documents

Under a truth assignment to single tests, a where-document is the conjunction of
its clauses, and a clause is true or false in turn.  A group combines its
documents; a group that negates takes the negation of their conjunction.  Several
operators on one attribute are conjoined.

A document or group without any condition says nothing, and it is left out of what
surrounds it.

Truth is assigned to tests of stored operands, so a schema turns the operators of
a document into such tests.
-/

namespace ItemTable

/-- The value of several statements taken together; none say nothing. -/
def Junction.combine? : Junction → List Bool → Option Bool
  | _, [] => none
  | .and, values => some (values.all id)
  | .or, values => some (values.any id)
  | .not, values => some (!values.all id)

/-- The value of a condition: all its operators are tested. -/
def Condition.reading (truth : Operator → Value → Bool) : Condition → Bool
  | .bare value => truth .eq value
  | .operators pairs => pairs.all fun pair => truth pair.1 pair.2

namespace Clause

mutual

/-- Whether there is a condition on an attribute at any depth of a clause. -/
def hasCondition : Clause → Bool
  | .condition _ _ => true
  | .group _ documents => anyDocument documents

def anyClause : List Clause → Bool
  | [] => false
  | clause :: rest => clause.hasCondition || anyClause rest

def anyDocument : List (List Clause) → Bool
  | [] => false
  | document :: rest => anyClause document || anyDocument rest

end

mutual

/-- What a clause says. -/
def reading? (truth : String → Operator → Value → Bool) : Clause → Option Bool
  | .condition name tests => some (tests.reading (truth name))
  | .group operator documents =>
      operator.junction?.bind fun junction => junction.combine? (documentReadings truth documents)

/-- What those clauses say that say something. -/
def readings (truth : String → Operator → Value → Bool) : List Clause → List Bool
  | [] => []
  | clause :: rest => (clause.reading? truth).toList ++ readings truth rest

/-- What those documents say that say something. -/
def documentReadings (truth : String → Operator → Value → Bool) :
    List (List Clause) → List Bool
  | [] => []
  | document :: rest =>
      (Junction.and.combine? (readings truth document)).toList ++ documentReadings truth rest

end

end Clause

namespace Where

/-- Whether there is a condition on an attribute at any depth of a document. -/
def hasCondition (document : Where) : Bool :=
  Clause.anyClause document

/-- What a document says. -/
def reading? (truth : String → Operator → Value → Bool) (document : Where) : Option Bool :=
  Junction.and.combine? (Clause.readings truth document)

end Where

namespace Schema

/-- The test of stored operands that an operator on an attribute stands for. -/
def atom? (schema : Schema) (name : String) (operator : Operator) (value : Value) :
    Option (Atom Value) :=
  (schema.get? name).bind fun property =>
    match operator.comparison?, operator, value with
    | some comparison, _, operand =>
        (property.storeOperand name operand).toOption.map (.compare name comparison)
    | none, .isIn, .list items => (property.storeOperands name items).toOption.map (.oneOf name)
    | _, _, _ => none

/-- The truth of operators under an assignment to tests of stored operands. -/
def truth (schema : Schema) (assignment : Atom Value → Bool) (name : String)
    (operator : Operator) (value : Value) : Bool :=
  (schema.atom? name operator value).any assignment

end Schema

end ItemTable
