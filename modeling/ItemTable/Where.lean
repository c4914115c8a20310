import ItemTable.Value.Basic

/-!
# Where-documents

A where-document is a list of clauses.  A clause is a condition on a named
attribute or an operator group over further where-documents.  Operators are not
names, so an attribute may be called `AND`.
-/

namespace ItemTable

/-- The operators of conditions and groups. -/
inductive Operator
  | and
  | or
  | not
  | eq
  | ne
  | gt
  | gte
  | lt
  | lte
  | isIn
  deriving DecidableEq

/-- A comparison of two values. -/
inductive Comparison
  | eq
  | ne
  | gt
  | gte
  | lt
  | lte
  deriving DecidableEq

/-- A way of combining documents. -/
inductive Junction
  | and
  | or
  | not
  deriving DecidableEq

/-- The symbol of a comparison in expressions. -/
def Comparison.symbol : Comparison → String
  | eq => "="
  | ne => "<>"
  | gt => ">"
  | gte => ">="
  | lt => "<"
  | lte => "<="

/-- The letter that a group adds to the placeholders inside it. -/
def Junction.letter : Junction → Char
  | and => 'a'
  | or => 'o'
  | not => 'n'

namespace Operator

def all : List Operator := [and, or, not, eq, ne, gt, gte, lt, lte, isIn]

/-- The operator's name in messages. -/
def name : Operator → String
  | and => "AND"
  | or => "OR"
  | not => "NOT"
  | eq => "EQ"
  | ne => "NE"
  | gt => "GT"
  | gte => "GTE"
  | lt => "LT"
  | lte => "LTE"
  | isIn => "IN"

/-- The operator with the given name. -/
def ofName? (name : String) : Option Operator :=
  all.find? fun operator => operator.name == name

def comparison? : Operator → Option Comparison
  | eq => some .eq
  | ne => some .ne
  | gt => some .gt
  | gte => some .gte
  | lt => some .lt
  | lte => some .lte
  | _ => none

def junction? : Operator → Option Junction
  | and => some .and
  | or => some .or
  | not => some .not
  | _ => none

/-- Whether the operator groups documents. -/
def isGroup (operator : Operator) : Bool :=
  operator.junction?.isSome

/-- The symbol of a comparison. -/
def symbol? (operator : Operator) : Option String :=
  operator.comparison?.map Comparison.symbol

/-- The letter of a group. -/
def groupLetter? (operator : Operator) : Option Char :=
  operator.junction?.map Junction.letter

end Operator

/-- The condition on an attribute: a bare value stands for equality. -/
inductive Condition
  | bare (value : Value)
  | operators (pairs : List (Operator × Value))

/-- Adds an operator to a condition. -/
def Condition.andOperator : Condition → Operator → Value → Condition
  | bare value, operator, operand => operators [(.eq, value), (operator, operand)]
  | operators pairs, operator, operand => operators (pairs ++ [(operator, operand)])

/-- One clause of a where-document. -/
inductive Clause
  | group (operator : Operator) (documents : List (List Clause))
  | condition (name : String) (condition : Condition)

/-- Clauses in the order they are declared. -/
abbrev Where := List Clause

/-- The attributes named by the clauses themselves, groups apart. -/
def Where.attributeNames (document : Where) : List String :=
  document.filterMap fun
    | .condition name _ => some name
    | .group _ _ => none

end ItemTable
