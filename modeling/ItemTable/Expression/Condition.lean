import ItemTable.Expression.Formula
import ItemTable.Expression.Placeholder

/-!
# Condition texts

The text of formulas and the bindings of its placeholders.  Clauses are joined by
`AND`.  A group stands in parentheses, after `NOT` if it negates; groups and
documents without any leaf are dropped.

Inside a disjunction, a conjunction without parentheses of its own gets them.
Such a piece is called compound: a range, or a document of several clauses.

Leaves are numbered in the order of the document, and each group adds its letter
to the stem of the placeholders inside it.
-/

namespace ItemTable

/-- A text with the bindings of its placeholders. -/
structure Piece where
  text : List Char
  compound : Bool
  names : Entries String
  values : Entries Value

namespace Piece

/-- The text, in parentheses if the piece is compound. -/
def enclosed (piece : Piece) : List Char :=
  if piece.compound then '(' :: piece.text ++ [')'] else piece.text

/-- Texts with a separator between them. -/
def join (separator : List Char) : List (List Char) → List Char
  | [] => []
  | [text] => text
  | text :: next :: rest => text ++ separator ++ join separator (next :: rest)

/-- A text made of several pieces, with their bindings. -/
def gather (text : List Char) (compound : Bool) (pieces : List Piece) : Piece :=
  { text, compound
    names := pieces.flatMap Piece.names
    values := pieces.flatMap Piece.values }

def andSeparator : List Char := [' ', 'A', 'N', 'D', ' ']

def orSeparator : List Char := [' ', 'O', 'R', ' ']

/-- Pieces as a conjunction. -/
def conjunction (pieces : List Piece) : List Char :=
  join andSeparator (pieces.map Piece.text)

/-- Pieces as a disjunction. -/
def disjunction (pieces : List Piece) : List Char :=
  join orSeparator (pieces.map Piece.enclosed)

/-- The piece of a group, unless all its documents are without leaves. -/
def ofGroup? (junction : Junction) (pieces : List Piece) : Option Piece :=
  if pieces.isEmpty then none
  else
    let text := match junction with
      | .or => '(' :: disjunction pieces ++ [')']
      | .not => ['N', 'O', 'T', ' ', '('] ++ conjunction pieces ++ [')']
      | .and => '(' :: conjunction pieces ++ [')']
    some (gather text false pieces)

/-- The piece of a document in a group, unless it is without leaves. -/
def ofDocument? : List Piece → Option Piece
  | [] => none
  | [piece] => some piece
  | pieces => some (gather (conjunction pieces) true pieces)

end Piece

namespace Test

/-- A comparison of two placeholders. -/
def compareText (name : List Char) (comparison : Comparison) (value : List Char) : List Char :=
  name ++ ' ' :: comparison.symbol.toList ++ ' ' :: value

/-- The placeholders of list elements, numbered from `position`, with their values. -/
def elementBindings (value : List Char) : Nat → List Value → List (List Char × Value)
  | _, [] => []
  | position, operand :: rest =>
      (value ++ 'l' :: Nat.toDigits 10 position, operand) ::
        elementBindings value (position + 1) rest

/-- The piece of a test on an attribute. -/
def piece (attributeName : String) (stem : List Char) (number : Nat) (test : Test) : Piece :=
  let name := Placeholder.nameChars stem number
  let value := Placeholder.valueChars stem number
  let names := [(String.ofList name, attributeName)]
  match test with
  | compare comparison operand =>
      { text := compareText name comparison value
        compound := false
        names
        values := [(String.ofList value, operand)] }
  | range upper upperOperand lower lowerOperand =>
      let upperValue := value ++ ['l']
      let lowerValue := value ++ ['r']
      { text := compareText name upper upperValue ++ Piece.andSeparator ++
          compareText name lower lowerValue
        compound := true
        names
        values := [(String.ofList upperValue, upperOperand),
          (String.ofList lowerValue, lowerOperand)] }
  | oneOf operands =>
      let bindings := elementBindings value 0 operands
      { text := name ++ [' ', 'I', 'N', ' ', '('] ++
          Piece.join [',', ' '] (bindings.map Prod.fst) ++ [')']
        compound := false
        names
        values := bindings.map fun binding => (String.ofList binding.1, binding.2) }

end Test

namespace Formula

mutual

/-- The piece of a formula and the number of the last leaf in it. -/
def piece? (stem : List Char) (count : Nat) : Formula → Option Piece × Nat
  | leaf name test => (some (test.piece name stem (count + 1)), count + 1)
  | group junction documents =>
      let (pieces, count) := documentPieces (stem ++ [junction.letter]) count documents
      (Piece.ofGroup? junction pieces, count)

/-- The pieces of formulas that have one. -/
def pieces (stem : List Char) (count : Nat) : List Formula → List Piece × Nat
  | [] => ([], count)
  | formula :: rest =>
      let (piece, count) := piece? stem count formula
      let (others, count) := pieces stem count rest
      (piece.toList ++ others, count)

/-- The pieces of grouped documents that have one. -/
def documentPieces (stem : List Char) (count : Nat) : List (List Formula) → List Piece × Nat
  | [] => ([], count)
  | document :: rest =>
      let (inside, count) := pieces stem count document
      let (others, count) := documentPieces stem count rest
      ((Piece.ofDocument? inside).toList ++ others, count)

end

/-- The fragment of a conjunction of formulas, unless they are without leaves. -/
def fragment? (stem : List Char) (formulas : List Formula) : Option Fragment :=
  match (pieces stem 0 formulas).1 with
  | [] => none
  | pieces => some {
      expression := String.ofList (Piece.conjunction pieces)
      names := pieces.flatMap Piece.names
      values := pieces.flatMap Piece.values }

end Formula

namespace Where

/-- The filter expression of a where-document, unless it is without leaves. -/
def filter (document : Where) (schema : Schema) : Except CompileError (Option Fragment) :=
  (Formula.ofClauses schema document).map (Formula.fragment? ['f'])

/-- The key condition of a where-document, unless it is empty. -/
def keyCondition (document : Where) (schema : Schema) : Except CompileError (Option Fragment) :=
  (Formula.ofKeyClauses schema document).map (Formula.fragment? ['k'])

end Where

end ItemTable
