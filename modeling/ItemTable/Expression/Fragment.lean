import ItemTable.Json.Record
import ItemTable.Json.Writer
import ItemTable.Text.Search
import ItemTable.Value.Text

/-!
# Expression fragments

A fragment is the text of an expression with the bindings of its placeholders:
`#` placeholders stand for attribute names and `:` placeholders for values.

`and` joins two fragments.  A side with a disjunction at its top is
parenthesized, and a placeholder bound on both sides keeps its first binding.
-/

namespace ItemTable

/-- The text of an expression and what its placeholders stand for. -/
structure Fragment where
  expression : String
  names : Entries String
  values : Entries Value

namespace Fragment

/-- A fragment without placeholders. -/
def ofText (expression : String) : Fragment :=
  { expression, names := [], values := [] }

def withName (fragment : Fragment) (placeholder name : String) : Fragment :=
  { fragment with names := fragment.names.put placeholder name }

def withValue (fragment : Fragment) (placeholder : String) (value : Value) : Fragment :=
  { fragment with values := fragment.values.put placeholder value }

/-- Whether no parenthesis but one at the end returns to the outermost depth. -/
def closesAtEnd : Nat → List Char → Bool
  | _, [] => true
  | depth, c :: rest =>
      if c == '(' then closesAtEnd (depth + 1) rest
      else if c == ')' then
        if depth ≤ 1 && !rest.isEmpty then false else closesAtEnd (depth - 1) rest
      else closesAtEnd depth rest

/-- Whether one pair of parentheses encloses the whole text. -/
def isEnclosed (text : List Char) : Bool :=
  text.head? == some '(' && text.getLast? == some ')' && closesAtEnd 0 text

/-- A text as one side of a conjunction. -/
def conjunct (text : String) : String :=
  if Text.occursIn [' ', 'O', 'R', ' '] text.toList && !isEnclosed text.toList then
    "(" ++ text ++ ")"
  else text

/-- The conjunction of two fragments; an empty expression leaves the other side. -/
def and (left right : Fragment) : Fragment :=
  if right.expression = "" then left
  else if left.expression = "" then right
  else {
    expression := conjunct left.expression ++ " AND " ++ conjunct right.expression
    names := left.names.bindAll right.names
    values := left.values.bindAll right.values }

/-- Whether a character may follow the sigil of a placeholder. -/
def isPlaceholderChar (c : Char) : Bool :=
  c.isAlphanum || c == '_'

/-- The placeholders of a text, in the order they occur: the sigil and the
longest run of placeholder characters after it. -/
def occurrences (sigil : Char) : List Char → List String
  | [] => []
  | c :: rest =>
      let word := rest.takeWhile isPlaceholderChar
      if c == sigil && !word.isEmpty then
        String.ofList (c :: word) :: occurrences sigil rest
      else occurrences sigil rest

/-- The distinct placeholders of a text, sorted. -/
def placeholders (sigil : Char) (text : String) : List String :=
  (occurrences sigil text.toList).eraseDups.mergeSort fun left right => left ≤ right

def referencedNames (fragment : Fragment) : List String :=
  placeholders '#' fragment.expression

def referencedValues (fragment : Fragment) : List String :=
  placeholders ':' fragment.expression

/-- The placeholders without a binding, names before values. -/
def unresolved (fragment : Fragment) : List String :=
  (fragment.referencedNames.filter fun name => !fragment.names.contains name) ++
    fragment.referencedValues.filter fun value => !fragment.values.contains value

def isResolved (fragment : Fragment) : Bool :=
  fragment.unresolved.isEmpty

/-- Reads bindings of names. -/
def namesOfJson? (room : Nat) (tree : Json) : Option (Entries String) :=
  (Json.entries? Json.text? room tree).map Entries.ofList

/-- Reads bindings of values. -/
def valuesOfJson? (room : Nat) (tree : Json) : Option (Entries Value) :=
  (Json.entries? Value.ofJson? room tree).map Entries.ofList

/-- The fragment written by a JSON tree. -/
def ofJson? (room : Nat) (tree : Json) : Option Fragment := do
  let record ← tree.record? room ["expression", "names", "values"]
  let expression ← record.required "expression" Json.text?
  let names ← record.defaulted "names" [] namesOfJson?
  let values ← record.defaulted "values" [] valuesOfJson?
  some { expression, names, values }

/-- The JSON text of bindings of names. -/
def wireNames (names : Entries String) : List Char :=
  Json.writeObject (names.map fun entry => (entry.1, Json.writeText entry.2))

/-- The JSON text of bindings of values. -/
def wireValues (values : Entries Value) : List Char :=
  Json.writeObject (Value.wireFields values)

/-- The JSON text of a fragment.  Bindings have no order of their own, and are written in the
one that they are given in. -/
def wireText (fragment : Fragment) : String :=
  String.ofList (Json.writeObject
    [("expression", Json.writeText fragment.expression),
     ("names", wireNames fragment.names),
     ("values", wireValues fragment.values)])

end Fragment

end ItemTable
