import ItemTable.Expression.Condition

/-!
# Update statements

A `SET` statement assigns every field of a document in order.  A field that is
not exact is assigned only where the stored item lacks it.
-/

namespace ItemTable.Document

/-- One assignment of a `SET` statement. -/
def setClause (exact : Bool) (number : Nat) : List Char :=
  let name := Placeholder.nameChars ['u'] number
  let value := Placeholder.valueChars ['u'] number
  if exact then name ++ [' ', '=', ' '] ++ value
  else
    name ++ [' ', '=', ' '] ++ "if_not_exists(".toList ++ name ++ [',', ' '] ++ value ++ [')']

/-- The `SET` statement of a document, unless it is empty. -/
def setStatement? (document : Document) (isExact : String → Bool) : Option Fragment :=
  match document.zipIdx 1 with
  | [] => none
  | numbered => some {
      expression := String.ofList (['S', 'E', 'T', ' '] ++ Piece.join [',', ' ']
        (numbered.map fun ((name, _), number) => setClause (isExact name) number))
      names := numbered.map fun ((name, _), number) =>
        (String.ofList (Placeholder.nameChars ['u'] number), name)
      values := numbered.map fun ((_, value), number) =>
        (String.ofList (Placeholder.valueChars ['u'] number), value) }

/-- The statement that assigns every field. -/
def updateStatement? (document : Document) : Option Fragment :=
  setStatement? document fun _ => true

/-- The statement that overwrites only the given fields. -/
def upsertStatement? (document : Document) (exact : List String) : Option Fragment :=
  setStatement? document exact.contains

end ItemTable.Document
