import ItemTable.Expression.Condition
import ItemTable.KeySchema

/-!
# Projections and existence

A projection lists attributes, each once.  An existence condition tests that the
key attributes of an item are present, or that they are not.
-/

namespace ItemTable

namespace Schema

/-- The projection on attributes, unless there are none. -/
def projection (schema : Schema) (attributes : List String) :
    Except CompileError (Option Fragment) :=
  match attributes.find? fun name => !schema.declares name with
  | some name => .error (.unknownProperty name)
  | none =>
      match attributes.eraseDups.zipIdx 1 with
      | [] => .ok none
      | numbered => .ok (some {
          expression := String.ofList (Piece.join [',', ' ']
            (numbered.map fun entry => Placeholder.nameChars ['p'] entry.2))
          names := numbered.map fun entry =>
            (String.ofList (Placeholder.nameChars ['p'] entry.2), entry.1)
          values := [] })

end Schema

namespace KeySchema

def hashPlaceholder : String := "#_hash_key"

def rangePlaceholder : String := "#_range_key"

/-- The condition that a function holds of every key attribute. -/
def existence (key : KeySchema) (function : String) : Fragment :=
  let hash := Fragment.ofText s!"{function}({hashPlaceholder})"
  let hash := hash.withName hashPlaceholder key.hash
  match key.range with
  | none => hash
  | some range =>
      { hash with
        expression := hash.expression ++ s!" AND {function}({rangePlaceholder})" }.withName
          rangePlaceholder range

/-- The condition that no item has the key. -/
def createCondition (key : KeySchema) : Fragment :=
  key.existence "attribute_not_exists"

/-- The condition that an item has the key. -/
def existsCondition (key : KeySchema) : Fragment :=
  key.existence "attribute_exists"

end KeySchema

end ItemTable
