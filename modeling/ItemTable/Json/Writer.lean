import ItemTable.Text.Quoted

/-!
# Writing JSON text

Compact JSON text: no blanks, items and fields in the given order.
-/

namespace ItemTable.Json

/-- Texts with commas between them. -/
def separate : List (List Char) → List Char
  | [] => []
  | [text] => text
  | text :: next :: rest => text ++ ',' :: separate (next :: rest)

/-- An array of written items. -/
def writeArray (items : List (List Char)) : List Char :=
  '[' :: separate items ++ [']']

/-- A field with a written value. -/
def writeField (name : String) (value : List Char) : List Char :=
  Text.quoteJson name.toList ++ ':' :: value

/-- An object of fields with written values. -/
def writeObject (fields : List (String × List Char)) : List Char :=
  '\x7b' :: separate (fields.map fun (name, value) => writeField name value) ++ ['\x7d']

/-- A text as a JSON string. -/
def writeText (text : String) : List Char :=
  Text.quoteJson text.toList

end ItemTable.Json
