import ItemTable.Instant.Iso
import ItemTable.Json.Reader
import ItemTable.Json.Writer
import ItemTable.Number.Layout
import ItemTable.Text.Base64
import ItemTable.Value.Basic

/-!
# Texts of values

`wireText` is the JSON text of a value; instants become ISO text and bytes
become base64 strings.  `displayText` is the value as spliced into other text:
the same, but for strings, instants and bytes without quotes, and with the
plain layout of numbers.

`ofJson?` is the value of a JSON tree.  It never makes instants or bytes.
-/

namespace ItemTable

namespace Value

mutual

/-- The JSON text of a value. -/
def wireChars : Value → List Char
  | null => ['n', 'u', 'l', 'l']
  | bool true => ['t', 'r', 'u', 'e']
  | bool false => ['f', 'a', 'l', 's', 'e']
  | number value => value.wireText.toList
  | string text => Json.writeText text
  | date instant => Text.quoteJson instant.isoText
  | binary bytes => Text.quoteJson (Text.base64 bytes)
  | list items => Json.writeArray (wireItems items)
  | map fields => Json.writeObject (wireFields fields)

/-- The JSON texts of items. -/
def wireItems : List Value → List (List Char)
  | [] => []
  | item :: rest => wireChars item :: wireItems rest

/-- Names with the JSON texts of their values. -/
def wireFields : List (String × Value) → List (String × List Char)
  | [] => []
  | (name, value) :: rest => (name, wireChars value) :: wireFields rest

end

def wireText (value : Value) : String :=
  String.ofList value.wireChars

/-- The value as spliced into other text. -/
def displayText : Value → String
  | number value => value.displayText
  | string text => text
  | date instant => String.ofList instant.isoText
  | binary bytes => String.ofList (Text.base64 bytes)
  | value => value.wireText

mutual

/-- The value of a JSON tree in which at most `room` containers nest. -/
def ofJson? : Nat → Json → Option Value
  | _, .null => some .null
  | _, .bool value => some (.bool value)
  | _, .number lexeme => lexeme.scaled?.map .number
  | _, .string text => text.map .string
  | room, .array items =>
      if room = 0 then none else (itemsOfJson? (room - 1) items).map .list
  | room, .object fields =>
      if room = 0 then none else (entriesOfJson? (room - 1) fields).map
        fun entries => .map (Entries.ofList entries)

/-- The values of items. -/
def itemsOfJson? : Nat → List Json → Option (List Value)
  | _, [] => some []
  | room, item :: rest =>
      match ofJson? room item, itemsOfJson? room rest with
      | some item, some rest => some (item :: rest)
      | _, _ => none

/-- The named values of fields. -/
def entriesOfJson? : Nat → List (Option String × Json) → Option (List (String × Value))
  | _, [] => some []
  | room, (name, value) :: rest =>
      match name, ofJson? room value, entriesOfJson? room rest with
      | some name, some value, some rest => some ((name, value) :: rest)
      | _, _, _ => none

end

end Value

namespace Document

/-- The JSON text of a document. -/
def wireChars (document : Document) : List Char :=
  Json.writeObject (Value.wireFields document)

def wireText (document : Document) : String :=
  String.ofList document.wireChars

/-- The document of a JSON object. -/
def ofJson? (room : Nat) (tree : Json) : Option Document :=
  match Value.ofJson? room tree with
  | some (.map fields) => some fields
  | _ => none

end Document

end ItemTable
