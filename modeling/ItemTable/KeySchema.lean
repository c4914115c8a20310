import ItemTable.Json.Record
import ItemTable.Json.Writer

/-!
# Keys and indexes

A key schema names the hash property of a table or index and, optionally, its
range property.  A secondary index has a name and a key schema of its own.
-/

namespace ItemTable

/-- The properties that make up a key. -/
structure KeySchema where
  hash : String
  range : Option String
  deriving DecidableEq

/-- Whether a secondary index has any hash property or shares the table's. -/
inductive IndexKind
  | globalIndex
  | localIndex
  deriving DecidableEq

/-- A named secondary index. -/
structure IndexDefinition where
  name : String
  kind : IndexKind
  key : KeySchema
  deriving DecidableEq

namespace KeySchema

/-- The key properties, hash first. -/
def attributes (key : KeySchema) : List String :=
  key.hash :: key.range.toList

def contains (key : KeySchema) (name : String) : Bool :=
  key.attributes.contains name

/-- The key as fields of a JSON object. -/
def wireFields (key : KeySchema) : List (String × List Char) :=
  ("hash", Json.writeText key.hash) ::
    key.range.toList.map fun range => ("range", Json.writeText range)

def wireText (key : KeySchema) : String :=
  String.ofList (Json.writeObject key.wireFields)

/-- The key written by a JSON tree. -/
def ofJson? (room : Nat) (tree : Json) : Option KeySchema := do
  let record ← tree.record? room ["hash", "range"]
  let hash ← record.required "hash" Json.text?
  let range ← record.optionalAnywhere "range" Json.text?
  some { hash, range }

end KeySchema

namespace IndexKind

def tag : IndexKind → String
  | globalIndex => "global"
  | localIndex => "local"

def ofSpelling? (spelling : String) : Option IndexKind :=
  if spelling == "global" then some globalIndex
  else if spelling == "local" then some localIndex
  else none

end IndexKind

namespace IndexDefinition

def wireText (index : IndexDefinition) : String :=
  String.ofList (Json.writeObject
    (("name", Json.writeText index.name) :: ("kind", Json.writeText index.kind.tag) ::
      index.key.wireFields))

/-- The index written by a JSON object.  The key stands among the index's own
fields, so every field of the object has to be sound. -/
def ofJson? (room : Nat) (tree : Json) : Option IndexDefinition :=
  match tree with
  | .object _ => do
      let record ← tree.record? room ["name", "kind", "hash", "range"]
      if tree.isSound room then
        let name ← record.required "name" Json.text?
        let kind ← record.defaulted "kind" .globalIndex (Json.word? IndexKind.ofSpelling?)
        let key ← KeySchema.ofJson? room tree
        some { name, kind, key }
      else none
  | _ => none

end IndexDefinition

end ItemTable
