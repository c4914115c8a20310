import ItemTable.Coercion.Stored
import ItemTable.Config
import ItemTable.Expression.Error
import ItemTable.Schema.Key
import ItemTable.Schema.Normalize
import ItemTable.Validation.Error

/-!
# Tables

A table has a schema, a primary key, secondary indexes and a configuration.
Defining a table tests all of them against each other.

The key of an item is taken from a document.  A composite key attribute that the
document does not supply is rendered from its template when the document supplies
all its variables.
-/

namespace ItemTable

/-- A table of items. -/
structure Table where
  name : String
  tableName : String
  schema : Schema
  key : KeySchema
  indexes : List IndexDefinition
  config : Config

/-- Why an operation on a table is refused. -/
inductive TableError
  | validation (error : ValidationError)
  | compile (error : CompileError)
  | coercion (error : CoercionError)
  | missingKey (name : String)

def TableError.message : TableError → String
  | validation error => error.message
  | compile error => error.message
  | coercion error => error.message
  | missingKey name => s!"missing key attribute '{name}'"

namespace Table

/-- The name of the primary key among indexes. -/
def primaryIndex : String := "primary"

/-- Tests the indexes of a table; `seen` holds the names before them. -/
def testIndexes (schema : Schema) (key : KeySchema) (seen : List String) :
    List IndexDefinition → Except SchemaError Unit
  | [] => .ok ()
  | index :: rest =>
      if index.name = primaryIndex ∨ index.name ∈ seen then
        .error ⟨index.name, .duplicateIndex index.name⟩
      else if index.kind = .localIndex ∧ index.key.hash ≠ key.hash then
        .error ⟨index.key.hash, .localIndexHashMismatch index.name key.hash⟩
      else do
        schema.testKey index.name index.key false
        testIndexes schema key (index.name :: seen) rest

/-- The table of declarations. -/
def define (name : String) (declarations : Declarations) (key : KeySchema)
    (indexes : List IndexDefinition) (config : Config) : Except SchemaError Table := do
  let schema ← Schema.ofDeclarations declarations
  schema.testKey primaryIndex key true
  testIndexes schema key [] indexes
  return { name, tableName := config.tableName name, schema, key, indexes, config }

/-- The value of a key attribute, as supplied or as rendered from its template. -/
def keyValue? (property : Property) (document : Document) : Option Value :=
  let rendered :=
    match property.composite with
    | some template =>
        if template.isSatisfiedBy document then some (.string (template.render document))
        else none
    | none => none
  match document.get? property.name with
  | some .null => rendered
  | some value => some value
  | none => rendered

/-- Adds key attributes to a key in order. -/
def keyFrom (table : Table) (document : Document) :
    List String → Document → Except TableError Document
  | [], key => .ok key
  | name :: rest, key =>
      match table.schema.get? name with
      | none => .error (.missingKey name)
      | some property =>
          match keyValue? property document with
          | none => .error (.missingKey name)
          | some value => do
              let stored ← (property.store value).mapError fun error =>
                TableError.coercion (error.under name)
              keyFrom table document rest (key.put name stored)

/-- The stored key of the item that a document describes. -/
def keyOf (table : Table) (document : Document) : Except TableError Document :=
  keyFrom table document table.key.attributes []

/-- A document without the key attributes. -/
def withoutKey (table : Table) (document : Document) : Document :=
  table.key.attributes.foldl Entries.remove document

end Table

end ItemTable
