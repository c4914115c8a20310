import ItemTable.Coercion.Defaults
import ItemTable.Coercion.Write
import ItemTable.Expression.Condition
import ItemTable.Expression.Projection
import ItemTable.Expression.Update
import ItemTable.Request.Basic
import ItemTable.Table.Basic
import ItemTable.Validation.Document
import ItemTable.Validation.Presence

/-!
# Write requests

A create fills in defaults and stores a whole item; an update sets the fields of
a document in an item that exists; an upsert does either, and overwrites only
what the caller or a hook has given.  No update touches a key attribute.
-/

namespace ItemTable.Table

/-- Refuses undeclared fields, if the table is strict. -/
def testStrict (table : Table) (document : Document) : Except TableError Unit :=
  if table.config.strictFields then
    (table.schema.testDeclared document).mapError .validation
  else .ok ()

def validate (table : Table) (document : Document) : Except TableError Unit :=
  (table.schema.validate document).mapError .validation

def write (table : Table) (stage : WriteStage) (document : Document) :
    Except TableError Document :=
  (table.schema.write stage document).mapError .coercion

/-- The fragment of an optional where-document. -/
def filter (table : Table) : Option Where → Except TableError (Option Fragment)
  | none => .ok none
  | some document => (document.filter table.schema).mapError .compile

/-- Refuses an item that lacks a key attribute. -/
def testKeyPresent (key : KeySchema) (item : Document) : Except TableError Unit :=
  match key.attributes.find? fun name => !item.supplies name with
  | some name => .error (.missingKey name)
  | none => .ok ()

/-- The put of a document whose defaults are filled in. -/
def putFilled (table : Table) (filled : Document) : Except TableError PutRequest := do
  table.validate filled
  let item ← table.write .create filled
  testKeyPresent table.key item
  let request : PutRequest := { tableName := table.tableName, item }
  return if table.config.createCondition then request.withCondition table.key.createCondition
    else request

/-- The tests of a document before defaults are filled in. -/
def testNew (table : Table) (document : Document) : Except TableError Unit := do
  table.testStrict document
  (table.schema.testRequired document).mapError .validation

/-- The request that creates an item. -/
def create (table : Table) (document : Document) (calls : Calls) :
    Except TableError PutRequest × Calls :=
  match table.testNew document with
  | .error error => (.error error, calls)
  | .ok _ =>
      match table.schema.fill document calls with
      | (.error error, calls) => (.error (.coercion error), calls)
      | (.ok filled, calls) => (table.putFilled filled, calls)

/-- The requests that create items in order, up to the first that fails. -/
def createMany (table : Table) : List Document → Calls →
    Except TableError (List PutRequest) × Calls
  | [], calls => (.ok [], calls)
  | document :: rest, calls =>
      match table.create document calls with
      | (.error error, calls) => (.error error, calls)
      | (.ok request, calls) =>
          match createMany table rest calls with
          | (.error error, calls) => (.error error, calls)
          | (.ok requests, calls) => (.ok (request :: requests), calls)

/-- The condition of an update: the item exists, and the caller's condition holds. -/
def updateGuard (table : Table) (condition : Option Where) : Except TableError Fragment := do
  match ← table.filter condition with
  | none => return table.key.existsCondition
  | some filter => return table.key.existsCondition.and filter

/-- The request that sets fields of an existing item. -/
def update (table : Table) (key changes : Document) (condition : Option Where) :
    Except TableError UpdateRequest := do
  let key ← table.keyOf key
  table.testStrict changes
  let body := table.withoutKey changes
  table.validate body
  let stored ← table.write .update body
  match (table.withoutKey stored).updateStatement? with
  | none => throw (.compile .emptyUpdate)
  | some statement =>
      let guard ← table.updateGuard condition
      let request : UpdateRequest := { tableName := table.tableName, key }
      return (request.withUpdate statement).withCondition guard

/-- The fields that an upsert overwrites: those supplied, and those with a hook. -/
def exactFields (table : Table) (document : Document) : List String :=
  document.names ++
    (table.schema.filter fun property => property.hooks.onUpsert.isSome).map (·.name)

/-- The upsert of a document whose defaults are filled in. -/
def upsertFilled (table : Table) (key document filled : Document) :
    Except TableError UpdateRequest := do
  table.validate filled
  let stored ← table.write .upsert filled
  let request : UpdateRequest := { tableName := table.tableName, key }
  match (table.withoutKey stored).upsertStatement? (table.exactFields document) with
  | none => return request
  | some statement => return request.withUpdate statement

/-- The key of an upsert, after the tests before defaults are filled in. -/
def upsertKey (table : Table) (document : Document) : Except TableError Document := do
  let key ← table.keyOf document
  table.testStrict document
  return key

/-- The request that creates an item or sets fields of an existing one. -/
def upsert (table : Table) (document : Document) (calls : Calls) :
    Except TableError UpdateRequest × Calls :=
  match table.upsertKey document with
  | .error error => (.error error, calls)
  | .ok key =>
      match table.schema.fill document calls with
      | (.error error, calls) => (.error (.coercion error), calls)
      | (.ok filled, calls) => (table.upsertFilled key document filled, calls)

/-- The request that deletes an item. -/
def delete (table : Table) (key : Document) (condition : Option Where) :
    Except TableError DeleteRequest := do
  let key ← table.keyOf key
  let request : DeleteRequest := { tableName := table.tableName, key }
  match ← table.filter condition with
  | none => return request
  | some filter => return request.withCondition filter

end ItemTable.Table
