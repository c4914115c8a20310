import ItemTable.Coercion.Read
import ItemTable.Table.Write

/-!
# Read requests

A get reads one item by its key.  A query reads the items under one hash key of
the table or of an index; the index may be named, or it is the first whose hash
key the key condition tests.  A scan reads all items.
-/

namespace ItemTable.Table

/-- The projection on attributes. -/
def projection (table : Table) (attributes : List String) :
    Except TableError (Option Fragment) :=
  (table.schema.projection attributes).mapError .compile

/-- The request that reads an item. -/
def get (table : Table) (key : Document) (attributes : List String) :
    Except TableError GetRequest := do
  let key ← table.keyOf key
  let request : GetRequest := { tableName := table.tableName, key }
  match ← table.projection attributes with
  | none => return request
  | some projection => return request.withProjection projection

/-- What a query asks for. -/
structure Query where
  key : Where
  filter : Option Where := none
  index : Option String := none
  /-- The attributes to return, or all of them if there are none. -/
  attributes : List String := []
  limit : Option Nat := none
  forward : Option Bool := none

/-- What a scan asks for. -/
structure Scan where
  filter : Option Where := none
  index : Option String := none
  /-- The attributes to return, or all of them if there are none. -/
  attributes : List String := []
  limit : Option Nat := none

/-- The index with the given name. -/
def namedIndex (table : Table) (name : String) : Except CompileError IndexDefinition :=
  match table.indexes.find? fun index => index.name = name with
  | some index => .ok index
  | none => .error (.unknownIndex name)

/-- The index of a query and its key; the primary key has no index name. -/
def resolveIndex (table : Table) (query : Query) :
    Except CompileError (Option String × KeySchema) :=
  match query.index with
  | some name => (table.namedIndex name).map fun index => (some index.name, index.key)
  | none =>
      let names := query.key.attributeNames
      if names.contains table.key.hash then .ok (none, table.key)
      else
        match table.indexes.find? fun index => names.contains index.key.hash with
        | some index => .ok (some index.name, index.key)
        | none => .error (.noMatchingIndex names)

/-- Whether a condition is an equality. -/
def isEquality : Condition → Bool
  | .bare _ => true
  | .operators [(.eq, _)] => true
  | .operators _ => false

/-- Tests that clauses are on the attributes of a key.  The result says whether the
last clause on the hash attribute is an equality, or `tested` without such a clause. -/
def testKeyClauses (key : KeySchema) (index : String) (tested : Bool) :
    List Clause → Except CompileError Bool
  | [] => .ok tested
  | .group _ _ :: rest => testKeyClauses key index tested rest
  | .condition name condition :: rest =>
      if !key.contains name then .error (.notAKeyAttribute name index)
      else
        testKeyClauses key index (if name = key.hash then isEquality condition else tested) rest

/-- The fragment of a key condition, which tests the hash attribute. -/
def keyFragment (table : Table) (key : KeySchema) (index : String) (document : Where) :
    Except CompileError Fragment := do
  let tested ← testKeyClauses key index false document
  if !tested then throw (.missingHashCondition key.hash)
  match ← document.keyCondition table.schema with
  | none => throw (.missingHashCondition key.hash)
  | some fragment => return fragment

/-- The request that reads the items of a query. -/
def query (table : Table) (query : Query) : Except TableError QueryRequest := do
  let (index, key) ← (table.resolveIndex query).mapError TableError.compile
  let fragment ← (table.keyFragment key (index.getD primaryIndex) query.key).mapError
    TableError.compile
  let request : QueryRequest :=
    { QueryRequest.ofKeyCondition table.tableName fragment with
      index, limit := query.limit, forward := query.forward }
  let filter ← table.filter query.filter
  let request := (filter.map request.withFilter).getD request
  let projection ← table.projection query.attributes
  return (projection.map request.withProjection).getD request

/-- The request that reads the items of a scan. -/
def scan (table : Table) (scan : Scan) : Except TableError ScanRequest := do
  let index ← match scan.index with
    | none => .ok none
    | some name =>
        ((table.namedIndex name).map fun index => some index.name).mapError TableError.compile
  let request : ScanRequest := { tableName := table.tableName, index, limit := scan.limit }
  let filter ← table.filter scan.filter
  let request := (filter.map request.withFilter).getD request
  let projection ← table.projection scan.attributes
  return (projection.map request.withProjection).getD request

/-- The domain form of a stored item. -/
def read (table : Table) (item : Document) : Except TableError Document :=
  (table.schema.read item).mapError .coercion

/-- The domain forms of stored items in order, up to the first that fails. -/
def readAll (table : Table) (items : List Document) : Except TableError (List Document) :=
  (table.schema.readAll items).mapError .coercion

end ItemTable.Table
