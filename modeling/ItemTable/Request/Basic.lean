import ItemTable.Expression.Fragment

/-!
# Requests

A request is what is sent to the store for one operation on items: expressions
are plain texts, and the placeholders of all of them are bound in one place.
Attaching a fragment keeps the bindings that are there.
-/

namespace ItemTable

/-- What the placeholders of a request stand for. -/
structure Bindings where
  names : Entries String := []
  values : Entries Value := []

/-- Adds the bindings of a fragment. -/
def Bindings.absorb (bindings : Bindings) (fragment : Fragment) : Bindings :=
  { names := bindings.names.bindAll fragment.names
    values := bindings.values.bindAll fragment.values }

/-- Stores an item. -/
structure PutRequest where
  tableName : String
  item : Document
  condition : Option String := none
  bindings : Bindings := {}

/-- Changes the item with a key. -/
structure UpdateRequest where
  tableName : String
  key : Document
  update : Option String := none
  condition : Option String := none
  bindings : Bindings := {}

/-- Deletes the item with a key. -/
structure DeleteRequest where
  tableName : String
  key : Document
  condition : Option String := none
  bindings : Bindings := {}

/-- Reads the item with a key. -/
structure GetRequest where
  tableName : String
  key : Document
  projection : Option String := none
  names : Entries String := []

/-- Reads the items that meet a key condition. -/
structure QueryRequest where
  tableName : String
  index : Option String := none
  keyCondition : String
  filter : Option String := none
  projection : Option String := none
  bindings : Bindings := {}
  forward : Option Bool := none
  limit : Option Nat := none

/-- Reads all items. -/
structure ScanRequest where
  tableName : String
  index : Option String := none
  filter : Option String := none
  projection : Option String := none
  bindings : Bindings := {}
  limit : Option Nat := none

namespace PutRequest

def withCondition (request : PutRequest) (fragment : Fragment) : PutRequest :=
  { request with
    condition := some fragment.expression
    bindings := request.bindings.absorb fragment }

end PutRequest

namespace UpdateRequest

def withUpdate (request : UpdateRequest) (fragment : Fragment) : UpdateRequest :=
  { request with
    update := some fragment.expression
    bindings := request.bindings.absorb fragment }

def withCondition (request : UpdateRequest) (fragment : Fragment) : UpdateRequest :=
  { request with
    condition := some fragment.expression
    bindings := request.bindings.absorb fragment }

end UpdateRequest

namespace DeleteRequest

def withCondition (request : DeleteRequest) (fragment : Fragment) : DeleteRequest :=
  { request with
    condition := some fragment.expression
    bindings := request.bindings.absorb fragment }

end DeleteRequest

namespace GetRequest

def withProjection (request : GetRequest) (fragment : Fragment) : GetRequest :=
  { request with
    projection := some fragment.expression
    names := request.names.bindAll fragment.names }

end GetRequest

namespace QueryRequest

/-- The query of a table on a key condition. -/
def ofKeyCondition (tableName : String) (fragment : Fragment) : QueryRequest :=
  { tableName
    keyCondition := fragment.expression
    bindings := Bindings.absorb {} fragment }

def withFilter (request : QueryRequest) (fragment : Fragment) : QueryRequest :=
  { request with
    filter := some fragment.expression
    bindings := request.bindings.absorb fragment }

def withProjection (request : QueryRequest) (fragment : Fragment) : QueryRequest :=
  { request with
    projection := some fragment.expression
    bindings := request.bindings.absorb fragment }

end QueryRequest

namespace ScanRequest

def withFilter (request : ScanRequest) (fragment : Fragment) : ScanRequest :=
  { request with
    filter := some fragment.expression
    bindings := request.bindings.absorb fragment }

def withProjection (request : ScanRequest) (fragment : Fragment) : ScanRequest :=
  { request with
    projection := some fragment.expression
    bindings := request.bindings.absorb fragment }

end ScanRequest

end ItemTable
