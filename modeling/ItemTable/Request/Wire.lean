import ItemTable.Request.Basic

/-!
# Requests as JSON

A request is written as an object whose optional fields are left out when they
are absent and whose bindings are left out when there are none.  Bindings have no
order of their own, and are written in the one that they are given in.
-/

namespace ItemTable

/-- An optional text as a field. -/
def textField (name : String) (text : Option String) : List (String × List Char) :=
  text.toList.map fun text => (name, Json.writeText text)

/-- Bindings of names as a field. -/
def namesField (names : Entries String) : List (String × List Char) :=
  if names.isEmpty then [] else [("ExpressionAttributeNames", Fragment.wireNames names)]

/-- Bindings of values as a field. -/
def valuesField (values : Entries Value) : List (String × List Char) :=
  if values.isEmpty then [] else [("ExpressionAttributeValues", Fragment.wireValues values)]

/-- A limit as a field. -/
def limitField (limit : Option Nat) : List (String × List Char) :=
  limit.toList.map fun limit => ("Limit", Nat.toDigits 10 limit)

/-- A direction as a field. -/
def forwardField (forward : Option Bool) : List (String × List Char) :=
  forward.toList.map fun forward => ("ScanIndexForward", (Value.bool forward).wireChars)

namespace Bindings

def wireFields (bindings : Bindings) : List (String × List Char) :=
  namesField bindings.names ++ valuesField bindings.values

/-- The bindings written by a record. -/
def ofRecord? (record : Json.Record) : Option Bindings := do
  let names ← record.defaulted "ExpressionAttributeNames" [] Fragment.namesOfJson?
  let values ← record.defaulted "ExpressionAttributeValues" [] Fragment.valuesOfJson?
  some { names, values }

end Bindings

namespace PutRequest

def wireFields (request : PutRequest) : List (String × List Char) :=
  [("TableName", Json.writeText request.tableName), ("Item", request.item.wireChars)] ++
    textField "ConditionExpression" request.condition ++ request.bindings.wireFields

def ofJson? (room : Nat) (tree : Json) : Option PutRequest := do
  let record ← tree.record? room
    ["TableName", "Item", "ConditionExpression", "ExpressionAttributeNames",
      "ExpressionAttributeValues"]
  let tableName ← record.required "TableName" Json.text?
  let item ← record.required "Item" Document.ofJson?
  let condition ← record.optional "ConditionExpression" Json.text?
  let bindings ← Bindings.ofRecord? record
  some { tableName, item, condition, bindings }

end PutRequest

namespace UpdateRequest

def wireFields (request : UpdateRequest) : List (String × List Char) :=
  [("TableName", Json.writeText request.tableName), ("Key", request.key.wireChars)] ++
    textField "UpdateExpression" request.update ++
    textField "ConditionExpression" request.condition ++ request.bindings.wireFields

def ofJson? (room : Nat) (tree : Json) : Option UpdateRequest := do
  let record ← tree.record? room
    ["TableName", "Key", "UpdateExpression", "ConditionExpression",
      "ExpressionAttributeNames", "ExpressionAttributeValues"]
  let tableName ← record.required "TableName" Json.text?
  let key ← record.required "Key" Document.ofJson?
  let update ← record.optional "UpdateExpression" Json.text?
  let condition ← record.optional "ConditionExpression" Json.text?
  let bindings ← Bindings.ofRecord? record
  some { tableName, key, update, condition, bindings }

end UpdateRequest

namespace DeleteRequest

def wireFields (request : DeleteRequest) : List (String × List Char) :=
  [("TableName", Json.writeText request.tableName), ("Key", request.key.wireChars)] ++
    textField "ConditionExpression" request.condition ++ request.bindings.wireFields

def ofJson? (room : Nat) (tree : Json) : Option DeleteRequest := do
  let record ← tree.record? room
    ["TableName", "Key", "ConditionExpression", "ExpressionAttributeNames",
      "ExpressionAttributeValues"]
  let tableName ← record.required "TableName" Json.text?
  let key ← record.required "Key" Document.ofJson?
  let condition ← record.optional "ConditionExpression" Json.text?
  let bindings ← Bindings.ofRecord? record
  some { tableName, key, condition, bindings }

end DeleteRequest

namespace GetRequest

def wireFields (request : GetRequest) : List (String × List Char) :=
  [("TableName", Json.writeText request.tableName), ("Key", request.key.wireChars)] ++
    textField "ProjectionExpression" request.projection ++ namesField request.names

def ofJson? (room : Nat) (tree : Json) : Option GetRequest := do
  let record ← tree.record? room
    ["TableName", "Key", "ProjectionExpression", "ExpressionAttributeNames"]
  let tableName ← record.required "TableName" Json.text?
  let key ← record.required "Key" Document.ofJson?
  let projection ← record.optional "ProjectionExpression" Json.text?
  let names ← record.defaulted "ExpressionAttributeNames" [] Fragment.namesOfJson?
  some { tableName, key, projection, names }

end GetRequest

namespace QueryRequest

def wireFields (request : QueryRequest) : List (String × List Char) :=
  [("TableName", Json.writeText request.tableName)] ++
    textField "IndexName" request.index ++
    [("KeyConditionExpression", Json.writeText request.keyCondition)] ++
    textField "FilterExpression" request.filter ++
    textField "ProjectionExpression" request.projection ++ request.bindings.wireFields ++
    forwardField request.forward ++ limitField request.limit

def ofJson? (room : Nat) (tree : Json) : Option QueryRequest := do
  let record ← tree.record? room
    ["TableName", "IndexName", "KeyConditionExpression", "FilterExpression",
      "ProjectionExpression", "ExpressionAttributeNames", "ExpressionAttributeValues",
      "ScanIndexForward", "Limit"]
  let tableName ← record.required "TableName" Json.text?
  let index ← record.optional "IndexName" Json.text?
  let keyCondition ← record.required "KeyConditionExpression" Json.text?
  let filter ← record.optional "FilterExpression" Json.text?
  let projection ← record.optional "ProjectionExpression" Json.text?
  let bindings ← Bindings.ofRecord? record
  let forward ← record.optional "ScanIndexForward" Json.flag?
  let limit ← record.optional "Limit" Json.count?
  some { tableName, index, keyCondition, filter, projection, bindings, forward, limit }

end QueryRequest

namespace ScanRequest

def wireFields (request : ScanRequest) : List (String × List Char) :=
  [("TableName", Json.writeText request.tableName)] ++
    textField "IndexName" request.index ++
    textField "FilterExpression" request.filter ++
    textField "ProjectionExpression" request.projection ++ request.bindings.wireFields ++
    limitField request.limit

def ofJson? (room : Nat) (tree : Json) : Option ScanRequest := do
  let record ← tree.record? room
    ["TableName", "IndexName", "FilterExpression", "ProjectionExpression",
      "ExpressionAttributeNames", "ExpressionAttributeValues", "Limit"]
  let tableName ← record.required "TableName" Json.text?
  let index ← record.optional "IndexName" Json.text?
  let filter ← record.optional "FilterExpression" Json.text?
  let projection ← record.optional "ProjectionExpression" Json.text?
  let bindings ← Bindings.ofRecord? record
  let limit ← record.optional "Limit" Json.count?
  some { tableName, index, filter, projection, bindings, limit }

end ScanRequest

end ItemTable
