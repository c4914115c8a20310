import ItemTable.Coercion.Stored

/-!
# Reading documents

A read visits the fields of a stored document in their own order.  Undeclared
fields and nulls stay as they are; of a declared field, first the documents
inside are read and then the value itself.
-/

namespace ItemTable.Schema

mutual

/-- Reads the documents inside a value under a schema. -/
def readInside (nested : Option (List Property)) : Value → Except CoercionError Value
  | .map fields =>
      match nested with
      | some schema => (readFields schema fields).map .map
      | none => .ok (.map fields)
  | .list items =>
      match nested with
      | some schema => (readElements schema 0 items).map .list
      | none => .ok (.list items)
  | value => .ok value

/-- Reads the documents among list elements. -/
def readElements (schema : List Property) :
    Nat → List Value → Except CoercionError (List Value)
  | _, [] => .ok []
  | position, item :: rest => do
      let item ←
        if item matches .map _ then
          (readInside (some schema) item).mapError (·.under (Path.element position))
        else .ok item
      let rest ← readElements schema (position + 1) rest
      return item :: rest

/-- Reads fields in order. -/
def readFields (schema : List Property) :
    List (String × Value) → Except CoercionError (List (String × Value))
  | [] => .ok []
  | (name, value) :: rest => do
      let value ← match Schema.get? schema name with
        | none => .ok value
        | some property =>
            if value.isNull then .ok value
            else
              ((readInside property.properties value).bind property.load).mapError (·.under name)
      let rest ← readFields schema rest
      return (name, value) :: rest

end

/-- The domain form of a stored document. -/
def read (schema : Schema) (document : Document) : Except CoercionError Document :=
  readFields schema document

/-- The domain forms of stored documents in order, up to the first that fails. -/
def readAll (schema : Schema) (documents : List Document) :
    Except CoercionError (List Document) :=
  documents.mapM (read schema)

end ItemTable.Schema
