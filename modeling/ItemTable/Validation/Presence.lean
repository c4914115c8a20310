import ItemTable.Schema.Basic
import ItemTable.Validation.Error

/-!
# Missing and unexpected fields

Two checks report all places at once: required fields without a default that are
absent, in schema order, and fields that are not declared, in document order.
Both look into the documents that are present inside.
-/

namespace ItemTable.Schema

/-- The findings in the documents among list elements, each under its position. -/
def findInElements (find : String → Document → List String) (path : String) :
    Nat → List Value → List String
  | _, [] => []
  | position, item :: rest =>
      (match item with
        | .map fields => find (path ++ Path.element position) fields
        | _ => []) ++ findInElements find path (position + 1) rest

mutual

/-- The paths of missing fields of properties. -/
def missingFields (parent : String) : List Property → Document → List String
  | [], _ => []
  | property :: rest, document =>
      missingField parent property document ++ missingFields parent rest document

/-- The paths of missing fields at and inside one property. -/
def missingField (parent : String) : Property → Document → List String
  | ⟨traits, nested⟩, document =>
      let path := Path.join parent traits.name
      match document.get? traits.name with
      | none => if traits.required && traits.default.isNone then [path] else []
      | some value => missingInside path nested value

/-- The paths of missing fields of the documents inside a value. -/
def missingInside (path : String) : Option (List Property) → Value → List String
  | some schema, .map fields => missingFields path schema fields
  | some schema, .list items =>
      findInElements (fun path fields => missingFields path schema fields) path 0 items
  | _, _ => []

end

mutual

/-- The paths of undeclared fields of the documents inside a value. -/
def unexpectedInside (path : String) (nested : Option (List Property)) :
    Value → List String
  | .map fields =>
      match nested with
      | some schema => unexpectedFields path schema fields
      | none => []
  | .list items =>
      match nested with
      | some schema => unexpectedElements path schema 0 items
      | none => []
  | _ => []

/-- The paths of undeclared fields of the documents among list elements. -/
def unexpectedElements (path : String) (schema : List Property) :
    Nat → List Value → List String
  | _, [] => []
  | position, item :: rest =>
      (if item matches .map _ then
        unexpectedInside (path ++ Path.element position) (some schema) item
      else []) ++ unexpectedElements path schema (position + 1) rest

/-- The paths of undeclared fields. -/
def unexpectedFields (parent : String) (schema : List Property) :
    List (String × Value) → List String
  | [] => []
  | (name, value) :: rest =>
      let path := Path.join parent name
      (match Schema.get? schema name with
        | none => [path]
        | some property => unexpectedInside path property.properties value) ++
        unexpectedFields parent schema rest

end

/-- Refuses a document that lacks a required field without a default. -/
def testRequired (schema : Schema) (document : Document) : Except ValidationError Unit :=
  match missingFields "" schema document with
  | [] => .ok ()
  | paths => .error (.missingRequired paths)

/-- Refuses a document with a field that is not declared. -/
def testDeclared (schema : Schema) (document : Document) : Except ValidationError Unit :=
  match unexpectedFields "" schema document with
  | [] => .ok ()
  | paths => .error (.unexpectedFields paths)

end ItemTable.Schema
