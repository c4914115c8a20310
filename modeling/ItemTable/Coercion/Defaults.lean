import ItemTable.Coercion.Error

/-!
# Defaults and composites

`fill` gives absent fields their defaults, in schema order, so that a default
sees the fields filled before it.  It goes on into documents that are present,
but not into lists.  Producers are counted in `Calls`, also when filling fails.

`refresh` renders every composite anew whose variables are all supplied.
-/

namespace ItemTable.Schema

mutual

/-- Fills the fields of properties. -/
def fillFields : List Property → Document → Calls → Except CoercionError Document × Calls
  | [], document, calls => (.ok document, calls)
  | property :: rest, document, calls =>
      match fillField property document calls with
      | (.ok document, calls) => fillFields rest document calls
      | (.error error, calls) => (.error error, calls)

/-- Fills the field of one property. -/
def fillField : Property → Document → Calls → Except CoercionError Document × Calls
  | ⟨traits, nested⟩, document, calls =>
      match document.get? traits.name with
      | none =>
          match traits.default with
          | none => (.ok document, calls)
          | some default =>
              match default.resolve document calls with
              | (.ok value, calls) => (.ok (document.put traits.name value), calls)
              | (.error source, calls) => (.error (.hook traits.name .default source), calls)
      | some value =>
          match fillInside nested value calls with
          | (.ok none, calls) => (.ok document, calls)
          | (.ok (some value), calls) => (.ok (document.put traits.name value), calls)
          | (.error error, calls) => (.error (error.under traits.name), calls)

/-- Fills a document inside; other values give no result. -/
def fillInside : Option (List Property) → Value → Calls →
    Except CoercionError (Option Value) × Calls
  | some schema, .map fields, calls =>
      match fillFields schema fields calls with
      | (.ok fields, calls) => (.ok (some (.map fields)), calls)
      | (.error error, calls) => (.error error, calls)
  | _, _, calls => (.ok none, calls)

end

/-- A document with the defaults of its absent fields. -/
def fill (schema : Schema) (document : Document) (calls : Calls) :
    Except CoercionError Document × Calls :=
  fillFields schema document calls

/-- Renders the composite of one property anew. -/
def refreshField (document : Document) (property : Property) : Document :=
  match property.composite with
  | some template =>
      if template.isSatisfiedBy document then
        document.put property.name (.string (template.render document))
      else document
  | none => document

/-- A document with its composites rendered anew, in one pass in schema order. -/
def refresh (schema : Schema) (document : Document) : Document :=
  schema.foldl refreshField document

end ItemTable.Schema
