import ItemTable.Coercion.Stored

/-!
# Writing documents

A write visits the properties of a schema in order.  The hook of the stage comes
first and may give an absent field a value or take one away; then documents
inside the value are written, and then the value is stored.

Two documents are carried along: `domain`, which hooks see and which holds the
results of earlier hooks, and `stored`, which becomes the result.
-/

namespace ItemTable

namespace PropertyTraits

/-- The value of a field after the hook of a stage. -/
def runHook (traits : PropertyTraits) (stage : WriteStage) (domain : Document) :
    Except CoercionError (Option Value) :=
  match traits.hooks.at stage with
  | none => .ok (domain.get? traits.name)
  | some hook =>
      (hook (domain.get? traits.name) domain).mapError fun source =>
        .hook traits.name stage.point source

/-- Gives a field a value or takes it away. -/
def assign (document : Document) (name : String) : Option Value → Document
  | some value => document.put name value
  | none => document.remove name

/-- The domain document after the hook of a stage, which is as before without one. -/
def afterHook (traits : PropertyTraits) (stage : WriteStage) (domain : Document)
    (value : Option Value) : Document :=
  if (traits.hooks.at stage).isSome then assign domain traits.name value else domain

end PropertyTraits

namespace Schema

open PropertyTraits (assign)

mutual

/-- Writes the fields of properties, from the domain and the stored document. -/
def writeFields (stage : WriteStage) :
    List Property → Document → Document → Except CoercionError Document
  | [], _, stored => .ok stored
  | property :: rest, domain, stored => do
      let (domain, stored) ← writeField stage property domain stored
      writeFields stage rest domain stored

/-- Writes the field of one property. -/
def writeField (stage : WriteStage) :
    Property → Document → Document → Except CoercionError (Document × Document)
  | ⟨traits, nested⟩, domain, stored => do
      let value ← traits.runHook stage domain
      let domain := traits.afterHook stage domain value
      match value with
      | none => return (domain, assign stored traits.name none)
      | some .null => return (domain, assign stored traits.name (some .null))
      | some value =>
          let inside := writeInside stage nested value
          let value ← (inside.bind traits.store).mapError (·.under traits.name)
          return (domain, assign stored traits.name (some value))

/-- Writes the documents inside a value. -/
def writeInside (stage : WriteStage) :
    Option (List Property) → Value → Except CoercionError Value
  | some schema, .map fields => (writeFields stage schema fields fields).map .map
  | some schema, .list items =>
      (coerceElements (fun fields => writeFields stage schema fields fields) 0 items).map .list
  | _, value => .ok value

end

/-- The stored form of a document. -/
def write (schema : Schema) (stage : WriteStage) (document : Document) :
    Except CoercionError Document :=
  writeFields stage schema document document

/-- The stored forms of documents in order, up to the first that fails. -/
def writeAll (schema : Schema) (stage : WriteStage) (documents : List Document) :
    Except CoercionError (List Document) :=
  documents.mapM (write schema stage)

end Schema

end ItemTable
