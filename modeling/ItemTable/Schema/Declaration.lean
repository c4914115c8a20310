import ItemTable.Json.Record
import ItemTable.Schema.Basic

/-!
# Declarations

A declaration is a property as its author writes it, before types are resolved
and templates installed.  The declarations of a schema keep their order and may
repeat a name, which is for normalization to report.

Declarations are read from JSON, where a schema is an object of properties.  Code
has no JSON form and is attached afterwards.
-/

namespace ItemTable

/-- What an author declares of a property, apart from the schema inside it. -/
structure DeclaredTraits where
  /-- A spelling of the type. -/
  type : String
  required : Bool := false
  default : Option DefaultValue := none
  hooks : StageHooks := {}
  get : Option Transform := none
  set : Option Transform := none
  /-- The allowed values, which should be a list. -/
  allowed : Option Value := none
  validators : List (String × Validator) := []
  /-- The text of a template. -/
  composite : Option String := none
  format : Option DateFormat := none

/-- A property as declared. -/
structure Declaration extends DeclaredTraits where
  /-- The declarations of the schema inside. -/
  properties : Option (List (String × Declaration)) := none

/-- Named declarations in order. -/
abbrev Declarations := List (String × Declaration)

namespace Declaration

/-- The fields of a declaration, in the order in which an array would hold them. -/
def fieldNames : List String :=
  ["type", "required", "default", "enum", "validate", "composite", "format", "properties"]

/-- The traits written by a record. -/
def traitsOfRecord? (record : Json.Record) : Option DeclaredTraits := do
  let type ← record.required "type" Json.text?
  let required ← record.defaulted "required" false Json.flag?
  let default ← record.optionalAnywhere "default" Value.ofJson?
  let allowed ← record.optionalAnywhere "enum" Value.ofJson?
  let validators ← record.defaulted "validate" [] (Json.entries? Value.ofJson?)
  let composite ← record.optionalAnywhere "composite" Json.text?
  let format ← record.optionalAnywhere "format" (Json.word? DateFormat.ofSpelling?)
  some {
    type, required, allowed, composite, format
    default := default.map .constant
    validators := validators.map fun entry => (entry.1, .builtin entry.2) }

mutual

/-- The declaration written by a JSON tree. -/
def ofJson? : Nat → Json → Option Declaration
  | 0, _ => none
  | room + 1, tree => do
      let record ← tree.record? (room + 1) fieldNames
      let traits ← traitsOfRecord? record
      let properties ← record.optionalAnywhere "properties" fun _ tree => allOfJson? room tree
      some { toDeclaredTraits := traits, properties }

/-- The declarations written by a JSON object. -/
def allOfJson? : Nat → Json → Option Declarations
  | 0, _ => none
  | room + 1, .object fields => do
      let fields ← Json.namedFields fields
      fields.mapM fun field =>
        (ofJson? room field.2).map fun declaration => (field.1, declaration)
  | _, _ => none

end

/-- Changes the traits of the properties at a path of names. -/
def modifyAt (change : DeclaredTraits → DeclaredTraits) :
    List String → Declarations → Declarations
  | [], declarations => declarations
  | name :: rest, declarations => declarations.map fun (key, declaration) =>
      if key ≠ name then (key, declaration)
      else if rest.isEmpty then
        (key, { declaration with toDeclaredTraits := change declaration.toDeclaredTraits })
      else
        (key, { declaration with
          properties := declaration.properties.map (modifyAt change rest) })

end Declaration

/-- The declarations written by a JSON text. -/
def Declarations.parse? (text : String) : Option Declarations :=
  (Json.parse? text).bind (Declaration.allOfJson? Json.depthLimit)

end ItemTable
