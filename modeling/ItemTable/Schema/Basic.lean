import ItemTable.AttributeType
import ItemTable.Template
import ItemTable.Value.Basic

/-!
# Schemas

A schema is a list of properties in the order they are declared.  A property
says what values a field may hold and how they are defaulted, checked and
stored; list and object properties may carry a schema for the documents inside.

User code enters a property as plain functions.  A failing function gives the
text of its error.  A default may be produced by code whose answer depends on
how often it has been asked; the counts are kept outside the schema, as `Calls`.
-/

namespace ItemTable

/-- Computes a field on a write, from its current value and the document so far.
No result leaves the field absent. -/
abbrev Hook := Option Value → Document → Except String (Option Value)

/-- Changes a value on its way into or out of storage. -/
abbrev Transform := Value → Except String Value

/-- Decides whether a value is valid. -/
abbrev Predicate := Value → Except String Bool

/-- Code that produces default values: its answer to each call in turn.  The slot
tells the counts of different producers apart. -/
structure Producer where
  slot : Nat
  answer : Nat → Except String Value

/-- How often the producer of each slot has been called. -/
abbrev Calls := Nat → Nat

namespace Calls

def none : Calls := fun _ => 0

/-- One more call in a slot. -/
def record (calls : Calls) (slot : Nat) : Calls :=
  fun other => if other = slot then calls slot + 1 else calls other

end Calls

/-- The default of an absent field. -/
inductive DefaultValue
  | constant (value : Value)
  | produced (producer : Producer)
  | composite (template : Template)

/-- One entry of a property's checks: the parameter of the built-in check of the
same name, or user code. -/
inductive Validator
  | builtin (parameter : Value)
  | custom (predicate : Predicate)

/-- Which write is under way. -/
inductive WriteStage
  | create
  | update
  | upsert
  deriving DecidableEq

/-- The hooks of a property. -/
structure StageHooks where
  onCreate : Option Hook := none
  onUpdate : Option Hook := none
  onUpsert : Option Hook := none

/-- The hook that a stage runs. -/
def StageHooks.at (hooks : StageHooks) : WriteStage → Option Hook
  | .create => hooks.onCreate
  | .update => hooks.onUpdate
  | .upsert => hooks.onUpsert

/-- Replaces the hook that a stage runs. -/
def StageHooks.set (hooks : StageHooks) (hook : Hook) : WriteStage → StageHooks
  | .create => { hooks with onCreate := some hook }
  | .update => { hooks with onUpdate := some hook }
  | .upsert => { hooks with onUpsert := some hook }

/-- What a schema says of a property, apart from the schema inside it. -/
structure PropertyTraits where
  name : String
  type : AttributeType
  required : Bool
  default : Option DefaultValue
  hooks : StageHooks
  get : Option Transform
  set : Option Transform
  /-- The only values allowed. -/
  allowed : Option (List Value)
  validators : List (String × Validator)
  /-- The template that the property is rendered from. -/
  composite : Option Template
  format : DateFormat

/-- A property of a schema. -/
structure Property extends PropertyTraits where
  /-- The schema of the documents inside. -/
  properties : Option (List Property)

/-- Properties in the order they are declared. -/
abbrev Schema := List Property

namespace PropertyTraits

/-- The parameter of the first entry for a built-in check. -/
def builtinParameter? (traits : PropertyTraits) (name : String) : Option Value :=
  traits.validators.findSome? fun
    | (entry, .builtin parameter) => if entry = name then some parameter else none
    | (_, .custom _) => none

end PropertyTraits

namespace Schema

/-- The property with the given name. -/
def get? (schema : Schema) (name : String) : Option Property :=
  schema.find? fun property => property.name = name

def declares (schema : Schema) (name : String) : Bool :=
  (get? schema name).isSome

def names (schema : Schema) : List String :=
  schema.map fun property => property.name

end Schema

namespace DefaultValue

/-- The value for an absent field of a document, and the calls after it. -/
def resolve (default : DefaultValue) (document : Document) (calls : Calls) :
    Except String Value × Calls :=
  match default with
  | constant value => (.ok value, calls)
  | produced producer => (producer.answer (calls producer.slot), calls.record producer.slot)
  | composite template => (.ok (.string (template.render document)), calls)

end DefaultValue

end ItemTable
