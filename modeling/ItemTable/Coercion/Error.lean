import ItemTable.Path
import ItemTable.Schema.Basic

/-!
# Coercion errors

Why a value cannot be brought into its stored or its domain form, and where.
Errors arise at a value and are moved outwards with `under`.
-/

namespace ItemTable

/-- The places where user code enters. -/
inductive ExtensionPoint
  | onCreate
  | onUpdate
  | onUpsert
  | set
  | get
  | default
  deriving DecidableEq

/-- The name of an extension point in messages. -/
def ExtensionPoint.name : ExtensionPoint → String
  | onCreate => "onCreate"
  | onUpdate => "onUpdate"
  | onUpsert => "onUpsert"
  | set => "set"
  | get => "get"
  | default => "default"

/-- The extension point of the hooks that a stage runs. -/
def WriteStage.point : WriteStage → ExtensionPoint
  | create => .onCreate
  | update => .onUpdate
  | upsert => .onUpsert

/-- Why a value cannot be coerced. -/
inductive CoercionError
  | typeMismatch (path : String) (expected : AttributeType) (found : String)
  | invalidDate (path : String) (value : String)
  /-- User code failed with the text `source`. -/
  | hook (path : String) (point : ExtensionPoint) (source : String)
  deriving DecidableEq

namespace CoercionError

def path : CoercionError → String
  | typeMismatch path _ _ => path
  | invalidDate path _ => path
  | hook path _ _ => path

/-- The kind of an error in reports. -/
def tag : CoercionError → String
  | typeMismatch _ _ _ => "TypeMismatch"
  | invalidDate _ _ => "InvalidDate"
  | hook _ _ _ => "Hook"

/-- The same error seen from where `parent` starts. -/
def under (parent : String) : CoercionError → CoercionError
  | typeMismatch path expected found => typeMismatch (Path.join parent path) expected found
  | invalidDate path value => invalidDate (Path.join parent path) value
  | hook path point source => hook (Path.join parent path) point source

def message : CoercionError → String
  | typeMismatch path expected found => s!"'{path}': expected {expected.tag}, found {found}"
  | invalidDate path value => s!"'{path}': invalid date '{value}'"
  | hook path point source => s!"'{path}': {point.name} failed: {source}"

end CoercionError

/-- Applies a function to the documents among list elements.  An error is moved
under the position of its element. -/
def coerceElements (coerce : Document → Except CoercionError Document) :
    Nat → List Value → Except CoercionError (List Value)
  | _, [] => .ok []
  | position, item :: rest => do
      let item ← match item with
        | .map fields =>
            ((coerce fields).mapError (·.under (Path.element position))).map .map
        | item => .ok item
      let rest ← coerceElements coerce (position + 1) rest
      return item :: rest

end ItemTable
