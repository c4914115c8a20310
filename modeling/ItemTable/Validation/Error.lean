import ItemTable.Path
import ItemTable.Value.Text

/-!
# Validation errors

Which constraint a document fails, and where.
-/

namespace ItemTable

/-- A failed constraint.  The code is the name of the check that failed. -/
inductive ValidationError
  | field (path : String) (value : Value) (code : String)
  /-- A predicate failed with the text `source`. -/
  | validator (path : String) (code : String) (source : String)
  | unknownValidator (path : String) (code : String)
  | missingRequired (paths : List String)
  | unexpectedFields (paths : List String)

namespace ValidationError

def code? : ValidationError → Option String
  | field _ _ code => some code
  | validator _ code _ => some code
  | unknownValidator _ code => some code
  | missingRequired _ => none
  | unexpectedFields _ => none

/-- The kind of an error in reports. -/
def tag : ValidationError → String
  | field _ _ _ => "Field"
  | validator _ _ _ => "Validator"
  | unknownValidator _ _ => "UnknownValidator"
  | missingRequired _ => "MissingRequired"
  | unexpectedFields _ => "UnexpectedFields"

/-- The same error seen from where `parent` starts. -/
def under (parent : String) : ValidationError → ValidationError
  | field path value code => field (Path.join parent path) value code
  | validator path code source => validator (Path.join parent path) code source
  | unknownValidator path code => unknownValidator (Path.join parent path) code
  | missingRequired paths => missingRequired (paths.map (Path.join parent))
  | unexpectedFields paths => unexpectedFields (paths.map (Path.join parent))

def message : ValidationError → String
  | field path value code => s!"invalid value for '{path}' ({code}): {value.displayText}"
  | validator path code source => s!"validator '{code}' failed for '{path}': {source}"
  | unknownValidator path code => s!"unknown validator '{code}' for '{path}'"
  | missingRequired paths => "missing required fields: " ++ String.intercalate ", " paths
  | unexpectedFields paths => "unexpected fields: " ++ String.intercalate ", " paths

end ValidationError

end ItemTable
