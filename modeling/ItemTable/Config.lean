/-!
# Configuration

Three variables configure every table.  An unset variable leaves its option as it
is by default; a flag is on for a few spellings of yes and off for all others.
-/

namespace ItemTable

/-- The options of a table. -/
structure Config where
  /-- Written before the name of a table. -/
  tableStem : String := ""
  /-- Whether undeclared fields are refused. -/
  strictFields : Bool := false
  /-- Whether a create must not overwrite an item. -/
  createCondition : Bool := true
  deriving DecidableEq

namespace Config

/-- A flag, or its default when the variable is unset. -/
def flag (text : Option String) (default : Bool) : Bool :=
  match text with
  | none => default
  | some text => ["1", "true", "yes", "TRUE", "YES"].contains text

/-- The configuration set by variables. -/
def ofVariables (lookup : String → Option String) : Config :=
  { tableStem := (lookup "DYNAMODEL_TABLE_PREFIX").getD ""
    strictFields := flag (lookup "DYNAMODEL_STRICT_FIELDS") false
    createCondition := flag (lookup "DYNAMODEL_CREATE_CONDITION") true }

def tableName (config : Config) (name : String) : String :=
  config.tableStem ++ name

end Config

end ItemTable
