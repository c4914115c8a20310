import ItemTable.Text.Blank

/-!
# Attribute types

A declared property has one of seven types.  Five are scalar; lists and objects
are structural and may carry a schema of their own.
-/

namespace ItemTable

/-- The type of a declared property. -/
inductive AttributeType
  | string
  | number
  | boolean
  | date
  | binary
  | list
  | object
  deriving DecidableEq

/-- How a date property is stored. -/
inductive DateFormat
  /-- As ISO text with milliseconds. -/
  | iso
  /-- As a count of milliseconds. -/
  | number
  deriving DecidableEq

namespace AttributeType

/-- The canonical spelling. -/
def tag : AttributeType → String
  | string => "STRING"
  | number => "NUMBER"
  | boolean => "BOOLEAN"
  | date => "DATE"
  | binary => "BINARY"
  | list => "LIST"
  | object => "OBJECT"

/-- The lowercase spellings that schemas may use. -/
def spellings : List (AttributeType × List String) :=
  [(string, ["string", "str", "&str", "text"]),
   (number, ["number", "f64", "f32", "i64", "i32", "u64", "u32", "int", "integer", "float"]),
   (boolean, ["boolean", "bool"]),
   (date, ["date", "datetime", "chrono::datetime", "systemtime", "timestamp"]),
   (binary, ["binary", "buffer", "bytes", "vec<u8>"]),
   (list, ["list", "array", "vec"]),
   (object, ["object", "map", "hashmap"])]

/-- The type of a spelling, in which blanks around it and the case of ASCII
letters do not count. -/
def ofSpelling? (spelling : String) : Option AttributeType :=
  let folded := String.ofList ((Text.trim spelling.toList).map Char.toLower)
  (spellings.find? fun entry => entry.2.contains folded).map Prod.fst

/-- The message for a spelling of no type. -/
def unknownMessage (spelling : String) : String :=
  s!"unknown attribute type '{spelling}'"

/-- Whether values of this type may carry a schema of their own. -/
def isStructural : AttributeType → Bool
  | list => true
  | object => true
  | _ => false

def isScalar (type : AttributeType) : Bool :=
  !type.isStructural

/-- Whether a property of this type may be a hash or range key. -/
def isKeyType : AttributeType → Bool
  | string => true
  | number => true
  | binary => true
  | date => true
  | _ => false

end AttributeType

namespace DateFormat

/-- The canonical spelling. -/
def tag : DateFormat → String
  | iso => "iso"
  | number => "number"

/-- The format of a spelling. -/
def ofSpelling? (spelling : String) : Option DateFormat :=
  if ["iso", "ISO", "String"].contains spelling then some iso
  else if ["number", "Number", "NUMBER"].contains spelling then some number
  else none

end DateFormat

end ItemTable
