import ItemTable.Entries
import ItemTable.Instant.Basic
import ItemTable.Number.Basic

/-!
# Values and documents

A value is what an attribute of an item holds.  Dates are instants here; how
they are stored is decided where values are written.

A document is a list of named values in insertion order.  Inserting under a name
that is present replaces the value where it stands, so documents built by
insertion hold every name once.
-/

namespace ItemTable

/-- The value of an attribute. -/
inductive Value
  | null
  | bool (value : Bool)
  | number (value : Number)
  | string (text : String)
  | date (instant : Instant)
  | binary (bytes : List UInt8)
  | list (items : List Value)
  | map (fields : List (String × Value))

/-- Named values in insertion order. -/
abbrev Document := Entries Value

instance : Inhabited Value := ⟨.null⟩

namespace Value

def isNull : Value → Bool
  | null => true
  | _ => false

/-- The word for the kind of a value in messages. -/
def kind : Value → String
  | null => "null"
  | bool _ => "boolean"
  | number _ => "number"
  | string _ => "string"
  | date _ => "date"
  | binary _ => "binary"
  | list _ => "list"
  | map _ => "map"

/-- Whether a value switches on a check that takes it as its parameter. -/
def isTruthy : Value → Bool
  | null => false
  | bool value => value
  | number value => !value.isZero && !value.isNaN
  | string text => text != ""
  | _ => true

mutual

/-- Equality of values: numbers by numeric value, lists item by item, maps
without regard to order. -/
def same : Value → Value → Bool
  | null, null => true
  | bool left, bool right => left == right
  | number left, number right => left.same right
  | string left, string right => left == right
  | date left, date right => left == right
  | binary left, binary right => left == right
  | list left, list right => sameItems left right
  | map left, map right => left.length == right.length && sameFields left right
  | _, _ => false

/-- Equality item by item. -/
def sameItems : List Value → List Value → Bool
  | [], [] => true
  | left :: lefts, right :: rights => same left right && sameItems lefts rights
  | _, _ => false

/-- Whether every named value of the first document is in the second. -/
def sameFields : List (String × Value) → Document → Bool
  | [], _ => true
  | (name, value) :: rest, document =>
      (match document.get? name with
        | some other => same value other
        | none => false) && sameFields rest document

end

end Value

/-- Whether a document has a value under a name that is not null. -/
def Document.supplies (document : Document) (name : String) : Bool :=
  match document.get? name with
  | some value => !value.isNull
  | none => false

/-- Equality of documents without regard to order. -/
def Document.same (left right : Document) : Bool :=
  left.length == right.length && Value.sameFields left right

end ItemTable
