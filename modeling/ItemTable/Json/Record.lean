import ItemTable.Json.Basic

/-!
# Records in JSON

A record is read from an object, whose fields it takes by name, or from an
array, whose items it takes in the order of its fields.

In an object, unknown fields are passed over unread, a repeated field is refused,
and optional fields may be missing.  In an array only fields with a default may
be missing, and no item may be left over.
-/

namespace ItemTable.Json

/-- The trees found for the fields of a record. -/
structure Record where
  /-- Whether the record is an object, in which optional fields may be missing. -/
  isObject : Bool
  found : List (String × Json)
  /-- How deep the containers in a field may nest. -/
  room : Nat

/-- The tree under a name, unless the name is repeated. -/
def takeField (name : String) (fields : List (String × Json)) : Option (Option Json) :=
  match fields.filter fun field => field.1 == name with
  | [] => some none
  | [field] => some (some field.2)
  | _ => none

/-- The fields of an object with their names, each of which is a text. -/
def namedFields : List (Option String × Json) → Option (List (String × Json))
  | [] => some []
  | (none, _) :: _ => none
  | (some name, value) :: rest => (namedFields rest).map ((name, value) :: ·)

/-- The record with the given field names. -/
def record? (room : Nat) (names : List String) : Json → Option Record
  | object fields =>
      if room = 0 then none
      else do
        let fields ← namedFields fields
        let known := fields.filter fun field => names.contains field.1
        if names.all fun name => (takeField name known).isSome then
          some { isObject := true, found := known, room := room - 1 }
        else none
  | array items =>
      if room = 0 || names.length < items.length then none
      else some { isObject := false, found := names.zip items, room := room - 1 }
  | _ => none

namespace Record

/-- The tree of a field. -/
def tree? (record : Record) (name : String) : Option Json :=
  (record.found.find? fun field => field.1 == name).map Prod.snd

/-- A field that must be present. -/
def required {α : Type} (record : Record) (name : String)
    (read : Nat → Json → Option α) : Option α :=
  (record.tree? name).bind (read record.room)

/-- A field that may be missing, in an object, or null. -/
def optional {α : Type} (record : Record) (name : String)
    (read : Nat → Json → Option α) : Option (Option α) :=
  match record.tree? name with
  | none => if record.isObject then some none else none
  | some null => some none
  | some tree => (read record.room tree).map some

/-- A field that may be missing or null. -/
def optionalAnywhere {α : Type} (record : Record) (name : String)
    (read : Nat → Json → Option α) : Option (Option α) :=
  match record.tree? name with
  | none => some none
  | some null => some none
  | some tree => (read record.room tree).map some

/-- A field that may be missing but not null. -/
def defaulted {α : Type} (record : Record) (name : String) (default : α)
    (read : Nat → Json → Option α) : Option α :=
  match record.tree? name with
  | none => some default
  | some tree => read record.room tree

end Record

/-- Reads a text. -/
def text? : Nat → Json → Option String
  | _, string text => text
  | _, _ => none

/-- Reads a truth value. -/
def flag? : Nat → Json → Option Bool
  | _, bool value => some value
  | _, _ => none

/-- Reads an integer that 32 bits hold without a sign. -/
def count? : Nat → Json → Option Nat
  | _, number lexeme =>
      match lexeme.integer? with
      | some value =>
          if lexeme.negative then none
          else if value < 4294967296 then some value.toNat else none
      | none => none
  | _, _ => none

/-- Reads one of a set of words: a string, or an object whose one field has the
word as its name and null as its value. -/
def word? {α : Type} (ofSpelling? : String → Option α) : Nat → Json → Option α
  | _, string (some text) => ofSpelling? text
  | room, object [(some name, null)] => if room = 0 then none else ofSpelling? name
  | _, _ => none

/-- Reads the fields of an object in order; a name may be repeated. -/
def entries? {α : Type} (read : Nat → Json → Option α) :
    Nat → Json → Option (List (String × α))
  | room, object fields =>
      if room = 0 then none
      else do
        let fields ← namedFields fields
        fields.mapM fun field => (read (room - 1) field.2).map fun value => (field.1, value)
  | _, _ => none

end ItemTable.Json
