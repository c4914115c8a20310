import ItemTable.Number.Lexeme

/-!
# JSON trees

A JSON tree keeps what its text says and decides nothing about it: fields keep
their order and may repeat, numbers stay decimal lexemes, and a string that
holds half of a surrogate pair is kept as one that is no text.

A tree is sound when a reader of values can use all of it: every string is a
text, every number has a value, and containers nest no deeper than the reader
allows.
-/

namespace ItemTable

/-- A JSON tree as written.  The text of a string or of a field name is `none`
when an escape names half of a surrogate pair. -/
inductive Json
  | null
  | bool (value : Bool)
  | number (lexeme : NumberLexeme)
  | string (text : Option String)
  | array (items : List Json)
  | object (fields : List (Option String × Json))

namespace Json

/-- The depth to which containers may nest in a text read by this library. -/
def depthLimit : Nat := 127

mutual

/-- Whether every string is a text, every number has a value, and at most `room`
containers nest. -/
def isSound : Nat → Json → Bool
  | _, null => true
  | _, bool _ => true
  | _, number lexeme => lexeme.scaled?.isSome
  | _, string text => text.isSome
  | room, array items => room != 0 && areSound (room - 1) items
  | room, object fields => room != 0 && areFieldsSound (room - 1) fields

/-- Soundness of every item. -/
def areSound : Nat → List Json → Bool
  | _, [] => true
  | room, item :: rest => isSound room item && areSound room rest

/-- Soundness of every field, its name included. -/
def areFieldsSound : Nat → List (Option String × Json) → Bool
  | _, [] => true
  | room, (name, value) :: rest =>
      name.isSome && isSound room value && areFieldsSound room rest

end

end Json

end ItemTable
