import ItemTable.Json.Basic

/-!
# Reading JSON text

`Json.parse?` reads a text that holds one JSON tree and blanks around it.

A text is read by recursive descent.  Each step from a container to an item, or
from one item to the next, spends one unit of fuel and reads a character; twice
the length of the text is therefore enough.
-/

namespace ItemTable.Json

/-- Drops the blanks that JSON allows between tokens. -/
def skipBlanks (text : List Char) : List Char :=
  text.dropWhile fun c => c == ' ' || c == '\n' || c == '\t' || c == '\r'

/-- Drops a fixed word. -/
def readWord : List Char → List Char → Option (List Char)
  | [], text => some text
  | c :: word, d :: text => if c == d then readWord word text else none
  | _ :: _, [] => none

/-- The value of a hexadecimal digit. -/
def hexValue? (c : Char) : Option Nat :=
  if '0' ≤ c ∧ c ≤ '9' then some (c.toNat - '0'.toNat)
  else if 'a' ≤ c ∧ c ≤ 'f' then some (c.toNat - 'a'.toNat + 10)
  else if 'A' ≤ c ∧ c ≤ 'F' then some (c.toNat - 'A'.toNat + 10)
  else none

/-- A piece of a string: a character, or the code unit named by a numeric escape. -/
inductive StringPiece
  | char (c : Char)
  | unit (code : Nat)

/-- The character of a one-letter escape. -/
def escapedChar? (c : Char) : Option Char :=
  if c == '"' || c == '\\' || c == '/' then some c
  else if c == 'b' then some (Char.ofNat 0x08)
  else if c == 'f' then some (Char.ofNat 0x0C)
  else if c == 'n' then some '\n'
  else if c == 'r' then some '\r'
  else if c == 't' then some '\t'
  else none

/-- Reads the rest of a string up to its closing quote. -/
def readPieces : List Char → Option (List StringPiece × List Char)
  | [] => none
  | '"' :: rest => some ([], rest)
  | '\\' :: 'u' :: a :: b :: c :: d :: rest =>
      match hexValue? a, hexValue? b, hexValue? c, hexValue? d with
      | some a, some b, some c, some d =>
          (readPieces rest).map fun (pieces, rest) =>
            (.unit (((a * 16 + b) * 16 + c) * 16 + d) :: pieces, rest)
      | _, _, _, _ => none
  | '\\' :: c :: rest =>
      match escapedChar? c with
      | some c => (readPieces rest).map fun (pieces, rest) => (.char c :: pieces, rest)
      | none => none
  | c :: rest =>
      if c.toNat < 0x20 || c == '\\' then none
      else (readPieces rest).map fun (pieces, rest) => (.char c :: pieces, rest)

/-- The characters of string pieces.  Two code units of a surrogate pair make one
character; half a pair makes none. -/
def joinPieces : List StringPiece → Option (List Char)
  | [] => some []
  | .char c :: rest => (joinPieces rest).map (c :: ·)
  | .unit high :: .unit low :: rest =>
      if 0xD800 ≤ high && high < 0xDC00 then
        if 0xDC00 ≤ low && low < 0xE000 then
          (joinPieces rest).map
            (Char.ofNat (0x10000 + (high - 0xD800) * 0x400 + (low - 0xDC00)) :: ·)
        else none
      else if 0xDC00 ≤ high && high < 0xE000 then none
      else (joinPieces (.unit low :: rest)).map (Char.ofNat high :: ·)
  | .unit code :: rest =>
      if 0xD800 ≤ code && code < 0xE000 then none
      else (joinPieces rest).map (Char.ofNat code :: ·)

/-- Reads the rest of a string; the text is `none` for half a surrogate pair. -/
def readString (text : List Char) : Option (Option String × List Char) :=
  (readPieces text).map fun (pieces, rest) => ((joinPieces pieces).map String.ofList, rest)

/-- The digits at the start of a text, and what follows them. -/
def readDigits (text : List Char) : List Nat × List Char :=
  ((text.takeWhile Char.isDigit).map fun c => c.toNat - '0'.toNat, text.dropWhile Char.isDigit)

/-- Reads an optional point with at least one digit. -/
def readFraction : List Char → Option (Option (List Nat) × List Char)
  | '.' :: rest =>
      let (digits, rest) := readDigits rest
      if digits.isEmpty then none else some (some digits, rest)
  | text => some (none, text)

/-- Reads an optional exponent mark with a sign and at least one digit. -/
def readExponent : List Char → Option (Option (Bool × List Nat) × List Char)
  | c :: rest =>
      if c == 'e' || c == 'E' then
        let (negative, rest) := match rest with
          | '-' :: rest => (true, rest)
          | '+' :: rest => (false, rest)
          | rest => (false, rest)
        let (digits, rest) := readDigits rest
        if digits.isEmpty then none else some (some (negative, digits), rest)
      else some (none, c :: rest)
  | [] => some (none, [])

/-- Reads a number; an integer part of several digits does not start with zero. -/
def readNumber (text : List Char) : Option (NumberLexeme × List Char) := do
  let (negative, text) := match text with
    | '-' :: rest => (true, rest)
    | text => (false, text)
  let (integer, text) := readDigits text
  if integer.isEmpty || (integer.head? == some 0 && integer.length != 1) then none
  let (fraction, text) ← readFraction text
  let (exponent, text) ← readExponent text
  some ({ negative, integer, fraction, exponent }, text)

mutual

/-- Reads one tree, and blanks before it. -/
def readTree : Nat → List Char → Option (Json × List Char)
  | 0, _ => none
  | fuel + 1, text =>
      match skipBlanks text with
      | [] => none
      | '"' :: rest => (readString rest).map fun (text, rest) => (string text, rest)
      | '[' :: rest =>
          match skipBlanks rest with
          | ']' :: rest => some (array [], rest)
          | rest => (readItems fuel rest).map fun (items, rest) => (array items, rest)
      | '\x7b' :: rest =>
          match skipBlanks rest with
          | '\x7d' :: rest => some (object [], rest)
          | rest => (readFields fuel rest).map fun (fields, rest) => (object fields, rest)
      | 'n' :: rest => (readWord ['u', 'l', 'l'] rest).map fun rest => (null, rest)
      | 't' :: rest => (readWord ['r', 'u', 'e'] rest).map fun rest => (bool true, rest)
      | 'f' :: rest => (readWord ['a', 'l', 's', 'e'] rest).map fun rest => (bool false, rest)
      | rest => (readNumber rest).map fun (lexeme, rest) => (number lexeme, rest)

/-- Reads the items of an array up to its closing bracket. -/
def readItems : Nat → List Char → Option (List Json × List Char)
  | 0, _ => none
  | fuel + 1, text =>
      match readTree fuel text with
      | none => none
      | some (item, rest) =>
          match skipBlanks rest with
          | ',' :: rest => (readItems fuel rest).map fun (items, rest) => (item :: items, rest)
          | ']' :: rest => some ([item], rest)
          | _ => none

/-- Reads the fields of an object up to its closing brace. -/
def readFields : Nat → List Char → Option (List (Option String × Json) × List Char)
  | 0, _ => none
  | fuel + 1, text =>
      match skipBlanks text with
      | '"' :: rest =>
          match readString rest with
          | none => none
          | some (name, rest) =>
              match skipBlanks rest with
              | ':' :: rest =>
                  match readTree fuel rest with
                  | none => none
                  | some (value, rest) =>
                      match skipBlanks rest with
                      | ',' :: rest =>
                          (readFields fuel rest).map fun (fields, rest) =>
                            ((name, value) :: fields, rest)
                      | '\x7d' :: rest => some ([(name, value)], rest)
                      | _ => none
              | _ => none
      | _ => none

end

/-- The tree of a JSON text. -/
def parse? (text : String) : Option Json :=
  let chars := text.toList
  match readTree (2 * chars.length + 2) chars with
  | some (tree, rest) => if (skipBlanks rest).isEmpty then some tree else none
  | none => none

end ItemTable.Json
