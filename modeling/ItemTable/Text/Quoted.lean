import ItemTable.Text.Unseen

/-!
# Quoted text

Two ways of writing a text between double quotes.

`json` is the quoting of JSON text: the quote and the backslash are escaped, the
five control characters with a letter of their own take it, and the other
control characters are written with four hexadecimal digits.

`listing` is the quoting of names in messages: besides the quote and the
backslash, every character without a visible form of its own is written by its
code between braces.
-/

namespace ItemTable.Text

/-- A lowercase hexadecimal digit. -/
def hexDigit (value : Nat) : Char :=
  if value < 10 then Char.ofNat ('0'.toNat + value)
  else Char.ofNat ('a'.toNat + (value - 10))

/-- One character inside JSON quotes. -/
def jsonChar (c : Char) : List Char :=
  if c == '"' then ['\\', '"']
  else if c == '\\' then ['\\', '\\']
  else if c.toNat == 0x08 then ['\\', 'b']
  else if c.toNat == 0x09 then ['\\', 't']
  else if c.toNat == 0x0A then ['\\', 'n']
  else if c.toNat == 0x0C then ['\\', 'f']
  else if c.toNat == 0x0D then ['\\', 'r']
  else if c.toNat < 0x20 then
    ['\\', 'u', '0', '0', hexDigit (c.toNat / 16), hexDigit (c.toNat % 16)]
  else [c]

/-- A text as a JSON string. -/
def quoteJson (text : List Char) : List Char :=
  '"' :: text.flatMap jsonChar ++ ['"']

/-- One character inside the quotes of a listing. -/
def listingChar (c : Char) : List Char :=
  if c == '"' then ['\\', '"']
  else if c == '\\' then ['\\', '\\']
  else if c.toNat == 0x00 then ['\\', '0']
  else if c.toNat == 0x09 then ['\\', 't']
  else if c.toNat == 0x0A then ['\\', 'n']
  else if c.toNat == 0x0D then ['\\', 'r']
  else if isUnseen c then
    ['\\', 'u', '\x7b'] ++ Nat.toDigits 16 c.toNat ++ ['\x7d']
  else [c]

/-- Names as a bracketed listing of quoted texts. -/
def quoteListing (names : List String) : String :=
  let quoted := names.map fun name =>
    String.ofList ('"' :: name.toList.flatMap listingChar ++ ['"'])
  "[" ++ String.intercalate ", " quoted ++ "]"

end ItemTable.Text
