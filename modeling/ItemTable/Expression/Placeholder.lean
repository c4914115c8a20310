import ItemTable.Expression.Fragment

/-!
# Placeholders

A placeholder is a sigil, a stem of letters and a number.  The name and the value
placeholder of one attribute share stem and number, and numbers rise by one from
one attribute of an expression to the next.

`Placeholders` numbers and binds placeholders one at a time.  The compilers print from
placeholders that are numbered beforehand, and bind the same.
-/

namespace ItemTable

namespace Placeholder

/-- The placeholder of an attribute name. -/
def nameChars (stem : List Char) (number : Nat) : List Char :=
  '#' :: stem ++ Nat.toDigits 10 number

/-- The placeholder of a value. -/
def valueChars (stem : List Char) (number : Nat) : List Char :=
  ':' :: stem ++ Nat.toDigits 10 number

end Placeholder

/-- The number of the last placeholders given out, and what placeholders stand for. -/
structure Placeholders where
  count : Nat
  names : Entries String
  values : Entries Value

namespace Placeholders

def empty : Placeholders := { count := 0, names := [], values := [] }

/-- The next placeholders for a name and a value. -/
def allocate (placeholders : Placeholders) (stem : String) :
    (String × String) × Placeholders :=
  let number := placeholders.count + 1
  ((String.ofList (Placeholder.nameChars stem.toList number),
    String.ofList (Placeholder.valueChars stem.toList number)),
   { placeholders with count := number })

/-- Binds a name, unless its placeholder is bound. -/
def bindName (placeholders : Placeholders) (placeholder name : String) : Placeholders :=
  { placeholders with names := placeholders.names.bind placeholder name }

/-- Binds a value, unless its placeholder is bound. -/
def bindValue (placeholders : Placeholders) (placeholder : String) (value : Value) :
    Placeholders :=
  { placeholders with values := placeholders.values.bind placeholder value }

/-- The fragment of an expression with these bindings. -/
def finish (placeholders : Placeholders) (expression : String) : Fragment :=
  { expression, names := placeholders.names, values := placeholders.values }

end Placeholders

end ItemTable
