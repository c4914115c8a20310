/-!
# Paths

A path names a place in a nested document: names joined by points, and indexes
of list elements in brackets.  The empty path names the document itself.
-/

namespace ItemTable.Path

/-- The path of `child` seen from where `parent` starts. -/
def join (parent child : String) : String :=
  if parent = "" then child
  else if child = "" then parent
  else if child.toList.head? = some '[' then parent ++ child
  else parent ++ "." ++ child

/-- The path of a list element. -/
def element (position : Nat) : String :=
  "[" ++ toString position ++ "]"

end ItemTable.Path
