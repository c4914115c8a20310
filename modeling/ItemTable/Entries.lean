/-!
# Named entries

Entries are pairs of a name and a thing, in insertion order.  Looking up a name
finds its first entry.  There are two ways of adding: `put` replaces the thing
under a name where it stands, and `bind` keeps the thing that is there.  Either
way, entries built by adding hold every name once.
-/

namespace ItemTable

/-- Things under names, in insertion order. -/
abbrev Entries (α : Type) := List (String × α)

namespace Entries

variable {α : Type}

/-- The thing under a name. -/
def get? : Entries α → String → Option α
  | [], _ => none
  | (key, value) :: rest, name => if key = name then some value else get? rest name

def contains (entries : Entries α) (name : String) : Bool :=
  (get? entries name).isSome

/-- Replaces the thing under a name where it stands, or appends it. -/
def put : Entries α → String → α → Entries α
  | [], name, value => [(name, value)]
  | (key, old) :: rest, name, value =>
      if key = name then (name, value) :: rest else (key, old) :: put rest name value

/-- Appends a thing under a name that is not present. -/
def bind (entries : Entries α) (name : String) (value : α) : Entries α :=
  if contains entries name then entries else entries ++ [(name, value)]

/-- Drops a name; the others keep their order. -/
def remove (entries : Entries α) (name : String) : Entries α :=
  List.filter (fun entry => entry.1 ≠ name) entries

/-- Puts entries one after another. -/
def putAll (entries added : Entries α) : Entries α :=
  added.foldl (fun entries entry => put entries entry.1 entry.2) entries

/-- Binds entries one after another. -/
def bindAll (entries added : Entries α) : Entries α :=
  added.foldl (fun entries entry => bind entries entry.1 entry.2) entries

/-- Entries of which the last under a name counts, where the first stands. -/
def ofList (entries : List (String × α)) : Entries α :=
  putAll [] entries

def names (entries : Entries α) : List String :=
  List.map Prod.fst entries

end Entries

end ItemTable
