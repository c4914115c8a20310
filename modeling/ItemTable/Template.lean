import ItemTable.Text.Blank
import ItemTable.Value.Text

/-!
# Templates

A template is a text with tokens: a name between braces, without braces inside
and not empty.  Rendering replaces every token by the field it names and copies
all other characters, unmatched braces included.
-/

namespace ItemTable

/-- A piece of a template. -/
inductive TemplatePiece
  | char (c : Char)
  | field (name : String)
  deriving DecidableEq

/-- The name of the field a piece stands for. -/
def TemplatePiece.name? : TemplatePiece → Option String
  | char _ => none
  | field name => some name

/-- A text with tokens that name fields. -/
structure Template where
  source : String
  deriving DecidableEq

namespace Template

/-- The pieces of a text.  `opened` holds, in reverse, the characters since a
brace that may still turn out to open a token. -/
def piecesFrom : Option (List Char) → List Char → List TemplatePiece
  | none, [] => []
  | some opened, [] => .char '\x7b' :: opened.reverse.map .char
  | none, c :: rest =>
      if c = '\x7b' then piecesFrom (some []) rest else .char c :: piecesFrom none rest
  | some opened, c :: rest =>
      if c = '\x7b' then
        .char '\x7b' :: opened.reverse.map .char ++ piecesFrom (some []) rest
      else if c = '\x7d' then
        if opened.isEmpty then .char '\x7b' :: .char '\x7d' :: piecesFrom none rest
        else .field (String.ofList (Text.trim opened.reverse)) :: piecesFrom none rest
      else piecesFrom (some (c :: opened)) rest

/-- The pieces of a template, in order. -/
def pieces (template : Template) : List TemplatePiece :=
  piecesFrom none template.source.toList

/-- The distinct names of fields, in the order of their first tokens. -/
def references (template : Template) : List String :=
  (template.pieces.filterMap TemplatePiece.name?).eraseDups

/-- The text of a field; absent and null fields have none. -/
def fieldText (document : Document) (name : String) : List Char :=
  match document.get? name with
  | none => []
  | some .null => []
  | some value => value.displayText.toList

/-- The template with its tokens replaced by the fields of a document. -/
def render (template : Template) (document : Document) : String :=
  String.ofList (template.pieces.flatMap fun
    | .char c => [c]
    | .field name => fieldText document name)

/-- Whether every field of the template is present and not null. -/
def isSatisfiedBy (template : Template) (document : Document) : Bool :=
  template.references.all document.supplies

end Template

end ItemTable
