import ItemTable.Expression.Condition

/-!
# Syntax of condition texts

The store reads a condition text as a boolean expression over tests.  Comparisons
and `IN` bind tightest, then `NOT`, then `AND`, then `OR`, and parentheses enclose
a whole expression.

A text is first split into words, then the words are read as tokens, and then one
reader for each level of binding reads the tokens.  The tests of the result are on
placeholders; `resolve?` puts what they stand for in their place.
-/

namespace ItemTable

/-- A test on an attribute, with operands or with the placeholders of operands. -/
inductive Atom (β : Type)
  | compare (name : String) (comparison : Comparison) (operand : β)
  | oneOf (name : String) (operands : List β)
  | call (function name : String)

/-- A boolean expression, in which parentheses are kept. -/
inductive Expression (α : Type)
  | test (atom : α)
  | enclosed (inner : Expression α)
  | not (inner : Expression α)
  | and (left right : Expression α)
  | or (left right : Expression α)

namespace Expression

variable {α β : Type}

/-- The value of an expression under a truth assignment. -/
def holds (truth : α → Bool) : Expression α → Bool
  | test atom => truth atom
  | enclosed inner => inner.holds truth
  | not inner => !inner.holds truth
  | and left right => left.holds truth && right.holds truth
  | or left right => left.holds truth || right.holds truth

/-- The expression with every test replaced, if every test can be. -/
def resolve? (replace : α → Option β) : Expression α → Option (Expression β)
  | test atom => (replace atom).map test
  | enclosed inner => (inner.resolve? replace).map enclosed
  | not inner => (inner.resolve? replace).map not
  | and left right =>
      (left.resolve? replace).bind fun left => (right.resolve? replace).map (and left)
  | or left right =>
      (left.resolve? replace).bind fun left => (right.resolve? replace).map (or left)

end Expression

namespace Atom

/-- The values under placeholders. -/
def operands? (values : Entries Value) : List String → Option (List Value)
  | [] => some []
  | placeholder :: rest =>
      (values.get? placeholder).bind fun operand =>
        (operands? values rest).map (operand :: ·)

/-- The test that a test on placeholders stands for. -/
def resolve? (names : Entries String) (values : Entries Value) :
    Atom String → Option (Atom Value)
  | compare name comparison operand =>
      (names.get? name).bind fun name => (values.get? operand).map (compare name comparison)
  | oneOf name operands =>
      (names.get? name).bind fun name => (operands? values operands).map (oneOf name)
  | call function name => (names.get? name).map (call function)

end Atom

/-- The smallest parts of a condition text. -/
inductive Token
  | opening
  | closing
  | comma
  | and
  | or
  | not
  | isIn
  | comparison (comparison : Comparison)
  | name (placeholder : String)
  | value (placeholder : String)
  | function (name : String)
  deriving DecidableEq

namespace Token

/-- Whether a character stands between words. -/
def isSeparator (c : Char) : Bool :=
  c == ' ' || c == '(' || c == ')' || c == ','

/-- A word, unless it is empty. -/
def flush (word : List Char) : List (List Char) :=
  if word.isEmpty then [] else [word]

/-- The word that a separator is. -/
def mark (c : Char) : List (List Char) :=
  if c == ' ' then [] else [[c]]

/-- The words of a text, of which the first goes on with `word`. -/
def wordsFrom (word : List Char) : List Char → List (List Char)
  | [] => flush word
  | c :: rest =>
      if isSeparator c then flush word ++ mark c ++ wordsFrom [] rest
      else wordsFrom (word ++ [c]) rest

/-- The words of a text: separators other than blanks, and the runs between them. -/
def words (text : List Char) : List (List Char) :=
  wordsFrom [] text

/-- Whether a character may stand in the name of a function. -/
def isFunctionChar (c : Char) : Bool :=
  c.isLower || c == '_'

/-- The words that stand for themselves. -/
def keywords : List (List Char × Token) :=
  [(['('], opening), ([')'], closing), ([','], comma),
   (['A', 'N', 'D'], and), (['O', 'R'], or), (['N', 'O', 'T'], not), (['I', 'N'], isIn),
   (['='], comparison .eq), (['<', '>'], comparison .ne), (['>'], comparison .gt),
   (['>', '='], comparison .gte), (['<'], comparison .lt), (['<', '='], comparison .lte)]

/-- The token of a word that names something. -/
def ofName? (word : List Char) : Option Token :=
  match word with
  | '#' :: rest =>
      if !rest.isEmpty && rest.all Fragment.isPlaceholderChar then
        some (name (String.ofList word))
      else none
  | ':' :: rest =>
      if !rest.isEmpty && rest.all Fragment.isPlaceholderChar then
        some (value (String.ofList word))
      else none
  | _ =>
      if !word.isEmpty && word.all isFunctionChar then some (function (String.ofList word))
      else none

/-- The token that a word is. -/
def ofWord? (word : List Char) : Option Token :=
  (keywords.lookup word).or (ofName? word)

/-- The tokens that words are. -/
def ofWords? : List (List Char) → Option (List Token)
  | [] => some []
  | word :: rest => (ofWord? word).bind fun token => (ofWords? rest).map (token :: ·)

/-- The tokens of a text. -/
def ofText? (text : List Char) : Option (List Token) :=
  ofWords? (words text)

end Token

namespace Expression

/-- Reads an expression at the start of tokens and gives it with the tokens after it. -/
abbrev Reader := List Token → Option (Expression (Atom String) × List Token)

/-- Reads placeholders of values separated by commas, up to the parenthesis. -/
def readValues : List Token → Option (List String × List Token)
  | .value placeholder :: .comma :: rest =>
      (readValues rest).map fun (others, rest) => (placeholder :: others, rest)
  | .value placeholder :: .closing :: rest => some ([placeholder], rest)
  | _ => none

/-- Reads a test. -/
def readTest : List Token → Option (Atom String × List Token)
  | .name name :: .comparison comparison :: .value operand :: rest =>
      some (.compare name comparison operand, rest)
  | .name name :: .isIn :: .opening :: rest =>
      (readValues rest).map fun (operands, rest) => (.oneOf name operands, rest)
  | .function function :: .opening :: .name name :: .closing :: rest =>
      some (.call function name, rest)
  | _ => none

/-- Reads a test, or an expression in parentheses with `inside`. -/
def readPrimary (inside : Reader) : Reader
  | .opening :: rest =>
      match inside rest with
      | some (inner, .closing :: rest) => some (.enclosed inner, rest)
      | _ => none
  | tokens => (readTest tokens).map fun (atom, rest) => (.test atom, rest)

/-- Reads what `operand` reads after any number of `NOT`. -/
def readNegated (operand : Reader) : Reader
  | .not :: rest => (readNegated operand rest).map fun (inner, rest) => (.not inner, rest)
  | tokens => operand tokens

/-- Reads at most `count` operands with a separator between them. -/
def readJoined (separator : Token)
    (combine : Expression (Atom String) → Expression (Atom String) → Expression (Atom String))
    (operand : Reader) : Nat → Reader
  | 0, _ => none
  | count + 1, tokens =>
      match operand tokens with
      | none => none
      | some (left, []) => some (left, [])
      | some (left, token :: rest) =>
          if token = separator then
            (readJoined separator combine operand count rest).map fun (right, rest) =>
              (combine left right, rest)
          else some (left, token :: rest)

/-- Reads a conjunction, with `inside` for what parentheses enclose. -/
def readConjunction (inside : Reader) (count : Nat) : Reader :=
  readJoined .and and (readNegated (readPrimary inside)) count

/-- Reads an expression in which at most `depth` parentheses nest. -/
def read : Nat → Reader
  | 0, _ => none
  | depth + 1, tokens =>
      readJoined .or or (readConjunction (read depth) tokens.length) tokens.length tokens

/-- The expression that all tokens of a text make up. -/
def parse? (text : List Char) : Option (Expression (Atom String)) :=
  (Token.ofText? text).bind fun tokens =>
    match read (tokens.length + 1) tokens with
    | some (expression, []) => some expression
    | _ => none

end Expression

/-- The condition that a fragment writes, with placeholders resolved. -/
def Fragment.condition? (fragment : Fragment) : Option (Expression (Atom Value)) :=
  (Expression.parse? fragment.expression.toList).bind fun expression =>
    expression.resolve? (Atom.resolve? fragment.names fragment.values)

end ItemTable
