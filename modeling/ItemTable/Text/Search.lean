/-!
# Searching texts

Whether a pattern stands at the start of a text, and whether it occurs anywhere.
-/

namespace ItemTable.Text

/-- Whether a text starts with a pattern. -/
def startsWith : List Char → List Char → Bool
  | [], _ => true
  | _ :: _, [] => false
  | c :: pattern, d :: text => c == d && startsWith pattern text

/-- Whether a pattern occurs anywhere in a text. -/
def occursIn (pattern : List Char) : List Char → Bool
  | [] => pattern.isEmpty
  | c :: text => startsWith pattern (c :: text) || occursIn pattern text

end ItemTable.Text
