import ItemTable.Proofs.Expression.Meaning

/-!
# Occurrences of placeholders

Scanning a text for placeholders can be split wherever no word goes on.  So the
placeholders of a text made of parts are those of its parts, and those of a
printed expression are the ones that its tests are on.
-/

namespace ItemTable

namespace Fragment

/-- A text at which a placeholder before it ends. -/
def Stops (rest : List Char) : Prop :=
  ∀ c ∈ rest.head?, isPlaceholderChar c = false

theorem stops_nil : Stops [] := by
  simp [Stops]

theorem stops_cons {c : Char} {rest : List Char} (ends : isPlaceholderChar c = false) :
    Stops (c :: rest) := by
  simpa [Stops] using ends

theorem takeWhile_append_of_stops (word : List Char) {rest : List Char} (stops : Stops rest) :
    (word ++ rest).takeWhile isPlaceholderChar = word.takeWhile isPlaceholderChar := by
  induction word with
  | nil =>
      cases rest with
      | nil => rfl
      | cons c rest =>
          have ends : isPlaceholderChar c = false := stops c (by simp)
          simp [ends]
  | cons c word induction => simp [List.takeWhile_cons, induction]

@[simp] theorem occurrences_nil (sigil : Char) : occurrences sigil [] = [] := rfl

theorem occurrences_cons_of_ne {sigil c : Char} (other : c ≠ sigil) (rest : List Char) :
    occurrences sigil (c :: rest) = occurrences sigil rest := by
  simp [occurrences, other]

/-- A text without the sigil has no placeholders. -/
theorem occurrences_append_of_not_mem {sigil : Char} {text : List Char} (absent : sigil ∉ text)
    (rest : List Char) : occurrences sigil (text ++ rest) = occurrences sigil rest := by
  induction text with
  | nil => rfl
  | cons c text induction =>
      rw [List.mem_cons, not_or] at absent
      rw [List.cons_append, occurrences_cons_of_ne (Ne.symm absent.1), induction absent.2]

/-- The placeholders of a text are those before and those after a place where no
placeholder goes on. -/
theorem occurrences_append (sigil : Char) (left : List Char) {right : List Char}
    (stops : Stops right) :
    occurrences sigil (left ++ right) = occurrences sigil left ++ occurrences sigil right := by
  induction left with
  | nil => rfl
  | cons c left induction =>
      simp only [List.cons_append, occurrences, takeWhile_append_of_stops left stops, induction]
      split <;> rfl

/-- The placeholders of texts with commas between them. -/
theorem occurrences_join (sigil : Char) (plain : sigil ≠ ',' ∧ sigil ≠ ' ')
    (texts : List (List Char)) :
    occurrences sigil (Piece.join [',', ' '] texts) = texts.flatMap (occurrences sigil) := by
  induction texts with
  | nil => rfl
  | cons text texts induction =>
      cases texts with
      | nil => simp [Piece.join]
      | cons next texts =>
          rw [Piece.join, List.append_assoc, List.cons_append, List.cons_append,
            occurrences_append sigil text (stops_cons (by decide)),
            occurrences_cons_of_ne plain.1.symm, occurrences_cons_of_ne plain.2.symm,
            List.nil_append, induction]
          simp

/-- A placeholder at the start of a text. -/
theorem occurrences_placeholder {sigil : Char} (mark : isPlaceholderChar sigil = false)
    {text : String} (written : IsPlaceholder sigil text) {rest : List Char} (stops : Stops rest) :
    occurrences sigil (text.toList ++ rest) = text :: occurrences sigil rest := by
  obtain ⟨word, equality, nonempty, placed⟩ := written
  have whole : (word ++ rest).takeWhile isPlaceholderChar = word := by
    have ends := takeWhile_append_of_stops [] stops
    rw [List.nil_append] at ends
    rw [List.takeWhile_append_of_pos placed, ends]
    simp
  have absent : sigil ∉ word := by
    intro member
    rw [placed sigil member] at mark
    cases mark
  have same : String.ofList (sigil :: word) = text := by rw [← equality, String.ofList_toList]
  rw [equality, List.cons_append, occurrences, whole]
  simp [nonempty, same, occurrences_append_of_not_mem absent]

/-- A placeholder with another sigil at the start of a text. -/
theorem occurrences_other (sigil : Char) {other : Char} (mark : isPlaceholderChar sigil = false)
    (different : sigil ≠ other) {text : String} (written : IsPlaceholder other text)
    (rest : List Char) : occurrences sigil (text.toList ++ rest) = occurrences sigil rest := by
  obtain ⟨word, equality, -, placed⟩ := written
  refine occurrences_append_of_not_mem ?_ rest
  rw [equality, List.mem_cons, not_or]
  refine ⟨different, ?_⟩
  intro member
  rw [placed sigil member] at mark
  cases mark

end Fragment

open Fragment

namespace Atom

theorem occurrences_function {sigil : Char} (plain : Token.isFunctionChar sigil = false)
    {function : List Char} (written : ∀ c ∈ function, Token.isFunctionChar c = true)
    (rest : List Char) : occurrences sigil (function ++ rest) = occurrences sigil rest := by
  refine occurrences_append_of_not_mem ?_ rest
  intro member
  rw [written sigil member] at plain
  cases plain

theorem flatMap_occurrences {operands : List String}
    (written : ∀ operand ∈ operands, IsPlaceholder ':' operand) :
    (operands.map String.toList).flatMap (occurrences '#') = [] ∧
      (operands.map String.toList).flatMap (occurrences ':') = operands := by
  induction operands with
  | nil => simp
  | cons operand operands induction =>
      have head : IsPlaceholder ':' operand := written operand (by simp)
      have none := occurrences_other '#' (by decide) (by decide) head []
      have one := occurrences_placeholder (by decide) head stops_nil
      rw [List.append_nil] at none one
      obtain ⟨names, values⟩ := induction fun other member => written other (by simp [member])
      simp [none, one, names, values]

theorem compare_text_append (name operand : String) (comparison : Comparison)
    (rest : List Char) :
    (Atom.compare name comparison operand).text ++ rest =
      name.toList ++ (' ' :: ((comparison.symbol.toList ++ [' ']) ++ (operand.toList ++ rest))) := by
  simp [text, Test.compareText]

theorem oneOf_text_append (name : String) (operands : List String) (rest : List Char) :
    (Atom.oneOf name operands).text ++ rest =
      name.toList ++ (' ' :: (['I', 'N', ' ', '('] ++
        (Piece.join [',', ' '] (operands.map String.toList) ++ (')' :: rest)))) := by
  simp [text]

theorem call_text_append (function name : String) (rest : List Char) :
    (Atom.call function name).text ++ rest =
      function.toList ++ ('(' :: (name.toList ++ (')' :: rest))) := by
  simp [text]

/-- The placeholder of the name is the only one with its sigil in the text of a test. -/
theorem occurrences_names {atom : Atom String} (written : atom.IsWritten) (rest : List Char) :
    occurrences '#' (atom.text ++ rest) = atom.name :: occurrences '#' rest := by
  cases atom with
  | compare name comparison operand =>
      have symbol : '#' ∉ comparison.symbol.toList ++ [' '] := by
        cases comparison <;> decide
      rw [compare_text_append, occurrences_placeholder (by decide) written.1 (stops_cons (by decide)),
        occurrences_cons_of_ne (by decide), occurrences_append_of_not_mem symbol,
        occurrences_other _ (by decide) (by decide) written.2]
      rfl
  | oneOf name operands =>
      have word : '#' ∉ ['I', 'N', ' ', '('] := by decide
      rw [oneOf_text_append, occurrences_placeholder (by decide) written.1 (stops_cons (by decide)),
        occurrences_cons_of_ne (by decide), occurrences_append_of_not_mem word,
        occurrences_append _ _ (stops_cons (by decide)), occurrences_join _ (by decide), (flatMap_occurrences written.2.2).1,
        occurrences_cons_of_ne (by decide)]
      rfl
  | call function name =>
      rw [call_text_append, occurrences_function (by decide) written.1.2,
        occurrences_cons_of_ne (by decide),
        occurrences_placeholder (by decide) written.2 (stops_cons (by decide)),
        occurrences_cons_of_ne (by decide)]
      rfl

theorem occurrences_values {atom : Atom String} (written : atom.IsWritten) {rest : List Char}
    (stops : Stops rest) :
    occurrences ':' (atom.text ++ rest) = atom.operands ++ occurrences ':' rest := by
  cases atom with
  | compare name comparison operand =>
      have symbol : ':' ∉ comparison.symbol.toList ++ [' '] := by
        cases comparison <;> decide
      rw [compare_text_append, occurrences_other _ (by decide) (by decide) written.1,
        occurrences_cons_of_ne (by decide), occurrences_append_of_not_mem symbol,
        occurrences_placeholder (by decide) written.2 stops]
      rfl
  | oneOf name operands =>
      have word : ':' ∉ ['I', 'N', ' ', '('] := by decide
      rw [oneOf_text_append, occurrences_other _ (by decide) (by decide) written.1,
        occurrences_cons_of_ne (by decide), occurrences_append_of_not_mem word,
        occurrences_append _ _ (stops_cons (by decide)), occurrences_join _ (by decide), (flatMap_occurrences written.2.2).2,
        occurrences_cons_of_ne (by decide)]
      rfl
  | call function name =>
      rw [call_text_append, occurrences_function (by decide) written.1.2,
        occurrences_cons_of_ne (by decide), occurrences_other _ (by decide) (by decide) written.2,
        occurrences_cons_of_ne (by decide)]
      rfl

end Atom

namespace Expression

/-- The characters of connectives and parentheses. -/
def connectiveChars : List Char :=
  ['(', ')', ' ', 'N', 'O', 'T', 'A', 'D', 'R']

/-- The placeholders in the text of an expression are those of its tests. -/
theorem occurrences_text {sigil : Char} (plain : sigil ∉ connectiveChars)
    {part : Atom String → List String}
    (tested : ∀ atom : Atom String, atom.IsWritten → ∀ rest, Stops rest →
      occurrences sigil (atom.text ++ rest) = part atom ++ occurrences sigil rest)
    {expression : Expression (Atom String)} (written : expression.All Atom.IsWritten)
    {rest : List Char} (stops : Stops rest) :
    occurrences sigil (expression.text ++ rest) =
      expression.atoms.flatMap part ++ occurrences sigil rest := by
  have foreign : ∀ word : List Char, word ⊆ connectiveChars → sigil ∉ word :=
    fun word inside member => plain (inside member)
  induction expression generalizing rest with
  | test atom =>
      rw [text, tested atom written rest stops]
      simp [atoms]
  | enclosed inner induction =>
      have opening := foreign ['('] (by simp [connectiveChars])
      have closing := foreign [')'] (by simp [connectiveChars])
      have separated : Stops ([')'] ++ rest) := stops_cons (by decide)
      have whole : (enclosed inner).text ++ rest = ['('] ++ (inner.text ++ ([')'] ++ rest)) := by
        simp [text]
      rw [whole, occurrences_append_of_not_mem opening, induction written separated,
        occurrences_append_of_not_mem closing]
      rfl
  | not inner induction =>
      have word := foreign ['N', 'O', 'T', ' '] (by simp [connectiveChars])
      rw [text, List.append_assoc, occurrences_append_of_not_mem word]
      exact induction written stops
  | and left right leftInduction rightInduction =>
      have word := foreign Piece.andSeparator (by simp [connectiveChars, Piece.andSeparator])
      have separated : Stops (Piece.andSeparator ++ (right.text ++ rest)) :=
        stops_cons (by decide)
      rw [text, List.append_assoc, List.append_assoc, leftInduction written.1 separated,
        occurrences_append_of_not_mem word, rightInduction written.2 stops]
      simp [atoms]
  | or left right leftInduction rightInduction =>
      have word := foreign Piece.orSeparator (by simp [connectiveChars, Piece.orSeparator])
      have separated : Stops (Piece.orSeparator ++ (right.text ++ rest)) :=
        stops_cons (by decide)
      rw [text, List.append_assoc, List.append_assoc, leftInduction written.1 separated,
        occurrences_append_of_not_mem word, rightInduction written.2 stops]
      simp [atoms]

theorem occurrences_names {expression : Expression (Atom String)}
    (written : expression.All Atom.IsWritten) {rest : List Char} (stops : Stops rest) :
    occurrences '#' (expression.text ++ rest) = expression.names ++ occurrences '#' rest := by
  have tested : ∀ atom : Atom String, atom.IsWritten → ∀ rest, Stops rest →
      occurrences '#' (atom.text ++ rest) = [atom.name] ++ occurrences '#' rest :=
    fun atom written rest _ => Atom.occurrences_names written rest
  rw [occurrences_text (by decide) tested written stops, names, List.map_eq_flatMap]

theorem occurrences_values {expression : Expression (Atom String)}
    (written : expression.All Atom.IsWritten) {rest : List Char} (stops : Stops rest) :
    occurrences ':' (expression.text ++ rest) = expression.values ++ occurrences ':' rest :=
  occurrences_text (by decide) (fun _ written _ stops => Atom.occurrences_values written stops)
    written stops

end Expression

end ItemTable
