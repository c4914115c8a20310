import ItemTable.Proofs.Expression.Syntax

/-!
# Printed expressions

The text of an expression over placeholders, and the levels of binding as
grammatical classes.  Reading the text of an expression gives the expression back
when its parentheses stand where the levels of binding need them.
-/

namespace ItemTable

/-- A sigil and a word of placeholder characters. -/
def IsPlaceholder (sigil : Char) (text : String) : Prop :=
  ∃ word, text.toList = sigil :: word ∧ word ≠ [] ∧
    ∀ c ∈ word, Fragment.isPlaceholderChar c = true

namespace Atom

/-- The text of a test. -/
def text : Atom String → List Char
  | compare name comparison operand =>
      Test.compareText name.toList comparison operand.toList
  | oneOf name operands =>
      name.toList ++ [' ', 'I', 'N', ' ', '('] ++
        Piece.join [',', ' '] (operands.map String.toList) ++ [')']
  | call function name => function.toList ++ '(' :: name.toList ++ [')']

/-- The tokens of operands, up to the parenthesis. -/
def operandTokens : List String → List Token
  | [] => [.closing]
  | [operand] => [.value operand, .closing]
  | operand :: next :: rest => .value operand :: .comma :: operandTokens (next :: rest)

/-- The tokens of a test. -/
def tokens : Atom String → List Token
  | compare name comparison operand => [.name name, .comparison comparison, .value operand]
  | oneOf name operands => .name name :: .isIn :: .opening :: operandTokens operands
  | call function name => [.function function, .opening, .name name, .closing]

/-- A test whose text can be read. -/
def IsWritten : Atom String → Prop
  | compare name _ operand => IsPlaceholder '#' name ∧ IsPlaceholder ':' operand
  | oneOf name operands =>
      IsPlaceholder '#' name ∧ operands ≠ [] ∧ ∀ operand ∈ operands, IsPlaceholder ':' operand
  | call function name =>
      (function.toList ≠ [] ∧ ∀ c ∈ function.toList, Token.isFunctionChar c = true) ∧
        IsPlaceholder '#' name

end Atom

namespace Expression

variable {α β : Type}

/-- A property of every test of an expression. -/
def All (property : α → Prop) : Expression α → Prop
  | test atom => property atom
  | enclosed inner => inner.All property
  | not inner => inner.All property
  | and left right => left.All property ∧ right.All property
  | or left right => left.All property ∧ right.All property

/-- The text of an expression. -/
def text : Expression (Atom String) → List Char
  | test atom => atom.text
  | enclosed inner => '(' :: inner.text ++ [')']
  | not inner => ['N', 'O', 'T', ' '] ++ inner.text
  | and left right => left.text ++ Piece.andSeparator ++ right.text
  | or left right => left.text ++ Piece.orSeparator ++ right.text

/-- The tokens of an expression. -/
def tokens : Expression (Atom String) → List Token
  | test atom => atom.tokens
  | enclosed inner => .opening :: inner.tokens ++ [.closing]
  | not inner => .not :: inner.tokens
  | and left right => left.tokens ++ .and :: right.tokens
  | or left right => left.tokens ++ .or :: right.tokens

mutual

/-- A test, or an expression in parentheses. -/
inductive IsPrimary : Expression α → Prop
  | test (atom : α) : IsPrimary (.test atom)
  | enclosed {inner : Expression α} : IsDisjunction inner → IsPrimary (.enclosed inner)

/-- A primary after any number of `NOT`. -/
inductive IsNegated : Expression α → Prop
  | primary {inner : Expression α} : IsPrimary inner → IsNegated inner
  | not {inner : Expression α} : IsNegated inner → IsNegated (.not inner)

/-- Negated primaries with `AND` between them. -/
inductive IsConjunction : Expression α → Prop
  | single {inner : Expression α} : IsNegated inner → IsConjunction inner
  | and {left right : Expression α} :
      IsNegated left → IsConjunction right → IsConjunction (.and left right)

/-- Conjunctions with `OR` between them. -/
inductive IsDisjunction : Expression α → Prop
  | single {inner : Expression α} : IsConjunction inner → IsDisjunction inner
  | or {left right : Expression α} :
      IsConjunction left → IsDisjunction right → IsDisjunction (.or left right)

end

end Expression

/-! ## Words and tokens of a text -/

namespace Token

/-- A text at which a word before it ends. -/
def Delimited (rest : List Char) : Prop :=
  ∀ c ∈ rest.head?, isSeparator c = true

theorem delimited_nil : Delimited [] := by
  simp [Delimited]

theorem delimited_cons {c : Char} {rest : List Char} (separator : isSeparator c = true) :
    Delimited (c :: rest) := by
  simpa [Delimited] using separator

theorem wordsFrom_append (word run rest : List Char)
    (plain : ∀ c ∈ run, isSeparator c = false) :
    wordsFrom word (run ++ rest) = wordsFrom (word ++ run) rest := by
  induction run generalizing word with
  | nil => simp
  | cons c run induction =>
      have head : isSeparator c = false := plain c (by simp)
      have tail : ∀ d ∈ run, isSeparator d = false := by
        intro d member
        exact plain d (by simp [member])
      rw [List.cons_append, wordsFrom, head]
      simpa using induction (word ++ [c]) tail

theorem wordsFrom_delimited (word : List Char) {rest : List Char} (ends : Delimited rest) :
    wordsFrom word rest = flush word ++ words rest := by
  cases rest with
  | nil => simp [wordsFrom, words, flush]
  | cons c rest =>
      have separator : isSeparator c = true := ends c (by simp)
      simp [words, wordsFrom, separator, flush]

theorem words_append {word rest : List Char} (nonempty : word ≠ [])
    (plain : ∀ c ∈ word, isSeparator c = false) (ends : Delimited rest) :
    words (word ++ rest) = word :: words rest := by
  rw [words, wordsFrom_append [] word rest plain, List.nil_append,
    wordsFrom_delimited word ends]
  simp [flush, nonempty]

theorem ofText?_word {word rest : List Char} {token : Token} {tokens : List Token}
    (nonempty : word ≠ []) (plain : ∀ c ∈ word, isSeparator c = false)
    (ends : Delimited rest) (read : ofWord? word = some token)
    (tail : ofText? rest = some tokens) :
    ofText? (word ++ rest) = some (token :: tokens) := by
  rw [ofText?] at tail ⊢
  rw [words_append nonempty plain ends, ofWords?, read, tail]
  rfl

theorem ofText?_blank (rest : List Char) : ofText? (' ' :: rest) = ofText? rest := rfl

/-- A separator that is a word of its own. -/
theorem ofText?_mark {c : Char} {rest : List Char} {token : Token} {tokens : List Token}
    (separator : isSeparator c = true) (visible : c ≠ ' ') (read : ofWord? [c] = some token)
    (tail : ofText? rest = some tokens) : ofText? (c :: rest) = some (token :: tokens) := by
  have split : words (c :: rest) = [c] :: words rest := by
    simp [words, wordsFrom, separator, flush, mark, visible]
  rw [ofText?] at tail ⊢
  rw [split, ofWords?, read, tail]
  rfl

/-- The characters of a word that is written out are checked one by one. -/
theorem isSeparator_eq_false_of_all {word : List Char}
    (plain : word.all (fun c => !isSeparator c) = true) : ∀ c ∈ word, isSeparator c = false := by
  simpa using plain

theorem isSeparator_eq_false_of_isPlaceholderChar {c : Char}
    (placed : Fragment.isPlaceholderChar c = true) : isSeparator c = false := by
  cases separator : isSeparator c with
  | false => rfl
  | true =>
      simp only [isSeparator, Bool.or_eq_true, beq_iff_eq] at separator
      rcases separator with ((rfl | rfl) | rfl) | rfl <;> exact absurd placed (by decide)

theorem isSeparator_eq_false_of_isFunctionChar {c : Char}
    (placed : isFunctionChar c = true) : isSeparator c = false := by
  cases separator : isSeparator c with
  | false => rfl
  | true =>
      simp only [isSeparator, Bool.or_eq_true, beq_iff_eq] at separator
      rcases separator with ((rfl | rfl) | rfl) | rfl <;> exact absurd placed (by decide)

theorem ofWord?_name {name : String} (written : IsPlaceholder '#' name) :
    ofWord? name.toList = some (.name name) := by
  obtain ⟨word, text, nonempty, placed⟩ := written
  have whole : String.ofList ('#' :: word) = name := by
    rw [← text, String.ofList_toList]
  have notKeyword : keywords.lookup ('#' :: word) = none := by simp [keywords, List.lookup_cons]
  rw [text, ofWord?, notKeyword, Option.none_or, ofName?]
  simpa [nonempty, whole] using placed

theorem ofWord?_value {value : String} (written : IsPlaceholder ':' value) :
    ofWord? value.toList = some (.value value) := by
  obtain ⟨word, text, nonempty, placed⟩ := written
  have whole : String.ofList (':' :: word) = value := by
    rw [← text, String.ofList_toList]
  have notKeyword : keywords.lookup (':' :: word) = none := by simp [keywords, List.lookup_cons]
  rw [text, ofWord?, notKeyword, Option.none_or, ofName?]
  simpa [nonempty, whole] using placed

theorem ofWord?_comparison (comparison : Comparison) :
    ofWord? comparison.symbol.toList = some (.comparison comparison) := by
  cases comparison <;> rfl

theorem ofWord?_function {function : String} (nonempty : function.toList ≠ [])
    (placed : ∀ c ∈ function.toList, isFunctionChar c = true) :
    ofWord? function.toList = some (.function function) := by
  have notKeyword : keywords.lookup function.toList = none := by
    rw [List.lookup_eq_none_iff]
    intro entry member
    have refused : entry.1.all isFunctionChar = false := by
      revert entry
      decide
    rw [bne_iff_ne]
    intro same
    rw [← same, ← Bool.not_eq_true, List.all_eq_true] at refused
    exact refused placed
  rw [ofWord?, notKeyword, Option.none_or]
  unfold ofName?
  split
  · next sigil => exact absurd (placed '#' (by simp [sigil])) (by decide)
  · next sigil => exact absurd (placed ':' (by simp [sigil])) (by decide)
  · simpa [nonempty] using placed

end Token

theorem IsPlaceholder.ne_nil {sigil : Char} {text : String} (written : IsPlaceholder sigil text) :
    text.toList ≠ [] := by
  obtain ⟨word, equality, _, _⟩ := written
  simp [equality]

theorem IsPlaceholder.not_separator {sigil : Char} {text : String}
    (written : IsPlaceholder sigil text) (plain : Token.isSeparator sigil = false) :
    ∀ c ∈ text.toList, Token.isSeparator c = false := by
  obtain ⟨word, equality, _, placed⟩ := written
  intro c member
  rw [equality] at member
  rcases List.mem_cons.mp member with rfl | inWord
  · exact plain
  · exact Token.isSeparator_eq_false_of_isPlaceholderChar (placed c inWord)

namespace Token

theorem ofText?_name {name : String} {rest : List Char} {tokens : List Token}
    (written : IsPlaceholder '#' name) (ends : Delimited rest)
    (tail : ofText? rest = some tokens) :
    ofText? (name.toList ++ rest) = some (.name name :: tokens) :=
  ofText?_word written.ne_nil (written.not_separator (by decide)) ends (ofWord?_name written) tail

theorem ofText?_value {value : String} {rest : List Char} {tokens : List Token}
    (written : IsPlaceholder ':' value) (ends : Delimited rest)
    (tail : ofText? rest = some tokens) :
    ofText? (value.toList ++ rest) = some (.value value :: tokens) :=
  ofText?_word written.ne_nil (written.not_separator (by decide)) ends (ofWord?_value written) tail

theorem ofText?_comparison {comparison : Comparison} {rest : List Char} {tokens : List Token}
    (ends : Delimited rest) (tail : ofText? rest = some tokens) :
    ofText? (comparison.symbol.toList ++ rest) = some (.comparison comparison :: tokens) :=
  ofText?_word (by cases comparison <;> decide)
    (isSeparator_eq_false_of_all (by cases comparison <;> rfl)) ends
    (ofWord?_comparison comparison) tail

theorem ofText?_function {function : String} {rest : List Char} {tokens : List Token}
    (nonempty : function.toList ≠ [])
    (placed : ∀ c ∈ function.toList, isFunctionChar c = true) (ends : Delimited rest)
    (tail : ofText? rest = some tokens) :
    ofText? (function.toList ++ rest) = some (.function function :: tokens) :=
  ofText?_word nonempty
    (fun c member => isSeparator_eq_false_of_isFunctionChar (placed c member)) ends
    (ofWord?_function nonempty placed) tail

/-- A keyword between blanks. -/
theorem ofText?_keyword (word : List Char) {rest : List Char} {token : Token}
    {tokens : List Token} (read : ofWord? word = some token) (nonempty : word ≠ [])
    (plain : ∀ c ∈ word, isSeparator c = false) (tail : ofText? rest = some tokens) :
    ofText? (' ' :: (word ++ ' ' :: rest)) = some (token :: tokens) := by
  rw [ofText?_blank]
  exact ofText?_word nonempty plain (delimited_cons rfl) read (by rw [ofText?_blank, tail])

end Token

namespace Atom

theorem ofText?_operands {operands : List String} {rest : List Char} {tokens : List Token}
    (nonempty : operands ≠ []) (written : ∀ operand ∈ operands, IsPlaceholder ':' operand)
    (tail : Token.ofText? rest = some tokens) :
    Token.ofText? (Piece.join [',', ' '] (operands.map String.toList) ++ ')' :: rest) =
      some (operandTokens operands ++ tokens) := by
  induction operands with
  | nil => exact absurd rfl nonempty
  | cons operand others induction =>
      have headWritten : IsPlaceholder ':' operand := written operand (by simp)
      cases others with
      | nil =>
          simp only [List.map_cons, List.map_nil, Piece.join, operandTokens, List.cons_append,
            List.nil_append]
          exact Token.ofText?_value headWritten (Token.delimited_cons rfl)
            (Token.ofText?_mark rfl (by decide) rfl tail)
      | cons next others =>
          have othersRead := induction (by simp) (by
            intro other member
            exact written other (by simp [member]))
          simp only [List.map_cons, Piece.join, operandTokens, List.cons_append,
            List.append_assoc, List.nil_append] at othersRead ⊢
          exact Token.ofText?_value headWritten (Token.delimited_cons rfl)
            (Token.ofText?_mark rfl (by decide) rfl (by rw [Token.ofText?_blank, othersRead]))

theorem ofText?_text {atom : Atom String} {rest : List Char} {tokens : List Token}
    (written : atom.IsWritten) (ends : Token.Delimited rest)
    (tail : Token.ofText? rest = some tokens) :
    Token.ofText? (atom.text ++ rest) = some (atom.tokens ++ tokens) := by
  cases atom with
  | compare name comparison operand =>
      obtain ⟨nameWritten, operandWritten⟩ := written
      simp only [text, Test.compareText, Atom.tokens, List.append_assoc, List.cons_append,
        List.nil_append]
      refine Token.ofText?_name nameWritten (Token.delimited_cons rfl) ?_
      rw [Token.ofText?_blank]
      refine Token.ofText?_comparison (Token.delimited_cons rfl) ?_
      rw [Token.ofText?_blank]
      exact Token.ofText?_value operandWritten ends tail
  | oneOf name operands =>
      obtain ⟨nameWritten, nonempty, operandsWritten⟩ := written
      simp only [text, Atom.tokens, List.append_assoc, List.cons_append, List.nil_append]
      refine Token.ofText?_name nameWritten (Token.delimited_cons rfl) ?_
      exact Token.ofText?_keyword ['I', 'N'] rfl (by decide) (Token.isSeparator_eq_false_of_all rfl)
        (Token.ofText?_mark rfl (by decide) rfl (ofText?_operands nonempty operandsWritten tail))
  | call function name =>
      obtain ⟨⟨nonempty, placed⟩, nameWritten⟩ := written
      simp only [text, Atom.tokens, List.append_assoc, List.cons_append, List.nil_append]
      refine Token.ofText?_function nonempty placed (Token.delimited_cons rfl) ?_
      exact Token.ofText?_mark rfl (by decide) rfl
        (Token.ofText?_name nameWritten (Token.delimited_cons rfl)
          (Token.ofText?_mark rfl (by decide) rfl tail))

end Atom

namespace Expression

/-- The text of an expression has the tokens of the expression. -/
theorem ofText?_text {expression : Expression (Atom String)} {rest : List Char}
    {tokens : List Token} (written : expression.All Atom.IsWritten)
    (ends : Token.Delimited rest) (tail : Token.ofText? rest = some tokens) :
    Token.ofText? (expression.text ++ rest) = some (expression.tokens ++ tokens) := by
  induction expression generalizing rest tokens with
  | test atom => exact Atom.ofText?_text written ends tail
  | enclosed inner induction =>
      have closingRead : Token.ofText? (')' :: rest) = some (.closing :: tokens) :=
        Token.ofText?_mark rfl (by decide) rfl tail
      have innerRead := induction written (Token.delimited_cons rfl) closingRead
      have opening : Token.isSeparator '(' = true := rfl
      have whole := Token.ofText?_mark opening (by decide) rfl innerRead
      simpa [text, Expression.tokens] using whole
  | not inner induction =>
      have innerRead := induction written ends tail
      have nonempty : ['N', 'O', 'T'] ≠ [] := by decide
      simp only [text, Expression.tokens, List.cons_append, List.nil_append]
      exact Token.ofText?_word nonempty (Token.isSeparator_eq_false_of_all rfl)
        (Token.delimited_cons rfl) rfl (by rw [Token.ofText?_blank, innerRead])
  | and left right leftInduction rightInduction =>
      have rightRead := rightInduction written.2 ends tail
      have joined := leftInduction written.1 (Token.delimited_cons rfl)
        (Token.ofText?_keyword ['A', 'N', 'D'] rfl (by decide)
          (Token.isSeparator_eq_false_of_all rfl) rightRead)
      simpa [text, Expression.tokens, Piece.andSeparator] using joined
  | or left right leftInduction rightInduction =>
      have rightRead := rightInduction written.2 ends tail
      have joined := leftInduction written.1 (Token.delimited_cons rfl)
        (Token.ofText?_keyword ['O', 'R'] rfl (by decide)
          (Token.isSeparator_eq_false_of_all rfl) rightRead)
      simpa [text, Expression.tokens, Piece.orSeparator] using joined

/-! ## Reading tokens -/

theorem readValues_operandTokens {operands : List String} (nonempty : operands ≠ [])
    (rest : List Token) :
    readValues (Atom.operandTokens operands ++ rest) = some (operands, rest) := by
  induction operands with
  | nil => exact absurd rfl nonempty
  | cons operand others induction =>
      cases others with
      | nil => rfl
      | cons next others =>
          have othersRead := induction (by simp)
          simp only [Atom.operandTokens, List.cons_append, readValues]
          rw [othersRead]
          rfl

theorem readTest_tokens {atom : Atom String} (written : atom.IsWritten) (rest : List Token) :
    readTest (atom.tokens ++ rest) = some (atom, rest) := by
  cases atom with
  | compare name comparison operand => rfl
  | oneOf name operands =>
      simp only [Atom.tokens, List.cons_append, readTest]
      rw [readValues_operandTokens written.2.1]
      rfl
  | call function name => rfl

theorem tokens_length_pos (expression : Expression (Atom String)) :
    0 < expression.tokens.length := by
  cases expression with
  | test atom => cases atom <;> simp [tokens, Atom.tokens]
  | enclosed inner => simp [tokens]
  | not inner => simp [tokens]
  | and left right =>
      simp only [tokens, List.length_append, List.length_cons]
      omega
  | or left right =>
      simp only [tokens, List.length_append, List.length_cons]
      omega

/-- A primary does not begin with `NOT`. -/
theorem IsPrimary.readNegated_eq {expression : Expression (Atom String)}
    (primary : IsPrimary expression) (operand : Reader) (rest : List Token) :
    readNegated operand (expression.tokens ++ rest) = operand (expression.tokens ++ rest) := by
  cases primary with
  | test atom => cases atom <;> rfl
  | enclosed inner => rfl

theorem readPrimary_test {atom : Atom String} (written : atom.IsWritten) (inside : Reader)
    (rest : List Token) :
    readPrimary inside (atom.tokens ++ rest) = some (.test atom, rest) := by
  have fallsThrough : readPrimary inside (atom.tokens ++ rest) =
      (readTest (atom.tokens ++ rest)).map fun read => (.test read.1, read.2) := by
    cases atom <;> rfl
  rw [fallsThrough, readTest_tokens written]
  rfl

/-- What is left behind an operand is read on only behind the separator. -/
theorem readJoined_last {separator : Token} {combine} {operand : Reader} {count : Nat}
    {tokens rest : List Token} {expression : Expression (Atom String)} (positive : 0 < count)
    (read : operand tokens = some (expression, rest)) (ends : rest.head? ≠ some separator) :
    readJoined separator combine operand count tokens = some (expression, rest) := by
  cases count with
  | zero => omega
  | succ count =>
      rw [readJoined, read]
      cases rest with
      | nil => rfl
      | cons token rest =>
          have other : token ≠ separator := by simpa using ends
          simp [other]

theorem readJoined_next {separator : Token} {combine} {operand : Reader} {count : Nat}
    {tokens rest after : List Token} {left right : Expression (Atom String)}
    (read : operand tokens = some (left, separator :: rest))
    (others : readJoined separator combine operand count rest = some (right, after)) :
    readJoined separator combine operand (count + 1) tokens =
      some (combine left right, after) := by
  rw [readJoined, read]
  simp [others]

mutual

theorem IsPrimary.read_tokens {expression : Expression (Atom String)}
    (primary : IsPrimary expression) (written : expression.All Atom.IsWritten) (depth : Nat)
    (enough : expression.tokens.length ≤ depth) (rest : List Token) :
    readPrimary (read depth) (expression.tokens ++ rest) = some (expression, rest) := by
  cases primary with
  | test atom => exact readPrimary_test written (read depth) rest
  | @enclosed inner disjunction =>
      cases depth with
      | zero => simp [tokens] at enough
      | succ depth =>
          simp only [tokens, List.length_cons, List.length_append, List.length_nil] at enough
          have innerRead := disjunction.read_tokens written depth
            (inner.tokens ++ .closing :: rest).length (inner.tokens ++ .closing :: rest).length
            (by omega) (by simp) (by simp) (.closing :: rest) (by simp) (by simp)
          have insideRead : read (depth + 1) (inner.tokens ++ .closing :: rest) =
              some (inner, .closing :: rest) := innerRead
          simp only [tokens, List.cons_append, List.append_assoc, List.nil_append, readPrimary]
          rw [insideRead]
termination_by (sizeOf expression, 0)

theorem IsNegated.read_tokens {expression : Expression (Atom String)}
    (negated : IsNegated expression) (written : expression.All Atom.IsWritten) (depth : Nat)
    (enough : expression.tokens.length ≤ depth) (rest : List Token) :
    readNegated (readPrimary (read depth)) (expression.tokens ++ rest) =
      some (expression, rest) := by
  cases negated with
  | primary primary =>
      rw [primary.readNegated_eq]
      exact primary.read_tokens written depth enough rest
  | @not inner negated =>
      simp only [tokens, List.length_cons] at enough
      have innerRead := negated.read_tokens written depth (by omega) rest
      simp only [tokens, List.cons_append, readNegated]
      rw [innerRead]
      rfl
termination_by (sizeOf expression, 1)

theorem IsConjunction.read_tokens {expression : Expression (Atom String)}
    (conjunction : IsConjunction expression) (written : expression.All Atom.IsWritten)
    (depth count : Nat) (enough : expression.tokens.length ≤ depth)
    (counted : expression.tokens.length ≤ count) (rest : List Token)
    (ends : rest.head? ≠ some .and) :
    readConjunction (read depth) count (expression.tokens ++ rest) =
      some (expression, rest) := by
  have positive := tokens_length_pos expression
  cases conjunction with
  | single negated =>
      exact readJoined_last (by omega) (negated.read_tokens written depth enough rest) ends
  | @and left right negated conjunction =>
      simp only [tokens, List.length_append, List.length_cons] at enough counted
      cases count with
      | zero => omega
      | succ count =>
          have leftRead := negated.read_tokens written.1 depth (by omega)
            (.and :: (right.tokens ++ rest))
          have rightRead := conjunction.read_tokens written.2 depth count (by omega) (by omega)
            rest ends
          simp only [tokens, List.append_assoc, List.cons_append]
          exact readJoined_next leftRead rightRead
termination_by (sizeOf expression, 2)

theorem IsDisjunction.read_tokens {expression : Expression (Atom String)}
    (disjunction : IsDisjunction expression) (written : expression.All Atom.IsWritten)
    (depth size count : Nat) (enough : expression.tokens.length ≤ depth)
    (sized : expression.tokens.length ≤ size) (counted : expression.tokens.length ≤ count)
    (rest : List Token) (endsAnd : rest.head? ≠ some .and) (endsOr : rest.head? ≠ some .or) :
    readJoined .or .or (readConjunction (read depth) size) count (expression.tokens ++ rest) =
      some (expression, rest) := by
  have positive := tokens_length_pos expression
  cases disjunction with
  | single conjunction =>
      exact readJoined_last (by omega)
        (conjunction.read_tokens written depth size enough sized rest endsAnd) endsOr
  | @or left right conjunction disjunction =>
      simp only [tokens, List.length_append, List.length_cons] at enough sized counted
      cases count with
      | zero => omega
      | succ count =>
          have leftRead := conjunction.read_tokens written.1 depth size (by omega) (by omega)
            (.or :: (right.tokens ++ rest)) (by simp)
          have rightRead := disjunction.read_tokens written.2 depth size count (by omega)
            (by omega) (by omega) rest endsAnd endsOr
          simp only [tokens, List.append_assoc, List.cons_append]
          exact readJoined_next leftRead rightRead
termination_by (sizeOf expression, 3)

end

/-- Reading the text of an expression gives the expression back. -/
theorem IsDisjunction.parse?_text {expression : Expression (Atom String)}
    (disjunction : IsDisjunction expression) (written : expression.All Atom.IsWritten) :
    parse? expression.text = some expression := by
  have scanned : Token.ofText? expression.text = some expression.tokens := by
    have nothing : Token.ofText? [] = some [] := rfl
    simpa using ofText?_text written Token.delimited_nil nothing
  have readAll : read (expression.tokens.length + 1) expression.tokens = some (expression, []) := by
    have reads := disjunction.read_tokens written expression.tokens.length
      expression.tokens.length expression.tokens.length
      (Nat.le_refl _) (Nat.le_refl _) (Nat.le_refl _) [] (by simp) (by simp)
    simpa [read] using reads
  rw [parse?, scanned, Option.bind_some, readAll]

end Expression

end ItemTable
