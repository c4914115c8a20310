import ItemTable.Proofs.Expression.Meaning

/-!
# Conjunctions of condition texts

Whether a side of a conjunction gets parentheses is decided from its text alone: from an
`OR` anywhere in it, and from the depth of its parentheses.  A disjunction always gets
them, because a parenthesis that opens its first part closes before its end.  What gets
none, or needs none, is a conjunction already.

So the conjunction of two fragments reads as the conjunction of both.
-/

namespace ItemTable

namespace Text

theorem startsWith_append (pattern rest : List Char) :
    startsWith pattern (pattern ++ rest) = true := by
  induction pattern with
  | nil => rfl
  | cons c pattern induction =>
      rw [List.cons_append, startsWith, induction, beq_self_eq_true, Bool.and_self]

theorem occursIn_append (before pattern after : List Char) :
    occursIn pattern (before ++ pattern ++ after) = true := by
  induction before with
  | nil =>
      have starts := startsWith_append pattern after
      rw [List.nil_append]
      cases text : pattern ++ after with
      | nil =>
          rw [List.append_eq_nil_iff] at text
          rw [text.1]
          rfl
      | cons c rest =>
          rw [text] at starts
          rw [occursIn, starts, Bool.true_or]
  | cons c before induction =>
      rw [List.cons_append, List.cons_append, occursIn, induction, Bool.or_true]

end Text

/-! ## Depths of parentheses -/

namespace Fragment

theorem closesAtEnd_append {word : List Char} (plain : ∀ c ∈ word, Token.isSeparator c = false)
    (depth : Nat) (rest : List Char) :
    closesAtEnd depth (word ++ rest) = closesAtEnd depth rest := by
  induction word with
  | nil => rfl
  | cons c word induction =>
      obtain ⟨here, later⟩ := List.forall_mem_cons.mp plain
      have notOpening : (c == '(') = false := by
        rw [beq_eq_false_iff_ne]
        rintro rfl
        cases here
      have notClosing : (c == ')') = false := by
        rw [beq_eq_false_iff_ne]
        rintro rfl
        cases here
      simp only [List.cons_append, closesAtEnd, notOpening, notClosing, Bool.false_eq_true,
        if_false]
      exact induction later

theorem closesAtEnd_blank (depth : Nat) (rest : List Char) :
    closesAtEnd depth (' ' :: rest) = closesAtEnd depth rest := rfl

theorem closesAtEnd_opening (depth : Nat) (rest : List Char) :
    closesAtEnd depth ('(' :: rest) = closesAtEnd (depth + 1) rest := rfl

theorem closesAtEnd_closing (depth : Nat) (rest : List Char) :
    closesAtEnd (depth + 2) (')' :: rest) = closesAtEnd (depth + 1) rest := rfl

theorem closesAtEnd_early {rest : List Char} (more : rest ≠ []) :
    closesAtEnd 1 (')' :: rest) = false := by
  simp [closesAtEnd, more]

end Fragment

open Fragment (closesAtEnd closesAtEnd_append closesAtEnd_blank closesAtEnd_opening
  closesAtEnd_closing closesAtEnd_early)

namespace Atom

theorem closesAtEnd_operands {operands : List String}
    (written : ∀ operand ∈ operands, IsPlaceholder ':' operand) (depth : Nat)
    (rest : List Char) :
    closesAtEnd depth (Piece.join [',', ' '] (operands.map String.toList) ++ rest) =
      closesAtEnd depth rest := by
  induction operands with
  | nil => rfl
  | cons operand others induction =>
      obtain ⟨here, later⟩ := List.forall_mem_cons.mp written
      have plain := here.not_separator rfl
      cases others with
      | nil => exact closesAtEnd_append plain depth rest
      | cons next others =>
          have separator : ∀ rest, closesAtEnd depth ([',', ' '] ++ rest) =
              closesAtEnd depth rest := fun _ => rfl
          have joined := induction later
          simp only [List.map_cons, Piece.join, List.append_assoc] at joined ⊢
          rw [closesAtEnd_append plain, separator, joined]

/-- The parentheses of a test close inside it. -/
theorem closesAtEnd_text {atom : Atom String} (written : atom.IsWritten) (depth : Nat)
    (rest : List Char) :
    closesAtEnd (depth + 1) (atom.text ++ rest) = closesAtEnd (depth + 1) rest := by
  cases atom with
  | compare name comparison operand =>
      have symbol : ∀ c ∈ comparison.symbol.toList, Token.isSeparator c = false :=
        Token.isSeparator_eq_false_of_all (by cases comparison <;> rfl)
      simp only [text, Test.compareText, List.append_assoc, List.cons_append]
      rw [closesAtEnd_append (written.1.not_separator rfl), closesAtEnd_blank,
        closesAtEnd_append symbol, closesAtEnd_blank,
        closesAtEnd_append (written.2.not_separator rfl)]
  | oneOf name operands =>
      have word : ∀ rest, closesAtEnd (depth + 1) ([' ', 'I', 'N', ' ', '('] ++ rest) =
          closesAtEnd (depth + 2) rest := fun _ => rfl
      simp only [text, List.append_assoc]
      rw [closesAtEnd_append (written.1.not_separator rfl), word,
        closesAtEnd_operands written.2.2, List.singleton_append, closesAtEnd_closing]
  | call function name =>
      have plain : ∀ c ∈ function.toList, Token.isSeparator c = false :=
        fun c member => Token.isSeparator_eq_false_of_isFunctionChar (written.1.2 c member)
      simp only [text, List.append_assoc, List.cons_append]
      rw [closesAtEnd_append plain, closesAtEnd_opening,
        closesAtEnd_append (written.2.not_separator rfl), List.nil_append, closesAtEnd_closing]

theorem head?_text_ne {atom : Atom String} (written : atom.IsWritten) :
    atom.text.head? ≠ some '(' := by
  cases atom with
  | compare name comparison operand =>
      obtain ⟨⟨word, split, -⟩, -⟩ := written
      simp [text, Test.compareText, split]
  | oneOf name operands =>
      obtain ⟨⟨word, split, -⟩, -⟩ := written
      simp [text, split]
  | call function name =>
      obtain ⟨⟨nonempty, placed⟩, -⟩ := written
      obtain ⟨c, word, split⟩ := List.exists_cons_of_ne_nil nonempty
      have first : Token.isFunctionChar c = true := placed c (by simp [split])
      intro opens
      simp only [text, split, List.cons_append, List.head?_cons, Option.some.injEq] at opens
      rw [opens] at first
      cases first

end Atom

namespace Expression

variable {expression left right : Expression (Atom String)}

/-- The parentheses of an expression close inside it. -/
theorem closesAtEnd_text (written : expression.All Atom.IsWritten) (depth : Nat)
    (rest : List Char) :
    closesAtEnd (depth + 1) (expression.text ++ rest) = closesAtEnd (depth + 1) rest := by
  induction expression generalizing depth rest with
  | test atom => exact Atom.closesAtEnd_text written depth rest
  | enclosed inner induction =>
      simp only [text, List.cons_append, List.append_assoc]
      rw [closesAtEnd_opening, induction written, List.nil_append, closesAtEnd_closing]
  | not inner induction => exact induction written depth rest
  | and left right leftInduction rightInduction =>
      have separator : ∀ rest, closesAtEnd (depth + 1) (Piece.andSeparator ++ rest) =
          closesAtEnd (depth + 1) rest := fun _ => rfl
      simp only [text, List.append_assoc]
      rw [leftInduction written.1, separator, rightInduction written.2]
  | or left right leftInduction rightInduction =>
      have separator : ∀ rest, closesAtEnd (depth + 1) (Piece.orSeparator ++ rest) =
          closesAtEnd (depth + 1) rest := fun _ => rfl
      simp only [text, List.append_assoc]
      rw [leftInduction written.1, separator, rightInduction written.2]

/-- A parenthesis that opens an expression closes before what follows the expression. -/
theorem closesAtEnd_eq_false (written : expression.All Atom.IsWritten)
    (opens : expression.text.head? = some '(') {rest : List Char} (more : rest ≠ []) :
    closesAtEnd 0 (expression.text ++ rest) = false := by
  induction expression generalizing rest with
  | test atom => exact absurd opens (Atom.head?_text_ne written)
  | enclosed inner =>
      have inside : inner.All Atom.IsWritten := written
      simp only [text, List.cons_append, List.append_assoc]
      rw [closesAtEnd_opening, closesAtEnd_text inside, List.nil_append, closesAtEnd_early more]
  | not inner => cases opens
  | and left right leftInduction =>
      have opensLeft : left.text.head? = some '(' := by
        cases first : left.text.head? <;>
          simp_all [text, List.head?_append, Piece.andSeparator]
      simp only [text, List.append_assoc]
      exact leftInduction written.1 opensLeft (by simp [Piece.andSeparator])
  | or left right leftInduction =>
      have opensLeft : left.text.head? = some '(' := by
        cases first : left.text.head? <;>
          simp_all [text, List.head?_append, Piece.orSeparator]
      simp only [text, List.append_assoc]
      exact leftInduction written.1 opensLeft (by simp [Piece.orSeparator])

/-- No parentheses enclose a disjunction. -/
theorem isEnclosed_or (written : left.All Atom.IsWritten) :
    Fragment.isEnclosed (or left right).text = false := by
  rw [Fragment.isEnclosed]
  cases first : (or left right).text.head? == some '(' with
  | false => rfl
  | true =>
      have opensLeft : left.text.head? = some '(' := by
        cases opens : left.text.head? <;>
          simp_all [text, List.head?_append, Piece.orSeparator]
      have closes : closesAtEnd 0 (or left right).text = false := by
        rw [text, List.append_assoc]
        exact closesAtEnd_eq_false written opensLeft (by simp [Piece.orSeparator])
      rw [closes, Bool.and_false]

/-- A side of a conjunction is written as it is or in parentheses, and is a conjunction. -/
theorem exists_conjunct (level : expression.IsDisjunction)
    (written : expression.All Atom.IsWritten) {text : String}
    (printed : text.toList = expression.text) :
    ∃ side : Expression (Atom String), (side = expression ∨ side = .enclosed expression) ∧
      side.IsConjunction ∧ (Fragment.conjunct text).toList = side.text := by
  have opening : "(".toList = ['('] := rfl
  have closing : ")".toList = [')'] := rfl
  rw [Fragment.conjunct, printed]
  split
  · refine ⟨.enclosed expression, .inr rfl, .single (.primary (.enclosed level)), ?_⟩
    rw [String.toList_append, String.toList_append, printed, opening, closing, Expression.text,
      List.singleton_append]
  · next bare =>
      cases level with
      | single conjunction => exact ⟨_, .inl rfl, conjunction, printed⟩
      | @or left right =>
          have occurs : Text.occursIn [' ', 'O', 'R', ' '] (or left right).text = true :=
            Text.occursIn_append left.text Piece.orSeparator right.text
          rw [occurs, isEnclosed_or written.1] at bare
          exact absurd rfl bare

theorem conjoin_holds {α : Type} (truth : α → Bool) (left right : Expression α) :
    (left.conjoin right).holds truth = (left.holds truth && right.holds truth) := by
  induction left with
  | and first middle _ induction => rw [conjoin, holds, holds, induction, Bool.and_assoc]
  | _ => rfl

end Expression

namespace Fragment

variable {left right : Fragment}

/-- The text of the fragment is that of an expression. -/
structure Prints (fragment : Fragment) (expression : Expression (Atom String)) : Prop where
  level : expression.IsDisjunction
  written : expression.All Atom.IsWritten
  text_eq : fragment.expression.toList = expression.text

theorem Prints.parse?_eq {fragment : Fragment} {expression : Expression (Atom String)}
    (prints : fragment.Prints expression) :
    Expression.parse? fragment.expression.toList = some expression := by
  rw [prints.text_eq]
  exact prints.level.parse?_text prints.written

theorem Prints.ne_empty {fragment : Fragment} {expression : Expression (Atom String)}
    (prints : fragment.Prints expression) : fragment.expression ≠ "" := by
  intro empty
  have parsed := prints.parse?_eq
  rw [empty] at parsed
  cases parsed

theorem and_of_ne_empty (leftNonempty : left.expression ≠ "")
    (rightNonempty : right.expression ≠ "") :
    left.and right = {
      expression := conjunct left.expression ++ " AND " ++ conjunct right.expression
      names := left.names.bindAll right.names
      values := left.values.bindAll right.values } := by
  rw [and, if_neg rightNonempty, if_neg leftNonempty]

/-- The conjunction of two fragments prints both sides, each in parentheses if it has to be. -/
theorem exists_prints_and {first second : Expression (Atom String)}
    (leftPrints : left.Prints first) (rightPrints : right.Prints second) :
    ∃ firstSide secondSide : Expression (Atom String),
      (firstSide = first ∨ firstSide = .enclosed first) ∧
      (secondSide = second ∨ secondSide = .enclosed second) ∧
      (left.and right).Prints (firstSide.conjoin secondSide) := by
  obtain ⟨firstSide, firstSame, firstLevel, firstText⟩ :=
    Expression.exists_conjunct leftPrints.level leftPrints.written leftPrints.text_eq
  obtain ⟨secondSide, secondSame, secondLevel, secondText⟩ :=
    Expression.exists_conjunct rightPrints.level rightPrints.written rightPrints.text_eq
  have firstWritten : firstSide.All Atom.IsWritten := by
    rcases firstSame with rfl | rfl <;> exact leftPrints.written
  have secondWritten : secondSide.All Atom.IsWritten := by
    rcases secondSame with rfl | rfl <;> exact rightPrints.written
  have separator : " AND ".toList = Piece.andSeparator := rfl
  refine ⟨firstSide, secondSide, firstSame, secondSame,
    .single (Expression.conjoin_isConjunction firstLevel secondLevel),
    Expression.conjoin_all.mpr ⟨firstWritten, secondWritten⟩, ?_⟩
  rw [and_of_ne_empty leftPrints.ne_empty rightPrints.ne_empty, String.toList_append,
    String.toList_append, firstText, secondText, separator, Expression.conjoin_text]

/-- The conjunction of two fragments reads as the conjunction of what they say. -/
theorem parse?_and {first second : Expression (Atom String)} (leftPrints : left.Prints first)
    (rightPrints : right.Prints second) :
    ∃ whole, Expression.parse? (left.and right).expression.toList = some whole ∧
      ∀ truth, whole.holds truth = (first.holds truth && second.holds truth) := by
  obtain ⟨firstSide, secondSide, firstSame, secondSame, prints⟩ :=
    exists_prints_and leftPrints rightPrints
  refine ⟨_, prints.parse?_eq, ?_⟩
  intro truth
  have firstHolds : firstSide.holds truth = first.holds truth := by
    rcases firstSame with rfl | rfl <;> rfl
  have secondHolds : secondSide.holds truth = second.holds truth := by
    rcases secondSame with rfl | rfl <;> rfl
  rw [Expression.conjoin_holds, firstHolds, secondHolds]

end Fragment

end ItemTable
