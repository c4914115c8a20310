import ItemTable.Proofs.Request.Fragments

/-!
# Comparisons of key conditions

A key condition is a conjunction of comparisons.  `comparisons?` takes the comparisons
from an expression that is one, and the text of formulas that compare is read back as
just these comparisons, in their order.

`Compares` says which comparison a clause of a key condition asks for; the clauses are
compiled exactly when every one of them asks for a comparison.
-/

namespace ItemTable

/-- A comparison of an attribute with a stored operand. -/
structure AttributeComparison where
  name : String
  comparison : Comparison
  operand : Value

namespace AttributeComparison

/-- The comparison as a clause after all checks. -/
def formula (comparison : AttributeComparison) : Formula :=
  .leaf comparison.name (.compare comparison.comparison comparison.operand)

theorem formula_injective {left right : AttributeComparison}
    (same : left.formula = right.formula) : left = right := by
  cases left
  cases right
  cases same
  rfl

end AttributeComparison

namespace Expression

/-- The comparisons that an expression is a conjunction of. -/
def comparisons? : Expression (Atom Value) → Option (List AttributeComparison)
  | test (.compare name comparison operand) => some [{ name, comparison, operand }]
  | and left right =>
      left.comparisons?.bind fun first => right.comparisons?.map (first ++ ·)
  | _ => none

/-- The conjunction has the text, and it is read as the comparisons wherever its
placeholders stand for what they are bound to. -/
structure Lists (expression : Expression (Atom String)) (text : List Char)
    (names : Entries String) (values : Entries Value)
    (comparisons : List AttributeComparison) : Prop where
  level : expression.IsConjunction
  written : expression.All Atom.IsWritten
  text_eq : expression.text = text
  comparisons?_eq : ∀ boundNames boundValues, Entries.Extends boundNames names →
    Entries.Extends boundValues values →
      (expression.resolve? (Atom.resolve? boundNames boundValues)).bind comparisons? =
        some comparisons

theorem Lists.and {atom : Atom String} {right : Expression (Atom String)}
    {leftText rightText : List Char} {leftNames rightNames : Entries String}
    {leftValues rightValues : Entries Value} {first others : List AttributeComparison}
    (left : (test atom).Lists leftText leftNames leftValues first)
    (rest : right.Lists rightText rightNames rightValues others) :
    ((test atom).and right).Lists (leftText ++ Piece.andSeparator ++ rightText)
      (leftNames ++ rightNames) (leftValues ++ rightValues) (first ++ others) where
  level := .and (.primary (.test atom)) rest.level
  written := ⟨left.written, rest.written⟩
  text_eq := by rw [text, left.text_eq, rest.text_eq]
  comparisons?_eq := by
    intro boundNames boundValues namesExtend valuesExtend
    have leftRead := left.comparisons?_eq boundNames boundValues namesExtend.left
      valuesExtend.left
    have rightRead := rest.comparisons?_eq boundNames boundValues namesExtend.right
      valuesExtend.right
    obtain ⟨leftResolved, leftResolves, leftLists⟩ := Option.bind_eq_some_iff.mp leftRead
    obtain ⟨rightResolved, rightResolves, rightLists⟩ := Option.bind_eq_some_iff.mp rightRead
    rw [resolve?, leftResolves, Option.bind_some, rightResolves, Option.map_some,
      Option.bind_some, comparisons?, leftLists, Option.bind_some, rightLists, Option.map_some]

end Expression

namespace AttributeComparison

variable {initial : Char} {stem : List Char}

def piece (stem : List Char) (number : Nat) (comparison : AttributeComparison) : Piece :=
  (Test.compare comparison.comparison comparison.operand).piece comparison.name stem number

theorem piece_lists (stemmed : Placeholder.IsStem (initial :: stem)) (number : Nat)
    (comparison : AttributeComparison) :
    ∃ atom, (Expression.test atom).Lists (comparison.piece (initial :: stem) number).text
      (comparison.piece (initial :: stem) number).names
      (comparison.piece (initial :: stem) number).values [comparison] := by
  obtain ⟨name, symbol, operand⟩ := comparison
  refine ⟨.compare (String.ofList (Placeholder.nameChars (initial :: stem) number)) symbol
    (String.ofList (Placeholder.valueChars (initial :: stem) number)), ?_⟩
  have nameWritten := Placeholder.isPlaceholder_ofList stemmed (by simp) '#' number
  have valueWritten := Placeholder.isPlaceholder_ofList stemmed (by simp) ':' number
  constructor
  · exact .single (.primary (.test _))
  · exact ⟨nameWritten, valueWritten⟩
  · simp [Expression.text, Atom.text, piece, Test.piece]
  · intro boundNames boundValues namesExtend valuesExtend
    have nameFound := namesExtend _ _ List.mem_cons_self
    have valueFound := valuesExtend _ _ List.mem_cons_self
    simp [Expression.resolve?, Atom.resolve?, nameFound, valueFound, Expression.comparisons?]

theorem pieces_cons (stem : List Char) (count : Nat) (comparison : AttributeComparison)
    (formulas : List Formula) :
    (Formula.pieces stem count (comparison.formula :: formulas)).1 =
      comparison.piece stem (count + 1) :: (Formula.pieces stem (count + 1) formulas).1 := by
  simp [Formula.pieces, formula, Formula.piece?, piece]

theorem pieces_list (stemmed : Placeholder.IsStem (initial :: stem)) (count : Nat)
    {comparisons : List AttributeComparison} (nonempty : comparisons ≠ []) :
    ∃ expression : Expression (Atom String), expression.Lists
      (Piece.conjunction (Formula.pieces (initial :: stem) count (comparisons.map formula)).1)
      ((Formula.pieces (initial :: stem) count (comparisons.map formula)).1.flatMap Piece.names)
      ((Formula.pieces (initial :: stem) count (comparisons.map formula)).1.flatMap Piece.values)
      comparisons := by
  induction comparisons generalizing count with
  | nil => exact absurd rfl nonempty
  | cons first others induction =>
      obtain ⟨atom, lists⟩ := piece_lists stemmed (count + 1) first
      rw [List.map_cons, pieces_cons]
      cases others with
      | nil =>
          refine ⟨.test atom, ?_⟩
          simpa [Formula.pieces, Piece.conjunction, Piece.join] using lists
      | cons next others =>
          obtain ⟨rest, restLists⟩ := induction (count + 1) (by simp)
          refine ⟨.and (.test atom) rest, ?_⟩
          rw [List.map_cons, pieces_cons] at restLists ⊢
          exact lists.and restLists

end AttributeComparison

/-- The comparisons that a text is a conjunction of, with its placeholders resolved. -/
def Bindings.comparisons? (bindings : Bindings) (text : String) :
    Option (List AttributeComparison) :=
  ((Expression.parse? text.toList).bind fun expression =>
    expression.resolve? (Atom.resolve? bindings.names bindings.values)).bind
      Expression.comparisons?

namespace Formula

variable {initial : Char} {stem : List Char} {comparisons : List AttributeComparison}

theorem exists_fragment?_comparisons (stem : List Char) (nonempty : comparisons ≠ []) :
    ∃ fragment, fragment? stem (comparisons.map AttributeComparison.formula) = some fragment := by
  obtain ⟨first, others, rfl⟩ := List.exists_cons_of_ne_nil nonempty
  rw [fragment?, List.map_cons, AttributeComparison.pieces_cons]
  exact ⟨_, rfl⟩

/-- The fragment of comparisons is read back as the comparisons, also where its bindings
are part of larger ones. -/
theorem comparisons?_fragment (stemmed : Placeholder.IsStem (initial :: stem))
    {fragment : Fragment}
    (printed : fragment? (initial :: stem) (comparisons.map AttributeComparison.formula) =
      some fragment) {bindings : Bindings} (extended : bindings.Extends fragment) :
    bindings.comparisons? fragment.expression = some comparisons := by
  have nonempty : comparisons ≠ [] := by
    rintro rfl
    cases printed
  obtain ⟨expression, lists⟩ := AttributeComparison.pieces_list stemmed 0 nonempty
  rw [fragment?] at printed
  split at printed
  · cases printed
  · cases printed
    have parsed : Expression.parse? (Piece.conjunction (pieces (initial :: stem) 0
        (comparisons.map AttributeComparison.formula)).1) = some expression := by
      rw [← lists.text_eq]
      exact (Expression.IsDisjunction.single lists.level).parse?_text lists.written
    rw [Bindings.comparisons?, String.toList_ofList, parsed, Option.bind_some]
    exact lists.comparisons?_eq bindings.names bindings.values extended.names extended.values

end Formula

/-! ## Clauses -/

/-- The comparison that a clause of a key condition asks for. -/
inductive Clause.Compares (schema : Schema) : Clause → AttributeComparison → Prop
  | condition {name : String} {condition : Condition} {property : Property}
      {comparison : Comparison} {operand stored : Value}
      (found : schema.get? name = some property)
      (compares : Formula.keyComparison name condition = .ok (comparison, operand))
      (stores : property.storeOperand name operand = .ok stored) :
      Compares schema (.condition name condition) { name, comparison, operand := stored }

namespace Formula

variable {schema : Schema} {clause : Clause} {clauses : List Clause}
variable {comparisons : List AttributeComparison}

theorem ofKeyClause_eq_ok_iff {formula : Formula} :
    ofKeyClause schema clause = .ok formula ↔
      ∃ comparison, clause.Compares schema comparison ∧ formula = comparison.formula := by
  constructor
  · intro compiled
    unfold ofKeyClause at compiled
    split at compiled
    · cases compiled
    · next name condition =>
        split at compiled
        · cases compiled
        · next property found =>
            simp only [bind_eq_ok_iff] at compiled
            obtain ⟨⟨comparison, operand⟩, compares, stored, stores, built⟩ := compiled
            cases built
            exact ⟨_, .condition found compares stores, rfl⟩
  · rintro ⟨comparison, asks, rfl⟩
    cases asks with
    | condition found compares stores =>
        rw [ofKeyClause, found]
        simp only [compares, bind, Except.bind, stores]
        rfl

/-- Clauses are compiled exactly when every one of them asks for a comparison. -/
theorem ofKeyClauses_eq_ok_iff {formulas : List Formula} :
    ofKeyClauses schema clauses = .ok formulas ↔
      ∃ comparisons, List.Forall₂ (Clause.Compares schema) clauses comparisons ∧
        formulas = comparisons.map AttributeComparison.formula := by
  induction clauses generalizing formulas with
  | nil =>
      simp only [ofKeyClauses, Except.ok.injEq, List.forall₂_nil_left_iff, exists_eq_left,
        List.map_nil]
      exact eq_comm
  | cons clause clauses induction =>
      constructor
      · intro compiled
        simp only [ofKeyClauses, bind_eq_ok_iff] at compiled
        obtain ⟨formula, compiledHead, others, compiledTail, built⟩ := compiled
        cases built
        obtain ⟨first, asks, rfl⟩ := ofKeyClause_eq_ok_iff.mp compiledHead
        obtain ⟨rest, asksRest, rfl⟩ := induction.mp compiledTail
        exact ⟨first :: rest, .cons asks asksRest, rfl⟩
      · rintro ⟨comparisons, asksAll, rfl⟩
        cases asksAll with
        | cons asks asksRest =>
            have compiledHead := ofKeyClause_eq_ok_iff.mpr ⟨_, asks, rfl⟩
            have compiledTail := induction.mpr ⟨_, asksRest, rfl⟩
            simp only [ofKeyClauses, compiledHead, compiledTail]
            rfl

/-- The error of clauses is that of one of them. -/
theorem ofKeyClauses_refused {refused : CompileError → Prop}
    (each : ∀ clause ∈ clauses, (∃ formula, ofKeyClause schema clause = .ok formula) ∨
      ∃ error, refused error ∧ ofKeyClause schema clause = .error error)
    (member : clause ∈ clauses) {error : CompileError}
    (fails : ofKeyClause schema clause = .error error) :
    ∃ error, refused error ∧ ofKeyClauses schema clauses = .error error := by
  induction clauses with
  | nil => cases member
  | cons first clauses induction =>
      have eachLater : ∀ later ∈ clauses, _ := fun later inClauses =>
        each later (List.mem_cons_of_mem first inClauses)
      rcases each first List.mem_cons_self with ⟨formula, compiles⟩ | ⟨other, isRefused, failsFirst⟩
      · rcases List.mem_cons.mp member with rfl | later
        · rw [compiles] at fails
          cases fails
        · obtain ⟨other, isRefused, failsLater⟩ := induction eachLater later
          refine ⟨other, isRefused, ?_⟩
          rw [ofKeyClauses, compiles, failsLater]
          rfl
      · refine ⟨other, isRefused, ?_⟩
        rw [ofKeyClauses, failsFirst]
        rfl

end Formula

namespace Where

variable {document : Where} {schema : Schema} {comparisons : List AttributeComparison}

theorem mem_attributeNames {name : String} :
    name ∈ document.attributeNames ↔ ∃ condition, .condition name condition ∈ document := by
  rw [attributeNames, List.mem_filterMap]
  constructor
  · rintro ⟨clause, member, same⟩
    cases clause with
    | group operator documents => cases same
    | condition other condition =>
        cases same
        exact ⟨condition, member⟩
  · rintro ⟨condition, member⟩
    exact ⟨_, member, rfl⟩

theorem exists_compares
    (each : ∀ clause ∈ document, ∃ comparison, clause.Compares schema comparison) :
    ∃ comparisons, List.Forall₂ (Clause.Compares schema) document comparisons := by
  induction document with
  | nil => exact ⟨[], .nil⟩
  | cons clause document induction =>
      obtain ⟨first, asks⟩ := each clause List.mem_cons_self
      obtain ⟨others, asksRest⟩ := induction fun later member =>
        each later (List.mem_cons_of_mem _ member)
      exact ⟨first :: others, .cons asks asksRest⟩

theorem exists_clause_of_mem
    (asks : List.Forall₂ (Clause.Compares schema) document comparisons)
    {comparison : AttributeComparison} (member : comparison ∈ comparisons) :
    ∃ clause ∈ document, clause.Compares schema comparison := by
  induction asks with
  | nil => cases member
  | cons head tail induction =>
      rcases List.mem_cons.mp member with rfl | later
      · exact ⟨_, List.mem_cons_self, head⟩
      · obtain ⟨clause, inDocument, asks⟩ := induction later
        exact ⟨clause, List.mem_cons_of_mem _ inDocument, asks⟩

theorem attributeNames_of_compares
    (asks : List.Forall₂ (Clause.Compares schema) document comparisons) :
    document.attributeNames = comparisons.map (·.name) := by
  induction asks with
  | nil => rfl
  | cons head tail induction =>
      cases head with
      | condition found compares stores => exact congrArg (_ :: ·) induction

/-- A key condition that is compiled compares what its clauses ask for. -/
theorem keyCondition_eq_ok {fragment : Fragment}
    (compiled : document.keyCondition schema = .ok (some fragment)) :
    ∃ comparisons, List.Forall₂ (Clause.Compares schema) document comparisons ∧
      ∀ bindings : Bindings, bindings.Extends fragment →
        bindings.comparisons? fragment.expression = some comparisons := by
  rw [keyCondition, map_eq_ok_iff] at compiled
  obtain ⟨formulas, compiled, printed⟩ := compiled
  obtain ⟨comparisons, asks, rfl⟩ := Formula.ofKeyClauses_eq_ok_iff.mp compiled
  have stemmed : Placeholder.IsStem ['k'] := by simp [Placeholder.IsStem]
  exact ⟨comparisons, asks, fun _ extended =>
    Formula.comparisons?_fragment stemmed printed extended⟩

theorem exists_keyCondition (nonempty : document ≠ [])
    (asks : List.Forall₂ (Clause.Compares schema) document comparisons) :
    ∃ fragment, document.keyCondition schema = .ok (some fragment) := by
  have compiled := Formula.ofKeyClauses_eq_ok_iff.mpr ⟨comparisons, asks, rfl⟩
  have some : comparisons ≠ [] := by
    rintro rfl
    exact nonempty (List.forall₂_nil_right_iff.mp asks)
  obtain ⟨fragment, printed⟩ := Formula.exists_fragment?_comparisons ['k'] some
  exact ⟨fragment, by rw [keyCondition, compiled, Except.map, printed]⟩

end Where

end ItemTable
