import ItemTable.Proofs.Expression.Comparisons
import ItemTable.Schema.Normalize

/-!
# Key conditions as filters

A key condition asks one thing of each attribute that it names.  Its document is a filter as
well, and both are compiled to the same comparisons.  What tells them apart is the letter that
their placeholders begin with.
-/

namespace ItemTable

/-! ## Relabelled placeholders -/

namespace Placeholder

/-- Whether a placeholder begins with a character. -/
def isSigil (c : Char) : Bool :=
  c == '#' || c == ':'

/-- A text in which the placeholders that have one initial have another one in its place. -/
def relabel (initial other : Char) : List Char → List Char
  | sigil :: c :: rest =>
      if isSigil sigil && c == initial then sigil :: other :: relabel initial other rest
      else sigil :: relabel initial other (c :: rest)
  | text => text

/-- Bindings of placeholders that have another initial. -/
def relabelBindings {α : Type} (initial other : Char) (bindings : Entries α) : Entries α :=
  bindings.map fun binding =>
    (String.ofList (relabel initial other binding.1.toList), binding.2)

variable {initial other sigil c : Char} {text : List Char}

theorem relabel_placeholder (marks : isSigil sigil = true) (rest : List Char) :
    relabel initial other (sigil :: initial :: rest) =
      sigil :: other :: relabel initial other rest := by
  rw [relabel, if_pos (by simp [marks])]

theorem relabel_cons (plain : isSigil c = false) (rest : List Char) :
    relabel initial other (c :: rest) = c :: relabel initial other rest := by
  cases rest with
  | nil => rfl
  | cons next rest => rw [relabel, if_neg (by simp [plain])]

/-- A text without sigils stays as it is. -/
theorem relabel_append (plain : ∀ c ∈ text, isSigil c = false) (rest : List Char) :
    relabel initial other (text ++ rest) = text ++ relabel initial other rest := by
  induction text with
  | nil => rfl
  | cons c text induction =>
      obtain ⟨plainHead, plainTail⟩ := List.forall_mem_cons.mp plain
      rw [List.cons_append, relabel_cons plainHead, induction plainTail, List.cons_append]

theorem isSigil_of_mem_toDigits {number : Nat} (member : c ∈ Nat.toDigits 10 number) :
    isSigil c = false := by
  have placed := isPlaceholderChar_of_mem_toDigits member
  rw [isSigil, Bool.or_eq_false_iff, beq_eq_false_iff_ne, beq_eq_false_iff_ne]
  constructor
  · rintro rfl
    exact absurd placed (by decide)
  · rintro rfl
    exact absurd placed (by decide)

theorem relabel_nameChars (initial other : Char) (number : Nat) (rest : List Char) :
    relabel initial other (nameChars [initial] number ++ rest) =
      nameChars [other] number ++ relabel initial other rest := by
  have digits : ∀ c ∈ Nat.toDigits 10 number, isSigil c = false := fun c =>
    isSigil_of_mem_toDigits
  rw [nameChars, List.append_assoc, List.cons_append, List.cons_append, List.nil_append,
    relabel_placeholder rfl, relabel_append digits]
  rfl

theorem relabel_valueChars (initial other : Char) (number : Nat) (rest : List Char) :
    relabel initial other (valueChars [initial] number ++ rest) =
      valueChars [other] number ++ relabel initial other rest := by
  have digits : ∀ c ∈ Nat.toDigits 10 number, isSigil c = false := fun c =>
    isSigil_of_mem_toDigits
  rw [valueChars, List.append_assoc, List.cons_append, List.cons_append, List.nil_append,
    relabel_placeholder rfl, relabel_append digits]
  rfl

end Placeholder

/-- A fragment in which the placeholders that have one initial have another one. -/
def Fragment.relabel (initial other : Char) (fragment : Fragment) : Fragment where
  expression := String.ofList (Placeholder.relabel initial other fragment.expression.toList)
  names := Placeholder.relabelBindings initial other fragment.names
  values := Placeholder.relabelBindings initial other fragment.values

namespace AttributeComparison

open Placeholder (relabel relabelBindings)

variable {initial other : Char}

theorem relabel_symbol (comparison : Comparison) (rest : List Char) :
    relabel initial other (comparison.symbol.toList ++ rest) =
      comparison.symbol.toList ++ relabel initial other rest := by
  apply Placeholder.relabel_append
  cases comparison <;> simp [Comparison.symbol, Placeholder.isSigil]

theorem relabel_text (initial other : Char) (number : Nat) (comparison : AttributeComparison)
    (rest : List Char) :
    relabel initial other ((comparison.piece [initial] number).text ++ rest) =
      (comparison.piece [other] number).text ++ relabel initial other rest := by
  simp only [piece, Test.piece, Test.compareText, List.append_assoc, List.cons_append]
  rw [Placeholder.relabel_nameChars, Placeholder.relabel_cons rfl, relabel_symbol,
    Placeholder.relabel_cons rfl, Placeholder.relabel_valueChars]

theorem relabel_names (number : Nat) (comparison : AttributeComparison) :
    relabelBindings initial other (comparison.piece [initial] number).names =
      (comparison.piece [other] number).names := by
  have name := Placeholder.relabel_nameChars initial other number []
  rw [List.append_nil] at name
  simp [relabelBindings, piece, Test.piece, name, relabel]

theorem relabel_values (number : Nat) (comparison : AttributeComparison) :
    relabelBindings initial other (comparison.piece [initial] number).values =
      (comparison.piece [other] number).values := by
  have value := Placeholder.relabel_valueChars initial other number []
  rw [List.append_nil] at value
  simp [relabelBindings, piece, Test.piece, value, relabel]

theorem relabel_pieces (initial other : Char) (count : Nat)
    (comparisons : List AttributeComparison) :
    let pieces := (Formula.pieces [initial] count (comparisons.map formula)).1
    let relabelled := (Formula.pieces [other] count (comparisons.map formula)).1
    relabel initial other (Piece.conjunction pieces) = Piece.conjunction relabelled ∧
      relabelBindings initial other (pieces.flatMap Piece.names) =
        relabelled.flatMap Piece.names ∧
      relabelBindings initial other (pieces.flatMap Piece.values) =
        relabelled.flatMap Piece.values := by
  induction comparisons generalizing count with
  | nil => exact ⟨rfl, rfl, rfl⟩
  | cons first others induction =>
      obtain ⟨text, names, values⟩ := induction (count + 1)
      simp only [List.map_cons, pieces_cons, List.flatMap_cons] at text names values ⊢
      refine ⟨?_, ?_, ?_⟩
      · cases others with
        | nil =>
            have alone := relabel_text initial other (count + 1) first []
            simpa [Piece.conjunction, Piece.join, Formula.pieces, relabel] using alone
        | cons next others =>
            simp only [List.map_cons, pieces_cons, Piece.conjunction, Piece.join,
              List.append_assoc] at text ⊢
            have separator : ∀ c ∈ Piece.andSeparator, Placeholder.isSigil c = false := by
              simp [Piece.andSeparator, Placeholder.isSigil]
            rw [relabel_text, Placeholder.relabel_append separator, text]
      · rw [relabelBindings, List.map_append]
        exact congrArg₂ (· ++ ·) (relabel_names _ first) names
      · rw [relabelBindings, List.map_append]
        exact congrArg₂ (· ++ ·) (relabel_values _ first) values

/-- Comparisons are printed alike, whatever letter their placeholders begin with. -/
theorem fragment?_relabel (comparisons : List AttributeComparison) :
    Formula.fragment? [other] (comparisons.map formula) =
      (Formula.fragment? [initial] (comparisons.map formula)).map
        (Fragment.relabel initial other) := by
  cases comparisons with
  | nil => rfl
  | cons first others =>
      obtain ⟨text, names, values⟩ := relabel_pieces initial other 0 (first :: others)
      simp only [Formula.fragment?, List.map_cons, pieces_cons, Option.map_some,
        Option.some.injEq] at text names values ⊢
      rw [Fragment.relabel, String.toList_ofList, text, names, values]

end AttributeComparison

/-! ## Clauses of key conditions -/

/-- The clauses that ask one thing of an attribute, which keys can be asked. -/
inductive Clause.IsSimple : Clause → Prop
  | bare (name : String) (value : Value) : IsSimple (.condition name (.bare value))
  | single {operator : Operator} (name : String) (value : Value)
      (keyed : operator ∈ [.eq, .lt, .lte, .gt, .gte]) :
      IsSimple (.condition name (.operators [(operator, value)]))

namespace Formula

variable {schema : Schema} {name : String} {formula : Formula} {clause : Clause}

theorem ofCondition_bare (value : Value) :
    ofCondition schema name (.bare value) =
      ofCondition schema name (.operators [(.eq, value)]) :=
  rfl

/-- A clause has one formula as a key condition and as a filter. -/
theorem ofKeyClause_eq_ok_iff_isSimple :
    ofKeyClause schema clause = .ok formula ↔
      clause.IsSimple ∧ ofClause schema clause = .ok formula := by
  rw [ofKeyClause_eq_ok_iff]
  constructor
  · rintro ⟨_, asks, rfl⟩
    cases asks with
    | @condition name condition _ comparison operand stored found compares stores =>
        unfold keyComparison at compares
        split at compares
        · cases compares
          refine ⟨.bare name _, ?_⟩
          rw [ofClause, ofCondition_bare, ofCondition_single_eq_ok_iff rfl]
          exact ⟨_, _, found, stores, rfl⟩
        · next operator value =>
            have keyed : operator ∈ [.eq, .lt, .lte, .gt, .gte] ∧
                operator.comparison? = some comparison ∧ value = operand := by
              cases operator <;> cases compares <;> simp [Operator.comparison?]
            obtain ⟨keyed, comparesAlone, rfl⟩ := keyed
            refine ⟨.single name value keyed, ?_⟩
            rw [ofClause, ofCondition_single_eq_ok_iff comparesAlone]
            exact ⟨_, _, found, stores, rfl⟩
        · cases compares
  · rintro ⟨simple, compiled⟩
    cases simple with
    | bare name value =>
        rw [ofClause, ofCondition_bare, ofCondition_single_eq_ok_iff rfl] at compiled
        obtain ⟨property, stored, found, stores, rfl⟩ := compiled
        exact ⟨_, .condition found rfl stores, rfl⟩
    | @single operator name value keyed =>
        obtain ⟨comparison, compares, keyCompares⟩ : ∃ comparison,
            operator.comparison? = some comparison ∧
              keyComparison name (.operators [(operator, value)]) = .ok (comparison, value) := by
          cases operator <;> first | exact ⟨_, rfl, rfl⟩ | exact absurd keyed (by decide)
        rw [ofClause, ofCondition_single_eq_ok_iff compares] at compiled
        obtain ⟨property, stored, found, stores, rfl⟩ := compiled
        exact ⟨_, .condition found keyCompares stores, rfl⟩

theorem ofKeyClauses_eq_ok_iff_isSimple {clauses : List Clause} {formulas : List Formula} :
    ofKeyClauses schema clauses = .ok formulas ↔
      (∀ clause ∈ clauses, clause.IsSimple) ∧ ofClauses schema clauses = .ok formulas := by
  induction clauses generalizing formulas with
  | nil => simp [ofKeyClauses, ofClauses]
  | cons clause clauses induction =>
      simp only [ofKeyClauses, ofClauses, bind_eq_ok_iff, ofKeyClause_eq_ok_iff_isSimple, induction,
        List.forall_mem_cons]
      constructor
      · rintro ⟨formula, ⟨simple, compiled⟩, others, ⟨simpleRest, compiledRest⟩, built⟩
        exact ⟨⟨simple, simpleRest⟩, formula, compiled, others, compiledRest, built⟩
      · rintro ⟨⟨simple, simpleRest⟩, formula, compiled, others, compiledRest, built⟩
        exact ⟨formula, ⟨simple, compiled⟩, others, ⟨simpleRest, compiledRest⟩, built⟩

end Formula

namespace Where

/-- A key condition is a filter of simple clauses, and the filter is the key condition with
another letter in its placeholders. -/
theorem key_condition_is_simple_filter (schema : Schema) (document : Where) :
    ((∃ result, document.keyCondition schema = .ok result) ↔
      (∀ clause ∈ document, clause.IsSimple) ∧
        ∃ result, document.filter schema = .ok result) ∧
    ∀ result, document.keyCondition schema = .ok result →
      document.filter schema = .ok (result.map (Fragment.relabel 'k' 'f')) := by
  simp only [keyCondition, filter, map_eq_ok_iff, Formula.ofKeyClauses_eq_ok_iff_isSimple]
  constructor
  · constructor
    · rintro ⟨_, formulas, ⟨simple, compiled⟩, -⟩
      exact ⟨simple, _, formulas, compiled, rfl⟩
    · rintro ⟨simple, _, formulas, compiled, -⟩
      exact ⟨_, formulas, ⟨simple, compiled⟩, rfl⟩
  · rintro _ ⟨formulas, checked, rfl⟩
    obtain ⟨comparisons, -, rfl⟩ := Formula.ofKeyClauses_eq_ok_iff.mp
      (Formula.ofKeyClauses_eq_ok_iff_isSimple.mpr checked)
    exact ⟨_, checked.2, AttributeComparison.fragment?_relabel comparisons⟩

/-- Calls have a caller in small letters and a time. -/
def calls : Declarations :=
  [("caller", { type := "string", set := some fun _ => .ok (.string "ada") }),
    ("at", { type := "date", format := some .number })]

/-- The calls of one caller from ninety seconds after the epoch on. -/
def laterCalls : Where :=
  [.condition "caller" (.bare (.string "ADA")),
    .condition "at" (.operators [(.gte, .date (.startOf 90 (by decide)))])]

theorem key_condition_is_simple_filter_of_laterCalls :
    ∃ schema keyFragment filterFragment, Schema.ofDeclarations calls = .ok schema ∧
      laterCalls.keyCondition schema = .ok (some keyFragment) ∧
      (∀ clause ∈ laterCalls, clause.IsSimple) ∧
      laterCalls.filter schema = .ok (some filterFragment) ∧
      keyFragment.expression = "#k1 = :k1 AND #k2 >= :k2" ∧
      filterFragment = keyFragment.relabel 'k' 'f' ∧
      filterFragment.expression = "#f1 = :f1 AND #f2 >= :f2" ∧
      filterFragment.names = [("#f1", "caller"), ("#f2", "at")] ∧
      filterFragment.values = [(":f1", .string "ada"), (":f2", .number (.ofInt 90000))] := by
  have compiled : ∃ schema keyFragment, Schema.ofDeclarations calls = .ok schema ∧
      laterCalls.keyCondition schema = .ok (some keyFragment) ∧
      keyFragment.expression = "#k1 = :k1 AND #k2 >= :k2" ∧
      keyFragment.names = [("#k1", "caller"), ("#k2", "at")] ∧
      keyFragment.values = [(":k1", .string "ada"), (":k2", .number (.ofInt 90000))] :=
    ⟨_, _, rfl, rfl, rfl, rfl, rfl⟩
  obtain ⟨schema, keyFragment, normalized, compiled, text, names, values⟩ := compiled
  obtain ⟨accepts, agrees⟩ := key_condition_is_simple_filter schema laterCalls
  refine ⟨schema, keyFragment, _, normalized, compiled, (accepts.mp ⟨_, compiled⟩).1,
    agrees _ compiled, text, rfl, ?_, ?_, ?_⟩
  · rw [Fragment.relabel, text]
    rfl
  · rw [Fragment.relabel, names]
    rfl
  · rw [Fragment.relabel, values]
    rfl

end Where

end ItemTable
