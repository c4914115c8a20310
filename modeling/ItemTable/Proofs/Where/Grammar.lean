import Mathlib.Data.List.Forall2
import ItemTable.Expression.Condition
import ItemTable.Proofs.Coercion.Stored
import ItemTable.Proofs.Where.Operators
import ItemTable.Schema.Normalize

/-!
# The grammar of filters

A where-document has a filter exactly when it is grammatical: its groups conjoin,
disjoin or negate, its conditions are on declared properties, and the operators of each
condition stand alone or bound the attribute from at most two sides.  Whether there is a
filter, and which, does not depend on the order of the operators of a condition.

Transforms of the user could reject any operand, so the properties are to have none.
-/

namespace ItemTable

variable {schema : Schema} {property : Property} {name : String} {value stored : Value}
variable {operators : OperatorSet} {pair : Operator × Value} {pairs : List (Operator × Value)}

/-! ### Operands -/

/-- The values that can be compared at all. -/
def Value.IsComparable : Value → Prop
  | .string _ | .number _ | .bool _ | .date _ => True
  | _ => False

/-- The values that a property is compared with. -/
structure Property.AdmitsOperand (property : Property) (value : Value) : Prop where
  comparable : value.IsComparable
  date : property.type = .date → ∃ instant, value = .date instant

/-- The tests that a property is put to. -/
def Property.AdmitsPlan (property : Property) : TestPlan → Prop
  | .compare _ operand => property.AdmitsOperand operand
  | .range _ upperOperand _ lowerOperand =>
      property.AdmitsOperand upperOperand ∧ property.AdmitsOperand lowerOperand
  | .oneOf list => ∃ items, list = .list items ∧ items ≠ [] ∧
      ∀ item ∈ items, property.AdmitsOperand item

namespace Property

theorem storeOperand_eq_ok_iff :
    property.storeOperand name value = .ok stored ↔
      value.IsComparable ∧ property.store value = .ok stored := by
  cases value <;> simp [storeOperand, Value.IsComparable, mapError_eq_ok_iff]

theorem exists_storeOperand_iff (name : String) (unset : property.set = none) :
    (∃ stored, property.storeOperand name value = .ok stored) ↔
      property.AdmitsOperand value := by
  simp only [storeOperand_eq_ok_iff, exists_and_left]
  by_cases isDate : property.type = .date
  · simp only [PropertyTraits.store_eq_ok_iff_of_date unset isDate]
    constructor
    · rintro ⟨comparable, stored, ⟨rfl, -⟩ | ⟨instant, rfl, -⟩⟩
      · cases comparable
      · exact ⟨comparable, fun _ => ⟨instant, rfl⟩⟩
    · rintro ⟨comparable, date⟩
      obtain ⟨instant, rfl⟩ := date isDate
      exact ⟨comparable, _, .inr ⟨instant, rfl, rfl⟩⟩
  · simp only [PropertyTraits.store_of_ne_date unset isDate]
    constructor
    · rintro ⟨comparable, -⟩
      exact ⟨comparable, fun date => absurd date isDate⟩
    · rintro ⟨comparable, -⟩
      exact ⟨comparable, value, rfl⟩

theorem exists_storeOperands_iff (name : String) (unset : property.set = none)
    {items : List Value} :
    (∃ operands, property.storeOperands name items = .ok operands) ↔
      ∀ item ∈ items, property.AdmitsOperand item := by
  induction items with
  | nil => exact iff_of_true ⟨[], rfl⟩ (by simp)
  | cons item items induction =>
      rw [storeOperands, exists_bind_bind_pure_iff, exists_storeOperand_iff name unset, induction,
        List.forall_mem_cons]

/-- A plan becomes a test if the property admits all its operands. -/
theorem exists_testOfPlan_iff (name : String) (unset : property.set = none) {plan : TestPlan} :
    (∃ test, property.testOfPlan name plan = .ok test) ↔ property.AdmitsPlan plan := by
  cases plan with
  | compare comparison operand =>
      rw [testOfPlan, exists_bind_pure_iff, exists_storeOperand_iff name unset, AdmitsPlan]
  | range upper upperOperand lower lowerOperand =>
      rw [testOfPlan, exists_bind_bind_pure_iff, exists_storeOperand_iff name unset,
        exists_storeOperand_iff name unset, AdmitsPlan]
  | oneOf list =>
      rw [AdmitsPlan]
      cases list with
      | list items =>
          cases items with
          | nil => simp [testOfPlan]
          | cons item items =>
              rw [testOfPlan, exists_bind_pure_iff, exists_storeOperands_iff name unset]
              · simp
              · intro isEmpty
                cases isEmpty
      | _ => simp [testOfPlan]

end Property

/-! ### Conditions -/

/-- The conditions that a property is put to. -/
inductive Condition.IsGrammatical (property : Property) : Condition → Prop
  | bare {value : Value} (operand : property.AdmitsOperand value) :
      IsGrammatical property (.bare value)
  | equality {operator : Operator} {value : Value} (alone : operator = .eq ∨ operator = .ne)
      (operand : property.AdmitsOperand value) :
      IsGrammatical property (.operators [(operator, value)])
  | membership {items : List Value} (nonempty : items ≠ [])
      (operands : ∀ item ∈ items, property.AdmitsOperand item) :
      IsGrammatical property (.operators [(.isIn, .list items)])
  | bounds {pairs : List (Operator × Value)} (nonempty : pairs ≠ [])
      (bound : ∀ pair ∈ pairs, pair.1 ∈ [.lt, .lte, .gt, .gte])
      (upper : (pairs.filter fun pair => pair.1 ∈ [.lt, .lte]).length ≤ 1)
      (lower : (pairs.filter fun pair => pair.1 ∈ [.gt, .gte]).length ≤ 1)
      (operands : ∀ pair ∈ pairs, property.AdmitsOperand pair.2) :
      IsGrammatical property (.operators pairs)

namespace OperatorSet

/-- An operator that has to stand alone has a plan if it does. -/
theorem exists_plan_of_alone (sorts : operators.Sorts pairs)
    (alone : operators.alone = some pair) :
    (∃ plan, TestPlan.ofOperatorSet name operators = .ok plan ∧ property.AdmitsPlan plan) ↔
      pairs = [pair] ∧ ∃ plan, TestPlan.single name pair = .ok plan ∧ property.AdmitsPlan plan := by
  have shape := sorts.perm
  rw [alone] at shape
  obtain ⟨_, upper, lower⟩ := operators
  cases alone
  -- Beside `pair` there may be no bound, or there is no plan.
  cases upper <;> cases lower
  · have same : pairs = [pair] := List.perm_singleton.mp shape
    simp [TestPlan.ofOperatorSet, same]
  all_goals
    have longer : pairs ≠ [pair] := by
      rintro rfl
      simpa using shape.length_eq
    simp [TestPlan.ofOperatorSet, longer]

/-- Operators that bound an attribute have a plan. -/
theorem exists_plan_of_bounds (sorts : operators.Sorts pairs)
    (noneAlone : operators.alone = none) :
    (∃ plan, TestPlan.ofOperatorSet name operators = .ok plan ∧ property.AdmitsPlan plan) ↔
      pairs ≠ [] ∧ ∀ pair ∈ pairs, property.AdmitsOperand pair.2 := by
  have shape := sorts.perm
  have compared : ∀ part pair, part ≠ .alone → operators.slot part = some pair →
      ∃ comparison, pair.1.comparison? = some comparison := by
    intro part pair bounds placed
    exact Operator.exists_comparison bounds ((sorts.slot_eq_some_iff part).mp placed).2
  rw [noneAlone] at shape
  obtain ⟨_, upper, lower⟩ := operators
  cases noneAlone
  cases upper with
  | none =>
      cases lower with
      | none =>
          have empty : pairs = [] := List.perm_nil.mp shape
          simp [TestPlan.ofOperatorSet, empty]
      | some lower =>
          obtain ⟨comparison, isLower⟩ := compared .lower lower (by decide) rfl
          have same : pairs = [lower] := List.perm_singleton.mp shape
          simp [TestPlan.ofOperatorSet, TestPlan.single, isLower, same, Property.AdmitsPlan]
  | some upper =>
      obtain ⟨upperComparison, isUpper⟩ := compared .upper upper (by decide) rfl
      cases lower with
      | none =>
          have same : pairs = [upper] := List.perm_singleton.mp shape
          simp [TestPlan.ofOperatorSet, TestPlan.single, isUpper, same, Property.AdmitsPlan]
      | some lower =>
          obtain ⟨lowerComparison, isLower⟩ := compared .lower lower (by decide) rfl
          have nonempty : pairs ≠ [] := by
            rintro rfl
            simpa using shape.length_eq
          simp [TestPlan.ofOperatorSet, isUpper, isLower, nonempty, shape.mem_iff,
            Property.AdmitsPlan]

end OperatorSet

namespace TestPlan

theorem isGrammatical_of_single (plays : pair.1.part? = some .alone) {plan : TestPlan}
    (planned : single name pair = .ok plan) (admits : property.AdmitsPlan plan) :
    (Condition.operators [pair]).IsGrammatical property := by
  obtain ⟨operator, value⟩ := pair
  cases operator with
  | eq =>
      cases planned
      exact .equality (.inl rfl) admits
  | ne =>
      cases planned
      exact .equality (.inr rfl) admits
  | isIn =>
      cases planned
      obtain ⟨items, rfl, nonempty, operands⟩ := admits
      exact .membership nonempty operands
  | _ => cases plays

theorem isGrammatical_of_planned (sorts : operators.Sorts pairs)
    (planned : ∃ plan, ofOperatorSet name operators = .ok plan ∧ property.AdmitsPlan plan) :
    (Condition.operators pairs).IsGrammatical property := by
  cases alone : operators.alone with
  | some pair =>
      obtain ⟨rfl, plan, planned, admits⟩ :=
        (OperatorSet.exists_plan_of_alone sorts alone).mp planned
      exact isGrammatical_of_single ((sorts.slot_eq_some_iff .alone).mp alone).2 planned admits
  | none =>
      obtain ⟨nonempty, operands⟩ := (OperatorSet.exists_plan_of_bounds sorts alone).mp planned
      refine .bounds nonempty (sorts.alone_eq_none_iff.mp alone) ?_ ?_ operands
      · rw [← OperatorSet.playing_upper]
        exact sorts.length_playing_le .upper
      · rw [← OperatorSet.playing_lower]
        exact sorts.length_playing_le .lower

theorem exists_planned_of_isGrammatical (name : String)
    (grammatical : (Condition.operators pairs).IsGrammatical property) :
    ∃ operators : OperatorSet, operators.Sorts pairs ∧
      ∃ plan, ofOperatorSet name operators = .ok plan ∧ property.AdmitsPlan plan := by
  cases grammatical with
  | @equality operator value equality operand =>
      have plays : operator.part? = some .alone := by
        rcases equality with rfl | rfl <;> rfl
      obtain ⟨operators, sorts, alone⟩ := OperatorSet.exists_sorts_singleton (operator, value) plays
      refine ⟨operators, sorts, (OperatorSet.exists_plan_of_alone sorts alone).mpr ⟨rfl, ?_⟩⟩
      rcases equality with rfl | rfl <;> exact ⟨_, rfl, operand⟩
  | @membership items nonempty operands =>
      obtain ⟨operators, sorts, alone⟩ :=
        OperatorSet.exists_sorts_singleton (.isIn, .list items) rfl
      exact ⟨operators, sorts, (OperatorSet.exists_plan_of_alone sorts alone).mpr
        ⟨rfl, _, rfl, items, rfl, nonempty, operands⟩⟩
  | bounds nonempty bound upper lower operands =>
      obtain ⟨operators, sorts⟩ := OperatorSet.exists_sorts_of_bounds bound upper lower
      have noneAlone := sorts.alone_eq_none_iff.mpr bound
      exact ⟨operators, sorts, (OperatorSet.exists_plan_of_bounds sorts noneAlone).mpr
        ⟨nonempty, operands⟩⟩

/-- A condition has a plan that the property admits exactly when it is grammatical. -/
theorem exists_ofCondition_iff (name : String) {condition : Condition} :
    (∃ plan, ofCondition name condition = .ok plan ∧ property.AdmitsPlan plan) ↔
      condition.IsGrammatical property := by
  cases condition with
  | bare value =>
      simp only [ofCondition, Except.ok.injEq, exists_eq_left', Property.AdmitsPlan]
      constructor
      · exact .bare
      · rintro ⟨operand⟩
        exact operand
  | operators pairs =>
      simp only [ofCondition, bind_eq_ok_iff, OperatorSet.addAll_empty_eq_ok_iff]
      constructor
      · rintro ⟨plan, ⟨operators, sorts, planned⟩, admits⟩
        exact isGrammatical_of_planned sorts ⟨plan, planned, admits⟩
      · intro grammatical
        obtain ⟨operators, sorts, plan, planned, admits⟩ :=
          exists_planned_of_isGrammatical name grammatical
        exact ⟨plan, ⟨operators, sorts, planned⟩, admits⟩

end TestPlan

/-! ### Documents -/

/-- The clauses of a filter. -/
inductive Clause.IsGrammatical (schema : Schema) : Clause → Prop
  | condition {name : String} {property : Property} {condition : Condition}
      (declared : schema.get? name = some property)
      (grammatical : condition.IsGrammatical property) :
      IsGrammatical schema (.condition name condition)
  | group {operator : Operator} {documents : List (List Clause)}
      (groups : operator = .and ∨ operator = .or ∨ operator = .not)
      (inside : ∀ document ∈ documents, ∀ clause ∈ document, IsGrammatical schema clause) :
      IsGrammatical schema (.group operator documents)

theorem Clause.isGrammatical_condition_iff {condition : Condition} :
    (Clause.condition name condition).IsGrammatical schema ↔
      ∃ property, schema.get? name = some property ∧ condition.IsGrammatical property := by
  constructor
  · rintro (⟨declared, grammatical⟩ | _)
    exact ⟨_, declared, grammatical⟩
  · rintro ⟨property, declared, grammatical⟩
    exact .condition declared grammatical

theorem Clause.isGrammatical_group_iff {operator : Operator} {documents : List (List Clause)} :
    (Clause.group operator documents).IsGrammatical schema ↔
      (operator = .and ∨ operator = .or ∨ operator = .not) ∧
        ∀ document ∈ documents, ∀ clause ∈ document, clause.IsGrammatical schema := by
  constructor
  · rintro (_ | ⟨groups, inside⟩)
    exact ⟨groups, inside⟩
  · rintro ⟨groups, inside⟩
    exact .group groups inside

def Where.IsGrammatical (document : Where) (schema : Schema) : Prop :=
  ∀ clause ∈ document, clause.IsGrammatical schema

/-- The same condition, with its operators in any order. -/
inductive Condition.Reorders : Condition → Condition → Prop
  | bare (value : Value) : Reorders (.bare value) (.bare value)
  | operators {pairs others : List (Operator × Value)} (permutation : pairs.Perm others) :
      Reorders (.operators pairs) (.operators others)

/-- The same clause, with the operators of its conditions in any order. -/
inductive Clause.Reorders : Clause → Clause → Prop
  | condition {name : String} {condition other : Condition}
      (reorders : condition.Reorders other) :
      Reorders (.condition name condition) (.condition name other)
  | group {operator : Operator} {documents others : List (List Clause)}
      (inside : List.Forall₂ (List.Forall₂ Reorders) documents others) :
      Reorders (.group operator documents) (.group operator others)

/-- The same document, with the operators of its conditions in any order. -/
def Where.Reorders (document other : Where) : Prop :=
  List.Forall₂ Clause.Reorders document other

theorem Condition.Reorders.refl (condition : Condition) : condition.Reorders condition := by
  cases condition with
  | bare value => exact .bare value
  | operators pairs => exact .operators (List.Perm.refl pairs)

mutual

theorem Clause.Reorders.refl (clause : Clause) : clause.Reorders clause := by
  cases clause with
  | condition name condition => exact .condition (Condition.Reorders.refl condition)
  | group operator documents => exact .group (Clause.Reorders.reflDocuments documents)

theorem Where.Reorders.refl (document : List Clause) :
    List.Forall₂ Clause.Reorders document document := by
  cases document with
  | nil => exact .nil
  | cons clause document => exact .cons (Clause.Reorders.refl clause) (Where.Reorders.refl document)

theorem Clause.Reorders.reflDocuments (documents : List (List Clause)) :
    List.Forall₂ (List.Forall₂ Clause.Reorders) documents documents := by
  cases documents with
  | nil => exact .nil
  | cons document documents =>
      exact .cons (Where.Reorders.refl document) (Clause.Reorders.reflDocuments documents)

end

theorem Operator.exists_junction_iff {operator : Operator} :
    (∃ junction, operator.junction? = some junction) ↔
      operator = .and ∨ operator = .or ∨ operator = .not := by
  cases operator <;> simp [junction?]

namespace Formula

theorem exists_ofCondition_iff (unset : ∀ property ∈ schema, property.set = none)
    {condition : Condition} :
    (∃ formula, ofCondition schema name condition = .ok formula) ↔
      ∃ property, schema.get? name = some property ∧ condition.IsGrammatical property := by
  rw [ofCondition]
  cases declared : schema.get? name with
  | none => simp
  | some property =>
      have unset := unset property (List.mem_of_find?_eq_some declared)
      simp only [bind_eq_ok_iff, Option.some.injEq, exists_eq_left',
        ← TestPlan.exists_ofCondition_iff name, ← Property.exists_testOfPlan_iff name unset]
      constructor
      · rintro ⟨_, plan, planned, test, tested, -⟩
        exact ⟨plan, planned, test, tested⟩
      · rintro ⟨plan, planned, test, tested⟩
        exact ⟨_, plan, planned, test, tested, rfl⟩

mutual

/-- A clause is checked without errors exactly when it is grammatical. -/
theorem exists_ofClause_iff (unset : ∀ property ∈ schema, property.set = none) (clause : Clause) :
    (∃ formula, ofClause schema clause = .ok formula) ↔ clause.IsGrammatical schema := by
  cases clause with
  | condition name condition =>
      rw [ofClause, exists_ofCondition_iff unset, Clause.isGrammatical_condition_iff]
  | group operator documents =>
      rw [ofClause, Clause.isGrammatical_group_iff, ← Operator.exists_junction_iff,
        ← exists_ofDocuments_iff unset documents]
      cases operator.junction? with
      | none => simp
      | some junction =>
          dsimp only
          rw [exists_bind_pure_iff]
          exact (and_iff_right ⟨junction, rfl⟩).symm

theorem exists_ofClauses_iff (unset : ∀ property ∈ schema, property.set = none)
    (clauses : List Clause) :
    (∃ formulas, ofClauses schema clauses = .ok formulas) ↔
      ∀ clause ∈ clauses, clause.IsGrammatical schema := by
  cases clauses with
  | nil => exact iff_of_true ⟨[], rfl⟩ (by simp)
  | cons clause clauses =>
      rw [ofClauses, exists_bind_bind_pure_iff, exists_ofClause_iff unset clause,
        exists_ofClauses_iff unset clauses, List.forall_mem_cons]

theorem exists_ofDocuments_iff (unset : ∀ property ∈ schema, property.set = none)
    (documents : List (List Clause)) :
    (∃ formulas, ofDocuments schema documents = .ok formulas) ↔
      ∀ document ∈ documents, ∀ clause ∈ document, clause.IsGrammatical schema := by
  cases documents with
  | nil => exact iff_of_true ⟨[], rfl⟩ (by simp)
  | cons document documents =>
      rw [ofDocuments, exists_bind_bind_pure_iff, exists_ofClauses_iff unset document,
        exists_ofDocuments_iff unset documents, List.forall_mem_cons]

end

theorem ofCondition_eq_ok_iff_of_reorders {condition other : Condition}
    (reorders : condition.Reorders other) {formula : Formula} :
    ofCondition schema name condition = .ok formula ↔
      ofCondition schema name other = .ok formula := by
  cases reorders with
  | bare value => rfl
  | operators permutation =>
      rw [ofCondition, ofCondition]
      cases schema.get? name with
      | none => rfl
      | some property =>
          simp only [bind_eq_ok_iff, TestPlan.ofCondition,
            OperatorSet.addAll_eq_ok_iff_of_perm permutation]

mutual

/-- Clauses that differ in the order of operators are the same formula. -/
theorem ofClause_eq_ok_iff_of_reorders (clause : Clause) {other : Clause}
    (reorders : clause.Reorders other) {formula : Formula} :
    ofClause schema clause = .ok formula ↔ ofClause schema other = .ok formula := by
  cases clause with
  | condition name condition =>
      cases reorders with
      | condition reorders =>
          rw [ofClause, ofClause, ofCondition_eq_ok_iff_of_reorders reorders]
  | group operator documents =>
      cases reorders with
      | group inside =>
          rw [ofClause, ofClause]
          cases operator.junction? with
          | none => rfl
          | some junction =>
              simp only [bind_eq_ok_iff, ofDocuments_eq_ok_iff_of_reorders documents inside]

theorem ofClauses_eq_ok_iff_of_reorders (clauses : List Clause) {others : List Clause}
    (reorder : List.Forall₂ Clause.Reorders clauses others) {formulas : List Formula} :
    ofClauses schema clauses = .ok formulas ↔ ofClauses schema others = .ok formulas := by
  cases clauses with
  | nil =>
      cases reorder
      rfl
  | cons clause clauses =>
      cases reorder with
      | cons reorders reorder =>
          simp only [ofClauses, bind_eq_ok_iff, ofClause_eq_ok_iff_of_reorders clause reorders,
            ofClauses_eq_ok_iff_of_reorders clauses reorder]

theorem ofDocuments_eq_ok_iff_of_reorders (documents : List (List Clause))
    {others : List (List Clause)}
    (reorder : List.Forall₂ (List.Forall₂ Clause.Reorders) documents others)
    {formulas : List (List Formula)} :
    ofDocuments schema documents = .ok formulas ↔ ofDocuments schema others = .ok formulas := by
  cases documents with
  | nil =>
      cases reorder
      rfl
  | cons document documents =>
      cases reorder with
      | cons reorders reorder =>
          simp only [ofDocuments, bind_eq_ok_iff,
            ofClauses_eq_ok_iff_of_reorders document reorders,
            ofDocuments_eq_ok_iff_of_reorders documents reorder]

end

end Formula

namespace Where

variable {document other : Where}

theorem exists_filter_iff (unset : ∀ property ∈ schema, property.set = none) :
    (∃ result, document.filter schema = .ok result) ↔ document.IsGrammatical schema := by
  rw [IsGrammatical, ← Formula.exists_ofClauses_iff unset]
  simp only [filter, map_eq_ok_iff]
  constructor
  · rintro ⟨_, formulas, checked, -⟩
    exact ⟨formulas, checked⟩
  · rintro ⟨formulas, checked⟩
    exact ⟨_, formulas, checked, rfl⟩

theorem filter_eq_ok_iff_of_reorders (reorders : document.Reorders other)
    {result : Option Fragment} :
    document.filter schema = .ok result ↔ other.filter schema = .ok result := by
  simp only [filter, map_eq_ok_iff, Formula.ofClauses_eq_ok_iff_of_reorders document reorders]

/-- A filter is made from grammatical documents alone, and the order of operators on one
attribute is of no account. -/
theorem filter_accepts_grammar (unset : ∀ property ∈ schema, property.set = none)
    (document : Where) :
    ((∃ result, document.filter schema = .ok result) ↔ document.IsGrammatical schema) ∧
      ∀ other, document.Reorders other → ∀ result,
        document.filter schema = .ok result ↔ other.filter schema = .ok result :=
  ⟨exists_filter_iff unset, fun _ reorders _ => filter_eq_ok_iff_of_reorders reorders⟩

def stays : Declarations :=
  [("nights", { type := "number" }), ("arrival", { type := "date" })]

def leapDay : Value := .date (.startOf 951782400 (by decide))

/-- Stays of so many nights, or with arrival on a leap day. -/
def staysBetween (nights : List (Operator × Value)) : Where :=
  [.group .or [
    [.condition "nights" (.operators nights)],
    [.condition "arrival" (.operators [(.isIn, .list [leapDay])])]],
  .group .not []]

theorem unset_of_stays (normalized : Schema.ofDeclarations stays = .ok schema) :
    ∀ property ∈ schema, property.set = none := by
  cases normalized
  intro property member
  simp only [List.mem_cons, List.not_mem_nil, or_false] at member
  rcases member with rfl | rfl <;> rfl

theorem staysBetween_reorders {nights others : List (Operator × Value)}
    (permutation : nights.Perm others) :
    (staysBetween nights).Reorders (staysBetween others) := by
  refine .cons (.group ?_) (.cons (.group .nil) .nil)
  refine .cons (.cons (.condition (.operators permutation)) .nil) (.cons ?_ .nil)
  exact .cons (.condition (.operators (List.Perm.refl _))) .nil

/-- The bounds of the nights in one order and in the other. -/
theorem filter_accepts_grammar_of_staysBetween :
    let one : Operator × Value := (.gte, .number (.ofInt 1))
    let eight : Operator × Value := (.lt, .number (.ofInt 8))
    ∃ schema fragment, Schema.ofDeclarations stays = .ok schema ∧
      (∀ property ∈ schema, property.set = none) ∧
      (staysBetween [one, eight]).IsGrammatical schema ∧
      (staysBetween [one, eight]).filter schema = .ok (some fragment) ∧
      (staysBetween [eight, one]).filter schema = .ok (some fragment) ∧
      fragment.expression = "((#fo1 < :fo1l AND #fo1 >= :fo1r) OR #fo2 IN (:fo2l0))" := by
  intro one eight
  obtain ⟨accepts, reordered⟩ :=
    filter_accepts_grammar (unset_of_stays rfl) (staysBetween [one, eight])
  exact ⟨_, _, rfl, unset_of_stays rfl, accepts.mp ⟨_, rfl⟩, rfl,
    (reordered _ (staysBetween_reorders (List.Perm.swap eight one [])) _).mp rfl, rfl⟩

end Where

end ItemTable
