import ItemTable.Proofs.Expression.Meaning
import ItemTable.Schema.Normalize

/-!
# Filters mean what their documents say

The fragment of a where-document is read back by the store as a condition that
holds exactly when the document does, whatever its tests of stored operands are.
There is no fragment exactly when the document has no condition at any depth.
-/

namespace ItemTable

theorem Property.testOfPlan_isProper {property : Property} {name : String} {plan : TestPlan}
    {test : Test} (tested : property.testOfPlan name plan = .ok test) : test.IsProper := by
  cases plan with
  | compare comparison operand =>
      simp only [testOfPlan, bind_eq_ok_iff] at tested
      obtain ⟨stored, -, built⟩ := tested
      cases built
      trivial
  | range upper upperOperand lower lowerOperand =>
      simp only [testOfPlan, bind_eq_ok_iff] at tested
      obtain ⟨upperStored, -, lowerStored, -, built⟩ := tested
      cases built
      trivial
  | oneOf list =>
      unfold testOfPlan at tested
      split at tested
      · next isCompare => cases isCompare
      · next isRange => cases isRange
      · cases tested
      · next items nonempty isList =>
          simp only [bind_eq_ok_iff] at tested
          obtain ⟨operands, stored, built⟩ := tested
          cases built
          intro empty
          cases items with
          | nil => exact nonempty rfl
          | cons item items =>
              simp only [storeOperands, bind_eq_ok_iff] at stored
              obtain ⟨first, -, others, -, same⟩ := stored
              rw [empty] at same
              cases same
      · cases tested

namespace Formula

variable {schema : Schema}

mutual

theorem ofClause_isProper (clause : Clause) {formula : Formula}
    (compiled : ofClause schema clause = .ok formula) : formula.IsProper := by
  cases clause with
  | condition name condition =>
      rw [ofClause, ofCondition] at compiled
      split at compiled
      · cases compiled
      · simp only [bind_eq_ok_iff] at compiled
        obtain ⟨plan, -, test, tested, built⟩ := compiled
        cases built
        exact Property.testOfPlan_isProper tested
  | group operator documents =>
      rw [ofClause] at compiled
      split at compiled
      · cases compiled
      · rw [bind_eq_ok_iff] at compiled
        obtain ⟨formulas, compiledInside, built⟩ := compiled
        cases built
        exact ofDocuments_areProper documents compiledInside

theorem ofClauses_areProper (clauses : List Clause) {formulas : List Formula}
    (compiled : ofClauses schema clauses = .ok formulas) : AllProper formulas := by
  cases clauses with
  | nil =>
      cases compiled
      trivial
  | cons clause clauses =>
      simp only [ofClauses, bind_eq_ok_iff] at compiled
      obtain ⟨formula, compiledHead, formulas, compiledTail, built⟩ := compiled
      cases built
      exact ⟨ofClause_isProper clause compiledHead, ofClauses_areProper clauses compiledTail⟩

theorem ofDocuments_areProper (documents : List (List Clause)) {formulas : List (List Formula)}
    (compiled : ofDocuments schema documents = .ok formulas) : DocumentsProper formulas := by
  cases documents with
  | nil =>
      cases compiled
      trivial
  | cons document documents =>
      simp only [ofDocuments, bind_eq_ok_iff] at compiled
      obtain ⟨inside, compiledHead, formulas, compiledTail, built⟩ := compiled
      cases built
      exact ⟨ofClauses_areProper document compiledHead,
        ofDocuments_areProper documents compiledTail⟩

end

end Formula

namespace Where

variable {document : Where} {schema : Schema}

theorem isStem_filter : Placeholder.IsStem ['f'] := by
  simp [Placeholder.IsStem]

/-- The fragment of a document says what the document says. -/
theorem filter_means {result : Option Fragment} (compiled : document.filter schema = .ok result)
    (assignment : Atom Value → Bool) :
    Option.Rel (Fragment.Means assignment) result
      (document.reading? (schema.truth assignment)) := by
  rw [filter, map_eq_ok_iff] at compiled
  obtain ⟨formulas, compiled, rfl⟩ := compiled
  rw [reading?, ← (Formula.ofClauses_reading document compiled assignment).1]
  exact Formula.fragment?_means isStem_filter (Formula.ofClauses_areProper document compiled)
    assignment

theorem filter_numbered {fragment : Fragment}
    (compiled : document.filter schema = .ok (some fragment)) :
    ∃ high, Numbered 'f' 0 high fragment.names fragment.values := by
  rw [filter, map_eq_ok_iff] at compiled
  obtain ⟨formulas, -, printed⟩ := compiled
  exact Formula.fragment?_numbered isStem_filter printed

theorem filter_isSome {result : Option Fragment}
    (compiled : document.filter schema = .ok result) :
    result.isSome = document.hasCondition := by
  have means := filter_means compiled fun _ => true
  rw [filter, map_eq_ok_iff] at compiled
  obtain ⟨formulas, compiled, -⟩ := compiled
  obtain ⟨same, present⟩ := Formula.ofClauses_reading document compiled fun _ => true
  rw [hasCondition, ← present, same, ← Junction.combine?_isSome .and]
  rw [reading?] at means
  generalize Junction.and.combine? _ = reading at means ⊢
  cases means <;> rfl

/-- A filter is read back as a condition that holds exactly when the document does,
and there is none exactly when the document has no condition. -/
theorem filter_preserves_meaning {result : Option Fragment}
    (compiled : document.filter schema = .ok result) :
    (result = none ↔ document.hasCondition = false) ∧
      ∀ fragment, result = some fragment → ∃ condition, fragment.condition? = some condition ∧
        ∀ assignment, document.reading? (schema.truth assignment) =
          some (condition.holds assignment) := by
  constructor
  · rw [← filter_isSome compiled]
    cases result <;> simp
  · rintro fragment rfl
    obtain ⟨high, numbered⟩ := filter_numbered compiled
    have meaning : ∀ assignment, ∃ condition, fragment.condition? = some condition ∧
        document.reading? (schema.truth assignment) = some (condition.holds assignment) := by
      intro assignment
      generalize read : document.reading? (schema.truth assignment) = reading
      have means := filter_means compiled assignment
      rw [read] at means
      cases means with
      | some means =>
          obtain ⟨condition, written, holds⟩ :=
            means.condition? numbered.distinctNames numbered.distinctValues
          exact ⟨condition, written, congrArg some holds.symm⟩
    obtain ⟨condition, written, -⟩ := meaning fun _ => true
    refine ⟨condition, written, ?_⟩
    intro assignment
    obtain ⟨other, writtenOther, holds⟩ := meaning assignment
    rw [written] at writtenOther
    cases writtenOther
    exact holds

/-- Visitors with an age and a role. -/
def visitors : Declarations :=
  [("age", { type := "number" }), ("role", { type := "string" })]

/-- Visitors of working age, and all who are not guests. -/
def workers : Where :=
  [.group .or [
    [.condition "age" (.operators [(.gte, .number (.ofInt 18)), (.lt, .number (.ofInt 65))])],
    [.group .not [[.condition "role" (.operators [(.isIn, .list [.string "guest"])])]]]]]

theorem filter_preserves_meaning_of_workers :
    ∃ schema fragment, Schema.ofDeclarations visitors = .ok schema ∧
      workers.filter schema = .ok (some fragment) ∧
      fragment.expression =
        "((#fo1 < :fo1l AND #fo1 >= :fo1r) OR NOT (#fon2 IN (:fon2l0)))" ∧
      ((some fragment = none ↔ workers.hasCondition = false) ∧
        ∀ printed, some fragment = some printed → ∃ condition,
          printed.condition? = some condition ∧ ∀ assignment,
            workers.reading? (schema.truth assignment) = some (condition.holds assignment)) :=
  ⟨_, _, rfl, rfl, rfl, filter_preserves_meaning rfl⟩

end Where

end ItemTable
