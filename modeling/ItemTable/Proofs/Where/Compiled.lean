import ItemTable.Proofs.Where.Operators
import ItemTable.Proofs.Where.Reading

/-!
# Readings of formulas

A formula has a reading like the clause it comes from, with tests of stored
operands in place of operators.  Turning clauses into formulas keeps the reading,
and what says nothing is exactly what has no condition.
-/

namespace ItemTable

/-- The value of a test; a range is the conjunction of its two comparisons. -/
def Test.reading (assignment : Atom Value → Bool) (name : String) : Test → Bool
  | .compare comparison operand => assignment (.compare name comparison operand)
  | .range upper upperOperand lower lowerOperand =>
      assignment (.compare name upper upperOperand) &&
        assignment (.compare name lower lowerOperand)
  | .oneOf operands => assignment (.oneOf name operands)

namespace Formula

mutual

/-- What a formula says. -/
def reading? (assignment : Atom Value → Bool) : Formula → Option Bool
  | .leaf name test => some (test.reading assignment name)
  | .group junction documents => junction.combine? (documentReadings assignment documents)

/-- What those formulas say that say something. -/
def readings (assignment : Atom Value → Bool) : List Formula → List Bool
  | [] => []
  | formula :: rest => (formula.reading? assignment).toList ++ readings assignment rest

/-- What those documents of formulas say that say something. -/
def documentReadings (assignment : Atom Value → Bool) : List (List Formula) → List Bool
  | [] => []
  | document :: rest =>
      (Junction.and.combine? (readings assignment document)).toList ++
        documentReadings assignment rest

end

end Formula

namespace OperatorSet

/-- The value of sorted operators: all that are there are tested. -/
def reading (truth : Operator → Value → Bool) (operators : OperatorSet) : Bool :=
  let tested (slot : Option (Operator × Value)) : Bool :=
    slot.all fun pair => truth pair.1 pair.2
  tested operators.alone && tested operators.upper && tested operators.lower

/-- Sorted operators say what the operators say in any order. -/
theorem Sorts.reading_eq {operators : OperatorSet} {pairs : List (Operator × Value)}
    (sorts : operators.Sorts pairs) (truth : Operator → Value → Bool) :
    operators.reading truth = pairs.all fun pair => truth pair.1 pair.2 := by
  rw [sorts.perm.all_eq, List.all_append, List.all_append, reading, Bool.and_assoc]
  cases operators.alone <;> cases operators.upper <;> cases operators.lower <;> simp

end OperatorSet

namespace Schema

theorem truth_of_atom? {schema : Schema} {assignment : Atom Value → Bool} {name : String}
    {operator : Operator} {value : Value} {atom : Atom Value}
    (found : schema.atom? name operator value = some atom) :
    schema.truth assignment name operator value = assignment atom := by
  simp [truth, found]

end Schema

namespace TestPlan

variable {schema : Schema} {name : String} {property : Property}

theorem comparison_truth (found : schema.get? name = some property) {operator : Operator}
    {comparison : Comparison} {value operand : Value}
    (compares : operator.comparison? = some comparison)
    (stored : property.storeOperand name value = .ok operand)
    (assignment : Atom Value → Bool) :
    schema.truth assignment name operator value =
      assignment (.compare name comparison operand) := by
  apply Schema.truth_of_atom?
  simp [Schema.atom?, found, compares, stored, Except.toOption]

/-- The test of an operator that stands alone says what the operator says. -/
theorem single_reading (found : schema.get? name = some property) {pair : Operator × Value}
    {plan : TestPlan} {test : Test} (planned : single name pair = .ok plan)
    (tested : property.testOfPlan name plan = .ok test) (assignment : Atom Value → Bool) :
    test.reading assignment name = schema.truth assignment name pair.1 pair.2 := by
  obtain ⟨operator, value⟩ := pair
  cases compares : operator.comparison? with
  | some comparison =>
      simp only [single, compares, Except.ok.injEq] at planned
      subst plan
      rw [Property.testOfPlan, bind_eq_ok_iff] at tested
      obtain ⟨operand, stored, built⟩ := tested
      cases built
      exact (comparison_truth found compares stored assignment).symm
  | none =>
      simp only [single, compares] at planned
      split at planned
      · next isMembership =>
          cases isMembership
          cases planned
          cases value with
          | list items =>
              cases items with
              | nil => simp [Property.testOfPlan] at tested
              | cons item items =>
                  simp only [Property.testOfPlan, bind_eq_ok_iff] at tested
                  obtain ⟨operands, stored, built⟩ := tested
                  cases built
                  refine (Schema.truth_of_atom? ?_).symm
                  simp [Schema.atom?, found, compares, stored, Except.toOption]
          | _ => simp [Property.testOfPlan] at tested
      · cases planned

theorem ofOperatorSet_reading (found : schema.get? name = some property)
    {operators : OperatorSet} {plan : TestPlan} {test : Test}
    (planned : ofOperatorSet name operators = .ok plan)
    (tested : property.testOfPlan name plan = .ok test) (assignment : Atom Value → Bool) :
    test.reading assignment name = operators.reading (schema.truth assignment name) := by
  obtain ⟨alone, upper, lower⟩ := operators
  cases alone <;> cases upper <;> cases lower <;> simp only [ofOperatorSet] at planned
  case none.none.none => cases planned
  case none.none.some pair =>
    simpa [OperatorSet.reading] using single_reading found planned tested assignment
  case none.some.none pair =>
    simpa [OperatorSet.reading] using single_reading found planned tested assignment
  case some.none.none pair =>
    simpa [OperatorSet.reading] using single_reading found planned tested assignment
  case none.some.some upper lower =>
    split at planned
    · next upperComparison lowerComparison upperCompares lowerCompares =>
        cases planned
        simp only [Property.testOfPlan, bind_eq_ok_iff] at tested
        obtain ⟨upperOperand, upperStored, lowerOperand, lowerStored, built⟩ := tested
        cases built
        simp [Test.reading, OperatorSet.reading,
          comparison_truth found upperCompares upperStored assignment,
          comparison_truth found lowerCompares lowerStored assignment]
    · cases planned
    · cases planned
  all_goals cases planned

end TestPlan

namespace Formula

variable {schema : Schema}

theorem ofCondition_reading {name : String} {condition : Condition} {formula : Formula}
    (compiled : ofCondition schema name condition = .ok formula)
    (assignment : Atom Value → Bool) :
    formula.reading? assignment = some (condition.reading (schema.truth assignment name)) := by
  rw [ofCondition] at compiled
  split at compiled
  · cases compiled
  · next property found =>
      simp only [bind_eq_ok_iff] at compiled
      obtain ⟨plan, planned, test, tested, built⟩ := compiled
      cases built
      cases condition with
      | bare value =>
          have single : TestPlan.single name (.eq, value) = .ok plan := planned
          simpa [reading?, Condition.reading] using
            TestPlan.single_reading found single tested assignment
      | operators pairs =>
          simp only [TestPlan.ofCondition, bind_eq_ok_iff] at planned
          obtain ⟨operators, added, planned⟩ := planned
          have sorts := OperatorSet.addAll_empty_eq_ok_iff.mp added
          rw [reading?, TestPlan.ofOperatorSet_reading found planned tested assignment,
            sorts.reading_eq, Condition.reading]

end Formula

theorem Junction.combine?_isSome (junction : Junction) (values : List Bool) :
    (junction.combine? values).isSome = !values.isEmpty := by
  cases values <;> cases junction <;> rfl

namespace Formula

variable {schema : Schema}

mutual

/-- The formula of a clause says what the clause says, and says something exactly when
the clause has a condition. -/
theorem ofClause_reading (clause : Clause) {formula : Formula}
    (compiled : ofClause schema clause = .ok formula) (assignment : Atom Value → Bool) :
    formula.reading? assignment = clause.reading? (schema.truth assignment) ∧
      (formula.reading? assignment).isSome = clause.hasCondition := by
  cases clause with
  | condition name condition =>
      rw [ofClause] at compiled
      rw [ofCondition_reading compiled assignment]
      simp [Clause.reading?, Clause.hasCondition]
  | group operator documents =>
      rw [ofClause] at compiled
      split at compiled
      · cases compiled
      · next junction grouped =>
          rw [bind_eq_ok_iff] at compiled
          obtain ⟨formulas, compiledInside, built⟩ := compiled
          cases built
          obtain ⟨same, present⟩ := ofDocuments_reading documents compiledInside assignment
          simp [reading?, Clause.reading?, Clause.hasCondition, grouped, same,
            Junction.combine?_isSome, ← present]

theorem ofClauses_reading (clauses : List Clause) {formulas : List Formula}
    (compiled : ofClauses schema clauses = .ok formulas) (assignment : Atom Value → Bool) :
    readings assignment formulas = Clause.readings (schema.truth assignment) clauses ∧
      (!(readings assignment formulas).isEmpty) = Clause.anyClause clauses := by
  cases clauses with
  | nil =>
      cases compiled
      simp [readings, Clause.readings, Clause.anyClause]
  | cons clause clauses =>
      simp only [ofClauses, bind_eq_ok_iff] at compiled
      obtain ⟨formula, compiledHead, formulas, compiledTail, built⟩ := compiled
      cases built
      obtain ⟨headSame, headSays⟩ := ofClause_reading clause compiledHead assignment
      obtain ⟨tailSame, tailSays⟩ := ofClauses_reading clauses compiledTail assignment
      constructor
      · simp [readings, Clause.readings, headSame, tailSame]
      · rw [Clause.anyClause, ← headSays, ← tailSays, readings]
        cases formula.reading? assignment <;> simp

theorem ofDocuments_reading (documents : List (List Clause)) {formulas : List (List Formula)}
    (compiled : ofDocuments schema documents = .ok formulas) (assignment : Atom Value → Bool) :
    documentReadings assignment formulas =
        Clause.documentReadings (schema.truth assignment) documents ∧
      (!(documentReadings assignment formulas).isEmpty) = Clause.anyDocument documents := by
  cases documents with
  | nil =>
      cases compiled
      simp [documentReadings, Clause.documentReadings, Clause.anyDocument]
  | cons document documents =>
      simp only [ofDocuments, bind_eq_ok_iff] at compiled
      obtain ⟨inside, compiledHead, formulas, compiledTail, built⟩ := compiled
      cases built
      obtain ⟨headSame, headSays⟩ := ofClauses_reading document compiledHead assignment
      obtain ⟨tailSame, tailSays⟩ := ofDocuments_reading documents compiledTail assignment
      constructor
      · simp [documentReadings, Clause.documentReadings, headSame, tailSame]
      · rw [Clause.anyDocument, ← headSays, ← tailSays, documentReadings,
          ← Junction.combine?_isSome .and (readings assignment inside)]
        cases Junction.and.combine? (readings assignment inside) <;> simp

end

end Formula

end ItemTable
