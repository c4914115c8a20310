import ItemTable.Expression.Update
import ItemTable.Proofs.Where.Grammar

/-!
# Outlines of expressions

An outline is what is left of a document when its names and operands are left out: the groups,
the operators, and how many members are listed.  Outlines are compiled like any document, and
compiling the outline of a document gives the outline of its expression.  So the text of an
expression and its placeholders come from the outline alone, whatever a name or a value holds.
-/

namespace ItemTable

/-- What stands for an operand that is left out. -/
def Value.blank : Value := .string ""

/-- The property that names left out stand for. -/
def Property.blank : Property where
  name := ""
  type := .string
  required := false
  default := none
  hooks := {}
  get := none
  set := none
  allowed := none
  validators := []
  composite := none
  format := .iso
  properties := none

/-- The schema of outlines. -/
def Schema.blank : Schema := [Property.blank]

/-- The outline of bindings: what is bound. -/
def Entries.outline {α : Type} (blank : α) (bindings : Entries α) : Entries α :=
  bindings.map fun binding => (binding.1, blank)

theorem Entries.names_outline {α : Type} (blank : α) (bindings : Entries α) :
    (bindings.outline blank).names = bindings.names := by
  simp [outline, names]

theorem Entries.outline_flatMap {α ι : Type} (blank : α) (list : ι → Entries α) (items : List ι) :
    outline blank (items.flatMap list) = items.flatMap fun item => outline blank (list item) := by
  rw [outline, List.map_flatMap]
  rfl

/-! ## Conditions -/

namespace Operator

/-- The outline of an operand: how many members it lists. -/
def outlineOperand : Operator → Value → Value
  | .isIn, .list items => .list (items.map fun _ => .blank)
  | _, _ => .blank

def outlinePair (pair : Operator × Value) : Operator × Value :=
  (pair.1, pair.1.outlineOperand pair.2)

theorem outlineOperand_of_compares {operator : Operator} {comparison : Comparison}
    (compares : operator.comparison? = some comparison) (operand : Value) :
    operator.outlineOperand operand = .blank := by
  cases operator <;> first | rfl | cases compares

end Operator

open Operator (outlinePair)

/-- The outline of a condition: its operators. -/
def Condition.outline : Condition → Condition
  | .bare _ => .operators [(.eq, .blank)]
  | .operators pairs => .operators (pairs.map outlinePair)

def Test.outline : Test → Test
  | .compare comparison _ => .compare comparison .blank
  | .range upper _ lower _ => .range upper .blank lower .blank
  | .oneOf operands => .oneOf (operands.map fun _ => .blank)

namespace OperatorSet

variable {name : String} {operators result : OperatorSet} {pair : Operator × Value}
variable {pairs : List (Operator × Value)}

def outline (operators : OperatorSet) : OperatorSet where
  alone := operators.alone.map outlinePair
  upper := operators.upper.map outlinePair
  lower := operators.lower.map outlinePair

theorem slot_outline (part : OperatorPart) :
    operators.outline.slot part = (operators.slot part).map outlinePair := by
  cases part <;> rfl

theorem place_outline (part : OperatorPart) :
    (operators.place pair part).outline = operators.outline.place (outlinePair pair) part := by
  cases part <;> rfl

theorem add_outline (added : add name operators pair = .ok result) :
    add "" operators.outline (outlinePair pair) = .ok result.outline := by
  obtain ⟨part, plays, free, rfl⟩ := add_eq_ok_iff.mp added
  refine add_eq_ok_iff.mpr ⟨part, plays, ?_, place_outline part⟩
  rw [slot_outline, free]
  rfl

theorem addAll_outline (added : addAll name operators pairs = .ok result) :
    addAll "" operators.outline (pairs.map outlinePair) = .ok result.outline := by
  induction pairs generalizing operators with
  | nil =>
      cases added
      rfl
  | cons pair pairs induction =>
      obtain ⟨middle, addedHere, addedRest⟩ := bind_eq_ok_iff.mp added
      exact bind_eq_ok_iff.mpr ⟨middle.outline, add_outline addedHere, induction addedRest⟩

end OperatorSet

namespace TestPlan

variable {name : String} {pair : Operator × Value} {plan : TestPlan}

def outline : TestPlan → TestPlan
  | .compare comparison _ => .compare comparison .blank
  | .range upper _ lower _ => .range upper .blank lower .blank
  | .oneOf list => .oneOf (Operator.isIn.outlineOperand list)

theorem single_outline (planned : single name pair = .ok plan) :
    single "" (outlinePair pair) = .ok plan.outline := by
  obtain ⟨operator, value⟩ := pair
  cases operator <;> cases planned <;> rfl

theorem ofOperatorSet_outline {operators : OperatorSet}
    (planned : ofOperatorSet name operators = .ok plan) :
    ofOperatorSet "" operators.outline = .ok plan.outline := by
  obtain ⟨alone, upper, lower⟩ := operators
  cases alone <;> cases upper <;> cases lower <;> simp only [ofOperatorSet] at planned
  case none.none.none => cases planned
  case none.none.some pair => exact single_outline planned
  case none.some.none pair => exact single_outline planned
  case some.none.none pair => exact single_outline planned
  case none.some.some upper lower =>
    split at planned
    · next upperComparison lowerComparison upperCompares lowerCompares =>
        cases planned
        simp [OperatorSet.outline, ofOperatorSet, outlinePair, upperCompares, lowerCompares,
          outline,
          Operator.outlineOperand_of_compares upperCompares,
          Operator.outlineOperand_of_compares lowerCompares]
    · cases planned
    · cases planned
  all_goals cases planned

theorem ofCondition_outline {condition : Condition}
    (planned : ofCondition name condition = .ok plan) :
    ofCondition "" condition.outline = .ok plan.outline := by
  cases condition with
  | bare value =>
      cases planned
      rfl
  | operators pairs =>
      obtain ⟨operators, added, planned⟩ := bind_eq_ok_iff.mp planned
      exact bind_eq_ok_iff.mpr
        ⟨operators.outline, OperatorSet.addAll_outline added, ofOperatorSet_outline planned⟩

end TestPlan

namespace Property

variable {property : Property} {name : String}

theorem storeOperands_blank {items operands : List Value}
    (stored : property.storeOperands name items = .ok operands) :
    blank.storeOperands "" (items.map fun _ => .blank) = .ok (operands.map fun _ => .blank) := by
  induction items generalizing operands with
  | nil =>
      cases stored
      rfl
  | cons item items induction =>
      simp only [storeOperands, bind_eq_ok_iff] at stored
      obtain ⟨first, -, others, storedRest, ⟨⟩⟩ := stored
      exact bind_eq_ok_iff.mpr ⟨.blank, rfl, bind_eq_ok_iff.mpr ⟨_, induction storedRest, rfl⟩⟩

theorem testOfPlan_outline {plan : TestPlan} {test : Test}
    (tested : property.testOfPlan name plan = .ok test) :
    blank.testOfPlan "" plan.outline = .ok test.outline := by
  cases plan with
  | compare comparison operand =>
      obtain ⟨stored, -, ⟨⟩⟩ := bind_eq_ok_iff.mp tested
      rfl
  | range upper upperOperand lower lowerOperand =>
      simp only [testOfPlan, bind_eq_ok_iff] at tested
      obtain ⟨upperStored, -, lowerStored, -, ⟨⟩⟩ := tested
      rfl
  | oneOf list =>
      cases list with
      | list items =>
          cases items with
          | nil => cases tested
          | cons item items =>
              obtain ⟨operands, stored, ⟨⟩⟩ := bind_eq_ok_iff.mp tested
              exact bind_eq_ok_iff.mpr ⟨_, storeOperands_blank stored, rfl⟩
      | _ => cases tested

end Property

/-! ## Clauses and formulas -/

namespace Clause

mutual

/-- The outline of a clause: its operators, and the outlines of the documents that it groups. -/
def outline : Clause → Clause
  | .condition _ test => .condition "" test.outline
  | .group operator documents => .group operator (outlineDocuments documents)

def outlineAll : List Clause → List Clause
  | [] => []
  | clause :: rest => outline clause :: outlineAll rest

def outlineDocuments : List (List Clause) → List (List Clause)
  | [] => []
  | document :: rest => outlineAll document :: outlineDocuments rest

end

end Clause

/-- The outline of a where-document. -/
def Where.outline (document : Where) : Where :=
  Clause.outlineAll document

namespace Formula

mutual

def outline : Formula → Formula
  | .leaf _ test => .leaf "" test.outline
  | .group junction documents => .group junction (outlineDocuments documents)

def outlineAll : List Formula → List Formula
  | [] => []
  | formula :: rest => outline formula :: outlineAll rest

def outlineDocuments : List (List Formula) → List (List Formula)
  | [] => []
  | document :: rest => outlineAll document :: outlineDocuments rest

end

variable {schema : Schema}

theorem ofCondition_outline {name : String} {condition : Condition} {formula : Formula}
    (checked : ofCondition schema name condition = .ok formula) :
    ofCondition .blank "" condition.outline = .ok formula.outline := by
  rw [ofCondition] at checked
  split at checked
  · cases checked
  · next property found =>
      simp only [bind_eq_ok_iff] at checked
      obtain ⟨plan, planned, test, tested, ⟨⟩⟩ := checked
      exact bind_eq_ok_iff.mpr ⟨plan.outline, TestPlan.ofCondition_outline planned,
        bind_eq_ok_iff.mpr ⟨test.outline, Property.testOfPlan_outline tested, rfl⟩⟩

mutual

/-- The outline of a clause is checked to the outline of its formula. -/
theorem ofClause_outline (clause : Clause) {formula : Formula}
    (checked : ofClause schema clause = .ok formula) :
    ofClause .blank clause.outline = .ok formula.outline := by
  cases clause with
  | condition name condition => exact ofCondition_outline checked
  | group operator documents =>
      rw [ofClause] at checked
      rw [Clause.outline, ofClause]
      split at checked
      · cases checked
      · obtain ⟨formulas, checkedInside, ⟨⟩⟩ := bind_eq_ok_iff.mp checked
        exact bind_eq_ok_iff.mpr ⟨_, ofDocuments_outline documents checkedInside, rfl⟩

theorem ofClauses_outline (clauses : List Clause) {formulas : List Formula}
    (checked : ofClauses schema clauses = .ok formulas) :
    ofClauses .blank (Clause.outlineAll clauses) = .ok (outlineAll formulas) := by
  cases clauses with
  | nil =>
      cases checked
      rfl
  | cons clause clauses =>
      simp only [ofClauses, bind_eq_ok_iff] at checked
      obtain ⟨formula, checkedHead, formulas, checkedTail, ⟨⟩⟩ := checked
      exact bind_eq_ok_iff.mpr ⟨_, ofClause_outline clause checkedHead,
        bind_eq_ok_iff.mpr ⟨_, ofClauses_outline clauses checkedTail, rfl⟩⟩

theorem ofDocuments_outline (documents : List (List Clause)) {formulas : List (List Formula)}
    (checked : ofDocuments schema documents = .ok formulas) :
    ofDocuments .blank (Clause.outlineDocuments documents) = .ok (outlineDocuments formulas) := by
  cases documents with
  | nil =>
      cases checked
      rfl
  | cons document documents =>
      simp only [ofDocuments, bind_eq_ok_iff] at checked
      obtain ⟨inside, checkedHead, formulas, checkedTail, ⟨⟩⟩ := checked
      exact bind_eq_ok_iff.mpr ⟨_, ofClauses_outline document checkedHead,
        bind_eq_ok_iff.mpr ⟨_, ofDocuments_outline documents checkedTail, rfl⟩⟩

end

end Formula

/-! ## Pieces and fragments -/

/-- The outline of a piece: its text and what it binds. -/
def Piece.outline (piece : Piece) : Piece :=
  { piece with
    names := piece.names.outline ""
    values := piece.values.outline .blank }

/-- The outline of a fragment: its text and what it binds. -/
def Fragment.outline (fragment : Fragment) : Fragment :=
  { fragment with
    names := fragment.names.outline ""
    values := fragment.values.outline .blank }

namespace Piece

theorem map_text_outline (pieces : List Piece) :
    (pieces.map outline).map text = pieces.map text := by
  simp [outline]

theorem map_enclosed_outline (pieces : List Piece) :
    (pieces.map outline).map enclosed = pieces.map enclosed := by
  rw [List.map_map]
  rfl

theorem gather_outline (text : List Char) (compound : Bool) (pieces : List Piece) :
    gather text compound (pieces.map outline) = (gather text compound pieces).outline := by
  simp only [gather, outline, Entries.outline_flatMap, List.flatMap_map]

theorem ofGroup?_outline (junction : Junction) (pieces : List Piece) :
    ofGroup? junction (pieces.map outline) = (ofGroup? junction pieces).map outline := by
  cases pieces with
  | nil => rfl
  | cons piece pieces =>
      simp only [ofGroup?, List.isEmpty_map, conjunction, disjunction, map_text_outline,
        map_enclosed_outline, gather_outline]
      rfl

theorem ofDocument?_outline (pieces : List Piece) :
    ofDocument? (pieces.map outline) = (ofDocument? pieces).map outline := by
  rcases pieces with _ | ⟨piece, _ | ⟨next, pieces⟩⟩
  · rfl
  · rfl
  · have gathered := gather_outline (conjunction (piece :: next :: pieces)) true
      (piece :: next :: pieces)
    simp only [ofDocument?, List.map_cons, Option.map_some] at gathered ⊢
    rw [← gathered, conjunction, conjunction, ← List.map_cons, ← List.map_cons, map_text_outline]

end Piece

namespace Test

theorem elementBindings_blank (value : List Char) (position : Nat) (operands : List Value) :
    elementBindings value position (operands.map fun _ => .blank) =
      (elementBindings value position operands).map fun binding => (binding.1, .blank) := by
  induction operands generalizing position with
  | nil => rfl
  | cons operand operands induction =>
      rw [List.map_cons, elementBindings, induction]
      rfl

theorem piece_outline (name : String) (stem : List Char) (number : Nat) (test : Test) :
    test.outline.piece "" stem number = (test.piece name stem number).outline := by
  cases test with
  | compare comparison operand => rfl
  | range upper upperOperand lower lowerOperand => rfl
  | oneOf operands =>
      simp only [outline, piece, elementBindings_blank, Piece.outline, Entries.outline,
        List.map_map, Function.comp_def]
      rfl

end Test

namespace Formula

mutual

/-- The piece of an outline is the outline of the piece, with the same numbers. -/
theorem piece?_outline (stem : List Char) (count : Nat) (formula : Formula) :
    piece? stem count formula.outline =
      ((piece? stem count formula).1.map Piece.outline, (piece? stem count formula).2) := by
  cases formula with
  | leaf name test => simp [outline, piece?, Test.piece_outline name]
  | group junction documents =>
      simp only [outline, piece?, documentPieces_outline _ count documents, Piece.ofGroup?_outline]

theorem pieces_outline (stem : List Char) (count : Nat) (formulas : List Formula) :
    pieces stem count (outlineAll formulas) =
      ((pieces stem count formulas).1.map Piece.outline, (pieces stem count formulas).2) := by
  cases formulas with
  | nil => rfl
  | cons formula formulas =>
      simp only [outlineAll, pieces, piece?_outline stem count formula,
        pieces_outline stem _ formulas, List.map_append, Option.toList_map]

theorem documentPieces_outline (stem : List Char) (count : Nat)
    (documents : List (List Formula)) :
    documentPieces stem count (outlineDocuments documents) =
      ((documentPieces stem count documents).1.map Piece.outline,
        (documentPieces stem count documents).2) := by
  cases documents with
  | nil => rfl
  | cons document documents =>
      simp only [outlineDocuments, documentPieces, pieces_outline stem count document,
        documentPieces_outline stem _ documents, Piece.ofDocument?_outline, List.map_append,
        Option.toList_map]

end

theorem fragment?_outline (stem : List Char) (formulas : List Formula) :
    fragment? stem (outlineAll formulas) = (fragment? stem formulas).map Fragment.outline := by
  rw [fragment?, pieces_outline, fragment?]
  cases (pieces stem 0 formulas).1 with
  | nil => rfl
  | cons piece pieces =>
      simp only [List.map_cons, Option.map_some, Fragment.outline, Entries.outline_flatMap,
        Piece.conjunction, ← Piece.map_text_outline (piece :: pieces)]
      simp only [List.flatMap_cons, List.flatMap_map]
      rfl

end Formula

/-- Fragments with one text and the same placeholders. -/
structure Fragment.Alike (left right : Fragment) : Prop where
  expression : left.expression = right.expression
  names : left.names.names = right.names.names
  values : left.values.names = right.values.names

theorem Fragment.alike_of_outline {left right : Option Fragment}
    (same : left.map outline = right.map outline) : Option.Rel Alike left right := by
  cases left with
  | none =>
      cases right with
      | none => exact .none
      | some right => cases same
  | some left =>
      cases right with
      | none => cases same
      | some right =>
          have outlined : left.outline = right.outline := Option.some.inj same
          have text := congrArg (fun fragment => fragment.expression) outlined
          have names := congrArg (fun fragment => Entries.names fragment.names) outlined
          have values := congrArg (fun fragment => Entries.names fragment.values) outlined
          simp only [outline, Entries.names_outline] at text names values
          exact .some ⟨text, names, values⟩

/-- The filter of an outline is the outline of the filter. -/
theorem Where.filter_outline {schema : Schema} {document : Where} {result : Option Fragment}
    (compiled : document.filter schema = .ok result) :
    document.outline.filter .blank = .ok (result.map Fragment.outline) := by
  obtain ⟨formulas, checked, rfl⟩ := map_eq_ok_iff.mp compiled
  exact map_eq_ok_iff.mpr
    ⟨_, Formula.ofClauses_outline document checked, Formula.fragment?_outline ['f'] formulas⟩

namespace Document

/-- The outline of a `SET` statement, by which of the fields are exact. -/
def setOutline? (exact : List Bool) : Option Fragment :=
  match exact.zipIdx 1 with
  | [] => none
  | numbered => some {
      expression := String.ofList (['S', 'E', 'T', ' '] ++ Piece.join [',', ' ']
        (numbered.map fun (isExact, number) => setClause isExact number))
      names := numbered.map fun (_, number) =>
        (String.ofList (Placeholder.nameChars ['u'] number), "")
      values := numbered.map fun (_, number) =>
        (String.ofList (Placeholder.valueChars ['u'] number), .blank) }

theorem setStatement?_outline (document : Document) (isExact : String → Bool) :
    (document.setStatement? isExact).map Fragment.outline =
      setOutline? (document.names.map isExact) := by
  rw [setStatement?, setOutline?, Entries.names, List.map_map, List.zipIdx_map]
  cases document.zipIdx 1 with
  | nil => rfl
  | cons first others =>
      simp only [Option.map_some, Fragment.outline, Entries.outline, List.map_cons, List.map_map]
      rfl

end Document

/-- The text of a filter and its placeholders follow from the outline of the document, in which
the order of operators does not count.  Those of an upsert statement follow from how many fields
there are and which of them are exact. -/
theorem texts_ignore_names_and_values :
    (∀ (schema otherSchema : Schema) (document other : Where)
      (result otherResult : Option Fragment),
      document.outline.Reorders other.outline → document.filter schema = .ok result →
        other.filter otherSchema = .ok otherResult →
          Option.Rel Fragment.Alike result otherResult) ∧
    ∀ (document other : Document) (exact otherExact : List String),
      document.names.map exact.contains = other.names.map otherExact.contains →
        Option.Rel Fragment.Alike (document.upsertStatement? exact)
          (other.upsertStatement? otherExact) := by
  constructor
  · intro schema otherSchema document other result otherResult reorders compiled compiledOther
    apply Fragment.alike_of_outline
    have outlined :=
      (Where.filter_eq_ok_iff_of_reorders reorders).mp (Where.filter_outline compiled)
    rw [Where.filter_outline compiledOther] at outlined
    exact (Except.ok.inj outlined).symm
  · intro document other exact otherExact same
    apply Fragment.alike_of_outline
    rw [Document.upsertStatement?, Document.upsertStatement?, Document.setStatement?_outline,
      Document.setStatement?_outline, same]

/-- Guests, with names that look like parts of an expression. -/
def guestDeclarations : Declarations :=
  [("#f1 = :f1) OR (a", { type := "number" }), ("AND", { type := "string" })]

/-- Guests of working age or with a certain role. -/
def guestsBetween (name role : String) (bounds : List (Operator × Value)) (test : Condition) :
    Where :=
  [.group .or [[.condition name (.operators bounds)], [.condition role test]],
    .condition role (.operators [(.isIn, .list [.string name, .string role])])]

theorem texts_ignore_names_and_values_of_guests :
    let age : List (Operator × Value) :=
      [(.lt, .number (.ofInt 65)), (.gte, .number (.ofInt 18))]
    let nights : List (Operator × Value) :=
      [(.gte, .number (.ofInt 1)), (.lt, .number (.ofInt 8))]
    let plain := guestsBetween "nights" "arrival" nights (.operators [(.eq, .bool true)])
    let hostile := guestsBetween "#f1 = :f1) OR (a" "AND" age (.bare (.string ":fo1l)"))
    let stays : Declarations :=
      [("nights", { type := "number" }), ("arrival", { type := "string" })]
    ∃ schema otherSchema fragment otherFragment,
      Schema.ofDeclarations guestDeclarations = .ok schema ∧
      Schema.ofDeclarations stays = .ok otherSchema ∧
      hostile.outline.Reorders plain.outline ∧
      hostile.filter schema = .ok (some fragment) ∧
      plain.filter otherSchema = .ok (some otherFragment) ∧
      otherFragment.expression =
        "((#fo1 < :fo1l AND #fo1 >= :fo1r) OR #fo2 = :fo2) AND #f3 IN (:f3l0, :f3l1)" ∧
      fragment.Alike otherFragment ∧
      Option.Rel Fragment.Alike
        (Document.upsertStatement? [("b", .null), ("if_not_exists", .null)] ["b"])
        (Document.upsertStatement? [("#u1", .bool true), ("x", .string "y")] ["#u1", "y"]) := by
  intro age nights plain hostile stays
  have alike : hostile.outline.Reorders plain.outline := by
    refine .cons (.group (.cons (.cons (.condition (.operators ?_)) .nil) ?_)) ?_
    · exact List.Perm.swap _ _ []
    · exact Clause.Reorders.reflDocuments _
    · exact Where.Reorders.refl _
  have compiled : ∃ schema otherSchema fragment otherFragment,
      Schema.ofDeclarations guestDeclarations = .ok schema ∧
      Schema.ofDeclarations stays = .ok otherSchema ∧
      hostile.filter schema = .ok (some fragment) ∧
      plain.filter otherSchema = .ok (some otherFragment) ∧
      otherFragment.expression =
        "((#fo1 < :fo1l AND #fo1 >= :fo1r) OR #fo2 = :fo2) AND #f3 IN (:f3l0, :f3l1)" :=
    ⟨_, _, _, _, rfl, rfl, rfl, rfl, rfl⟩
  obtain ⟨schema, otherSchema, fragment, otherFragment, normalized, otherNormalized, filtered,
    otherFiltered, text⟩ := compiled
  obtain ⟨filters, statements⟩ := texts_ignore_names_and_values
  refine ⟨schema, otherSchema, fragment, otherFragment, normalized, otherNormalized, alike,
    filtered, otherFiltered, text, ?_, statements _ _ _ _ (by decide)⟩
  cases filters _ _ hostile plain _ _ alike filtered otherFiltered with
  | some same => exact same

end ItemTable
