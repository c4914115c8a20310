import Mathlib.Data.List.Forall2
import ItemTable.Proofs.Expression.Numbering
import ItemTable.Proofs.Where.Compiled

/-!
# Meaning of condition texts

The text of a formula writes an expression that is read back from it, over just
the placeholders that the text binds, and the value of the expression is the
reading of the formula.  Every piece writes a conjunction, so pieces can be put
into a conjunction, a disjunction or parentheses.

What a piece says does not change when its bindings are part of larger ones.
-/

namespace ItemTable

namespace Atom

variable {β : Type}

def name : Atom β → String
  | compare name _ _ => name
  | oneOf name _ => name
  | call _ name => name

def operands : Atom β → List β
  | compare _ _ operand => [operand]
  | oneOf _ operands => operands
  | call _ _ => []

/-- Placeholders of bound values stand for these values. -/
theorem operands?_names {values larger : Entries Value} (extended : larger.Extends values) :
    operands? larger values.names = some (values.map Prod.snd) := by
  induction values with
  | nil => rfl
  | cons entry values induction =>
      have found : larger.get? entry.1 = some entry.2 := extended _ _ (by simp)
      have rest : larger.Extends values := fun name value member =>
        extended name value (List.mem_cons_of_mem entry member)
      have induced := induction rest
      rw [Entries.names] at induced ⊢
      rw [List.map_cons, operands?, found, induced]
      rfl

end Atom

namespace Expression

variable {α : Type}

/-- The tests of an expression, in the order they occur. -/
def atoms : Expression α → List α
  | test atom => [atom]
  | enclosed inner => inner.atoms
  | not inner => inner.atoms
  | and left right => left.atoms ++ right.atoms
  | or left right => left.atoms ++ right.atoms

/-- The placeholders of names, in the order they occur. -/
def names (expression : Expression (Atom String)) : List String :=
  expression.atoms.map Atom.name

/-- The placeholders of values, in the order they occur. -/
def values (expression : Expression (Atom String)) : List String :=
  expression.atoms.flatMap Atom.operands

/-- The value of an expression, if all its placeholders stand for something. -/
def value? (names : Entries String) (values : Entries Value) (assignment : Atom Value → Bool)
    (expression : Expression (Atom String)) : Option Bool :=
  (expression.resolve? (Atom.resolve? names values)).map (holds assignment)

section Value

variable (names : Entries String) (values : Entries Value) (assignment : Atom Value → Bool)

theorem value?_enclosed (inner : Expression (Atom String)) :
    (enclosed inner).value? names values assignment = inner.value? names values assignment := by
  rw [value?, value?, resolve?]
  cases inner.resolve? (Atom.resolve? names values) <;> rfl

theorem value?_not (inner : Expression (Atom String)) :
    (not inner).value? names values assignment =
      (inner.value? names values assignment).map (!·) := by
  rw [value?, value?, resolve?]
  cases inner.resolve? (Atom.resolve? names values) <;> rfl

theorem value?_and (left right : Expression (Atom String)) :
    (and left right).value? names values assignment =
      (left.value? names values assignment).bind fun leftValue =>
        (right.value? names values assignment).map (leftValue && ·) := by
  rw [value?, value?, value?, resolve?]
  cases left.resolve? (Atom.resolve? names values) <;>
    cases right.resolve? (Atom.resolve? names values) <;> rfl

theorem value?_or (left right : Expression (Atom String)) :
    (or left right).value? names values assignment =
      (left.value? names values assignment).bind fun leftValue =>
        (right.value? names values assignment).map (leftValue || ·) := by
  rw [value?, value?, value?, resolve?]
  cases left.resolve? (Atom.resolve? names values) <;>
    cases right.resolve? (Atom.resolve? names values) <;> rfl

end Value

/-- What is read the same under every assignment is one expression. -/
theorem exists_forall_holds {β : Type} {written : Option (Expression β)}
    {reading : (β → Bool) → Bool}
    (meaning : ∀ assignment, ∃ expression, written = some expression ∧
      expression.holds assignment = reading assignment) :
    ∃ expression, written = some expression ∧
      ∀ assignment, expression.holds assignment = reading assignment := by
  obtain ⟨expression, same, -⟩ := meaning fun _ => true
  refine ⟨expression, same, ?_⟩
  intro assignment
  obtain ⟨other, sameOther, holds⟩ := meaning assignment
  rw [same] at sameOther
  cases sameOther
  exact holds

/-- The conjunction that the texts of two conjunctions write, one after the other. -/
def conjoin : Expression α → Expression α → Expression α
  | and left middle, right => and left (middle.conjoin right)
  | left, right => and left right

theorem conjoin_isConjunction {left right : Expression α} (leftLevel : IsConjunction left)
    (rightLevel : IsConjunction right) : IsConjunction (left.conjoin right) := by
  induction left with
  | and first middle _ induction =>
      cases leftLevel with
      | single negated =>
          cases negated with
          | primary primary => cases primary
      | and firstLevel middleLevel => exact .and firstLevel (induction middleLevel)
  | test atom => exact .and (.primary (.test atom)) rightLevel
  | enclosed inner _ =>
      cases leftLevel with
      | single negated => exact .and negated rightLevel
  | not inner _ =>
      cases leftLevel with
      | single negated => exact .and negated rightLevel
  | or first second _ _ =>
      cases leftLevel with
      | single negated => exact .and negated rightLevel

theorem conjoin_atoms (left right : Expression α) :
    (left.conjoin right).atoms = left.atoms ++ right.atoms := by
  induction left with
  | and first middle _ induction => simp [conjoin, atoms, induction]
  | _ => rfl

theorem conjoin_all {property : α → Prop} {left right : Expression α} :
    (left.conjoin right).All property ↔ left.All property ∧ right.All property := by
  induction left with
  | and first middle _ induction => simp [conjoin, All, induction, and_assoc]
  | _ => exact Iff.rfl

theorem conjoin_text (left right : Expression (Atom String)) :
    (left.conjoin right).text = left.text ++ Piece.andSeparator ++ right.text := by
  induction left with
  | and first middle _ induction => simp [conjoin, text, induction]
  | _ => rfl

theorem conjoin_value? (names : Entries String) (values : Entries Value)
    (assignment : Atom Value → Bool) (left right : Expression (Atom String)) :
    (left.conjoin right).value? names values assignment =
      (left.value? names values assignment).bind fun leftValue =>
        (right.value? names values assignment).map (leftValue && ·) := by
  induction left with
  | and first middle _ induction =>
      rw [conjoin, value?_and, value?_and, induction]
      cases first.value? names values assignment <;>
        cases middle.value? names values assignment <;>
          cases right.value? names values assignment <;> simp [Bool.and_assoc]
  | _ => exact value?_and names values assignment _ right

/-- The expression has the text, its placeholders are those that are bound, and it has
the value wherever they stand for what they are bound to. -/
structure Writes (expression : Expression (Atom String)) (assignment : Atom Value → Bool)
    (text : List Char) (names : Entries String) (values : Entries Value) (reading : Bool) :
    Prop where
  text_eq : expression.text = text
  written : expression.All Atom.IsWritten
  names_iff : ∀ placeholder, placeholder ∈ expression.names ↔ placeholder ∈ names.names
  values_iff : ∀ placeholder, placeholder ∈ expression.values ↔ placeholder ∈ values.names
  value?_eq : ∀ boundNames boundValues, Entries.Extends boundNames names →
    Entries.Extends boundValues values →
      expression.value? boundNames boundValues assignment = some reading

namespace Writes

variable {assignment : Atom Value → Bool} {left right inner : Expression (Atom String)}
variable {leftText rightText text : List Char}
variable {leftNames rightNames names : Entries String}
variable {leftValues rightValues values : Entries Value}
variable {leftReading rightReading reading : Bool}

theorem enclosed (writes : inner.Writes assignment text names values reading) :
    (Expression.enclosed inner).Writes assignment ('(' :: text ++ [')']) names values
      reading where
  text_eq := by rw [Expression.text, writes.text_eq]
  written := writes.written
  names_iff := writes.names_iff
  values_iff := writes.values_iff
  value?_eq := by
    intro boundNames boundValues namesExtend valuesExtend
    rw [value?_enclosed]
    exact writes.value?_eq boundNames boundValues namesExtend valuesExtend

theorem not (writes : inner.Writes assignment text names values reading) :
    (Expression.not inner).Writes assignment (['N', 'O', 'T', ' '] ++ text) names values
      (!reading) where
  text_eq := by rw [Expression.text, writes.text_eq]
  written := writes.written
  names_iff := writes.names_iff
  values_iff := writes.values_iff
  value?_eq := by
    intro boundNames boundValues namesExtend valuesExtend
    rw [value?_not, writes.value?_eq boundNames boundValues namesExtend valuesExtend]
    rfl

/-- Two expressions one after the other, with their bindings one after the other. -/
private theorem join {whole : Expression (Atom String)} {separator : List Char}
    {combine : Bool → Bool → Bool}
    (leftWrites : left.Writes assignment leftText leftNames leftValues leftReading)
    (rightWrites : right.Writes assignment rightText rightNames rightValues rightReading)
    (text_eq : whole.text = left.text ++ separator ++ right.text)
    (all : whole.All Atom.IsWritten ↔ left.All Atom.IsWritten ∧ right.All Atom.IsWritten)
    (atoms_eq : whole.atoms = left.atoms ++ right.atoms)
    (value?_eq : ∀ names values, whole.value? names values assignment =
      (left.value? names values assignment).bind fun leftValue =>
        (right.value? names values assignment).map (combine leftValue)) :
    whole.Writes assignment (leftText ++ separator ++ rightText) (leftNames ++ rightNames)
      (leftValues ++ rightValues) (combine leftReading rightReading) where
  text_eq := by rw [text_eq, leftWrites.text_eq, rightWrites.text_eq]
  written := all.mpr ⟨leftWrites.written, rightWrites.written⟩
  names_iff := by
    intro placeholder
    have inLeft := leftWrites.names_iff placeholder
    have inRight := rightWrites.names_iff placeholder
    simp only [Expression.names, Entries.names, atoms_eq, List.map_append, List.mem_append]
      at inLeft inRight ⊢
    rw [inLeft, inRight]
  values_iff := by
    intro placeholder
    have inLeft := leftWrites.values_iff placeholder
    have inRight := rightWrites.values_iff placeholder
    simp only [Expression.values, Entries.names, atoms_eq, List.map_append, List.flatMap_append,
      List.mem_append] at inLeft inRight ⊢
    rw [inLeft, inRight]
  value?_eq := by
    intro boundNames boundValues namesExtend valuesExtend
    rw [value?_eq,
      leftWrites.value?_eq boundNames boundValues namesExtend.left valuesExtend.left,
      rightWrites.value?_eq boundNames boundValues namesExtend.right valuesExtend.right]
    rfl

theorem conjoin (leftWrites : left.Writes assignment leftText leftNames leftValues leftReading)
    (rightWrites : right.Writes assignment rightText rightNames rightValues rightReading) :
    (left.conjoin right).Writes assignment (leftText ++ Piece.andSeparator ++ rightText)
      (leftNames ++ rightNames) (leftValues ++ rightValues) (leftReading && rightReading) :=
  leftWrites.join rightWrites (conjoin_text left right) conjoin_all (conjoin_atoms left right)
    fun names values => conjoin_value? names values assignment left right

theorem or (leftWrites : left.Writes assignment leftText leftNames leftValues leftReading)
    (rightWrites : right.Writes assignment rightText rightNames rightValues rightReading) :
    (Expression.or left right).Writes assignment (leftText ++ Piece.orSeparator ++ rightText)
      (leftNames ++ rightNames) (leftValues ++ rightValues) (leftReading || rightReading) :=
  leftWrites.join rightWrites rfl Iff.rfl rfl
    fun names values => value?_or names values assignment left right

/-- Only what is bound matters, and not how often. -/
theorem rebind (others : Entries String) (same : ∀ entry, entry ∈ names ↔ entry ∈ others)
    (writes : inner.Writes assignment text names values reading) :
    inner.Writes assignment text others values reading where
  text_eq := writes.text_eq
  written := writes.written
  names_iff := by
    intro placeholder
    rw [writes.names_iff]
    simp only [Entries.names, List.mem_map, same]
  values_iff := writes.values_iff
  value?_eq := by
    intro boundNames boundValues namesExtend valuesExtend
    refine writes.value?_eq boundNames boundValues ?_ valuesExtend
    intro name value member
    exact namesExtend name value ((same _).mp member)

theorem compare (assignment : Atom Value → Bool) (attributeName : String) (value : Value)
    {name operand : String} (nameWritten : IsPlaceholder '#' name)
    (operandWritten : IsPlaceholder ':' operand) (comparison : Comparison) :
    (Expression.test (.compare name comparison operand)).Writes assignment
      (Test.compareText name.toList comparison operand.toList) [(name, attributeName)]
      [(operand, value)] (assignment (.compare attributeName comparison value)) where
  text_eq := rfl
  written := ⟨nameWritten, operandWritten⟩
  names_iff := fun placeholder => Iff.rfl
  values_iff := fun placeholder => Iff.rfl
  value?_eq := by
    intro boundNames boundValues namesExtend valuesExtend
    have nameFound : boundNames.get? name = some attributeName := namesExtend _ _ (by simp)
    have valueFound : boundValues.get? operand = some value := valuesExtend _ _ (by simp)
    simp [value?, resolve?, Atom.resolve?, nameFound, valueFound, holds]

theorem oneOf (assignment : Atom Value → Bool) (attributeName : String) {name : String}
    (nameWritten : IsPlaceholder '#' name) (nonempty : values ≠ [])
    (operandsWritten : ∀ operand ∈ values.names, IsPlaceholder ':' operand) :
    (Expression.test (.oneOf name values.names)).Writes assignment
      (name.toList ++ [' ', 'I', 'N', ' ', '('] ++
        Piece.join [',', ' '] (values.names.map String.toList) ++ [')'])
      [(name, attributeName)] values
      (assignment (.oneOf attributeName (values.map Prod.snd))) where
  text_eq := rfl
  written := ⟨nameWritten, by simpa [Entries.names] using nonempty, operandsWritten⟩
  names_iff := fun placeholder => Iff.rfl
  values_iff := by simp [Expression.values, atoms, Atom.operands]
  value?_eq := by
    intro boundNames boundValues namesExtend valuesExtend
    have nameFound : boundNames.get? name = some attributeName := namesExtend _ _ (by simp)
    have valuesFound := Atom.operands?_names valuesExtend
    simp [value?, resolve?, Atom.resolve?, nameFound, valuesFound, holds]

theorem call (assignment : Atom Value → Bool) (attributeName : String) {function name : String}
    (nonempty : function.toList ≠ [])
    (placed : ∀ c ∈ function.toList, Token.isFunctionChar c = true)
    (nameWritten : IsPlaceholder '#' name) :
    (Expression.test (.call function name)).Writes assignment
      (function.toList ++ '(' :: name.toList ++ [')']) [(name, attributeName)] []
      (assignment (.call function attributeName)) where
  text_eq := rfl
  written := ⟨⟨nonempty, placed⟩, nameWritten⟩
  names_iff := fun placeholder => Iff.rfl
  values_iff := fun placeholder => Iff.rfl
  value?_eq := by
    intro boundNames boundValues namesExtend valuesExtend
    have nameFound : boundNames.get? name = some attributeName := namesExtend _ _ (by simp)
    simp [value?, resolve?, Atom.resolve?, nameFound, holds]

end Writes

end Expression

/-! ## Pieces -/

namespace Piece

/-- A piece writes a conjunction with the given value. -/
def Means (assignment : Atom Value → Bool) (piece : Piece) (reading : Bool) : Prop :=
  ∃ expression : Expression (Atom String), expression.IsConjunction ∧
    expression.Writes assignment piece.text piece.names piece.values reading

variable {assignment : Atom Value → Bool} {pieces : List Piece} {readings : List Bool}

theorem Means.enclosed {piece : Piece} {reading : Bool} (means : piece.Means assignment reading) :
    ∃ expression : Expression (Atom String), expression.IsConjunction ∧
      expression.Writes assignment piece.enclosed piece.names piece.values reading := by
  obtain ⟨expression, level, writes⟩ := means
  rw [Piece.enclosed]
  split
  · exact ⟨.enclosed expression, .single (.primary (.enclosed (.single level))), writes.enclosed⟩
  · exact ⟨expression, level, writes⟩

/-- Pieces in a conjunction say what all of them say. -/
theorem conjunction_means (nonempty : pieces ≠ [])
    (means : List.Forall₂ (Means assignment) pieces readings) :
    ∃ expression : Expression (Atom String), expression.IsConjunction ∧
      expression.Writes assignment (conjunction pieces) (pieces.flatMap Piece.names)
        (pieces.flatMap Piece.values) (readings.all id) := by
  induction means with
  | nil => exact absurd rfl nonempty
  | cons head tail induction =>
      obtain ⟨first, firstLevel, firstWrites⟩ := head
      cases tail with
      | nil => exact ⟨first, firstLevel, by simpa [conjunction, join] using firstWrites⟩
      | cons next others =>
          obtain ⟨rest, restLevel, restWrites⟩ := induction (by simp)
          exact ⟨first.conjoin rest, Expression.conjoin_isConjunction firstLevel restLevel,
            firstWrites.conjoin restWrites⟩

/-- Pieces in a disjunction say what one of them says. -/
theorem disjunction_means (nonempty : pieces ≠ [])
    (means : List.Forall₂ (Means assignment) pieces readings) :
    ∃ expression : Expression (Atom String), expression.IsDisjunction ∧
      expression.Writes assignment (disjunction pieces) (pieces.flatMap Piece.names)
        (pieces.flatMap Piece.values) (readings.any id) := by
  induction means with
  | nil => exact absurd rfl nonempty
  | cons head tail induction =>
      obtain ⟨first, firstLevel, firstWrites⟩ := head.enclosed
      cases tail with
      | nil => exact ⟨first, .single firstLevel, by simpa [disjunction, join] using firstWrites⟩
      | cons next others =>
          obtain ⟨rest, restLevel, restWrites⟩ := induction (by simp)
          exact ⟨.or first rest, .or firstLevel restLevel, firstWrites.or restWrites⟩

/-- A group says what its documents say together. -/
theorem ofGroup?_means (junction : Junction)
    (means : List.Forall₂ (Means assignment) pieces readings) :
    Option.Rel (Means assignment) (ofGroup? junction pieces) (junction.combine? readings) := by
  cases means with
  | nil => cases junction <;> exact .none
  | cons head tail =>
      have whole := List.Forall₂.cons head tail
      obtain ⟨all, allLevel, allWrites⟩ := conjunction_means (by simp) whole
      cases junction with
      | and =>
          exact .some ⟨.enclosed all, .single (.primary (.enclosed (.single allLevel))),
            allWrites.enclosed⟩
      | or =>
          obtain ⟨any, anyLevel, anyWrites⟩ := disjunction_means (by simp) whole
          exact .some ⟨.enclosed any, .single (.primary (.enclosed anyLevel)),
            anyWrites.enclosed⟩
      | not =>
          exact .some ⟨.not (.enclosed all),
            .single (.not (.primary (.enclosed (.single allLevel)))), allWrites.enclosed.not⟩

/-- A document in a group says what all its clauses say. -/
theorem ofDocument?_means (means : List.Forall₂ (Means assignment) pieces readings) :
    Option.Rel (Means assignment) (ofDocument? pieces) (Junction.and.combine? readings) := by
  cases means with
  | nil => exact .none
  | cons head tail =>
      cases tail with
      | nil => exact .some (by simpa using head)
      | cons next others => exact .some (conjunction_means (by simp) (.cons head (.cons next others)))

end Piece

namespace Test

/-- Membership is tested in a list that is not empty. -/
def IsProper : Test → Prop
  | .oneOf operands => operands ≠ []
  | _ => True

variable {initial : Char} {stem : List Char}

theorem elementBindings_snd (value : List Char) (position : Nat) (operands : List Value) :
    (elementBindings value position operands).map Prod.snd = operands := by
  induction operands generalizing position with
  | nil => rfl
  | cons operand operands induction => rw [elementBindings, List.map_cons, induction]

/-- The piece of a leaf says whether its test holds. -/
theorem piece_means (stemmed : Placeholder.IsStem (initial :: stem)) (attributeName : String)
    (count : Nat) {test : Test} (proper : test.IsProper) (assignment : Atom Value → Bool) :
    (test.piece attributeName (initial :: stem) (count + 1)).Means assignment
      (test.reading assignment attributeName) := by
  have numbered := piece_numbered stemmed attributeName count test
  have nameWritten : IsPlaceholder '#'
      (String.ofList (Placeholder.nameChars (initial :: stem) (count + 1))) := by
    refine (numbered.namesNumbered _ ?_).isPlaceholder
    cases test <;> simp [piece, Entries.names]
  have valueWritten : ∀ placeholder ∈
      (test.piece attributeName (initial :: stem) (count + 1)).values.names,
      IsPlaceholder ':' placeholder :=
    fun placeholder member => (numbered.valuesNumbered placeholder member).isPlaceholder
  cases test with
  | compare comparison operand =>
      have writes := Expression.Writes.compare assignment attributeName operand nameWritten
        (valueWritten _ (List.mem_cons_self ..)) comparison
      simp only [String.toList_ofList] at writes
      exact ⟨_, .single (.primary (.test _)), writes⟩
  | range upper upperOperand lower lowerOperand =>
      have first := Expression.Writes.compare assignment attributeName upperOperand nameWritten
        (valueWritten _ (List.mem_cons_self ..)) upper
      have second := Expression.Writes.compare assignment attributeName lowerOperand nameWritten
        (valueWritten _ (List.mem_cons_of_mem _ (List.mem_cons_self ..))) lower
      have both := (first.conjoin second).rebind
        [(String.ofList (Placeholder.nameChars (initial :: stem) (count + 1)), attributeName)]
        (by simp)
      simp only [String.toList_ofList] at both
      exact ⟨_, .and (.primary (.test _)) (.single (.primary (.test _))), both⟩
  | oneOf operands =>
      let values := ((Test.oneOf operands).piece attributeName (initial :: stem) (count + 1)).values
      have operandsEqual : values.map Prod.snd = operands := by
        rw [← elementBindings_snd (Placeholder.valueChars (initial :: stem) (count + 1)) 0 operands]
        simp [values, piece]
      have nonempty : values ≠ [] := by
        intro empty
        rw [empty] at operandsEqual
        exact proper operandsEqual.symm
      have member := Expression.Writes.oneOf assignment attributeName nameWritten nonempty
        valueWritten
      rw [operandsEqual] at member
      have texts : values.names.map String.toList =
          (elementBindings (Placeholder.valueChars (initial :: stem) (count + 1)) 0 operands).map
            Prod.fst := by
        simp [values, piece, Entries.names, Function.comp_def]
      rw [texts, String.toList_ofList] at member
      exact ⟨_, .single (.primary (.test _)), member⟩

end Test

namespace Formula

mutual

/-- Every membership in a formula is tested in a list that is not empty. -/
def IsProper : Formula → Prop
  | .leaf _ test => test.IsProper
  | .group _ documents => DocumentsProper documents

def AllProper : List Formula → Prop
  | [] => True
  | formula :: rest => formula.IsProper ∧ AllProper rest

def DocumentsProper : List (List Formula) → Prop
  | [] => True
  | document :: rest => AllProper document ∧ DocumentsProper rest

end

variable {initial : Char} {assignment : Atom Value → Bool}

theorem forall₂_append_toList {α β : Type} {relation : α → β → Prop} {first : Option α}
    {second : Option β} {lefts : List α} {rights : List β} (head : Option.Rel relation first second)
    (tail : List.Forall₂ relation lefts rights) :
    List.Forall₂ relation (first.toList ++ lefts) (second.toList ++ rights) := by
  cases head with
  | none => exact tail
  | some related => exact .cons related tail

mutual

/-- The piece of a formula has the reading of the formula. -/
theorem piece?_means {stem : List Char} (stemmed : Placeholder.IsStem (initial :: stem))
    (count : Nat) (formula : Formula) (proper : formula.IsProper) :
    Option.Rel (Piece.Means assignment) (piece? (initial :: stem) count formula).1
      (formula.reading? assignment) := by
  cases formula with
  | leaf name test => exact .some (Test.piece_means stemmed name count proper assignment)
  | group junction documents =>
      exact Piece.ofGroup?_means junction
        (documentPieces_means (isStem_append_letter stemmed junction) count documents proper)

theorem pieces_means {stem : List Char} (stemmed : Placeholder.IsStem (initial :: stem))
    (count : Nat) (formulas : List Formula) (proper : AllProper formulas) :
    List.Forall₂ (Piece.Means assignment) (pieces (initial :: stem) count formulas).1
      (readings assignment formulas) := by
  cases formulas with
  | nil => exact .nil
  | cons formula formulas =>
      exact forall₂_append_toList (piece?_means stemmed count formula proper.1)
        (pieces_means stemmed _ formulas proper.2)

theorem documentPieces_means {stem : List Char}
    (stemmed : Placeholder.IsStem (initial :: stem)) (count : Nat)
    (documents : List (List Formula)) (proper : DocumentsProper documents) :
    List.Forall₂ (Piece.Means assignment) (documentPieces (initial :: stem) count documents).1
      (documentReadings assignment documents) := by
  cases documents with
  | nil => exact .nil
  | cons document documents =>
      exact forall₂_append_toList
        (Piece.ofDocument?_means (pieces_means stemmed count document proper.1))
        (documentPieces_means stemmed _ documents proper.2)

end

end Formula

/-! ## Fragments -/

namespace Fragment

/-- A fragment writes a conjunction with the given value. -/
def Means (assignment : Atom Value → Bool) (fragment : Fragment) (reading : Bool) : Prop :=
  ∃ expression : Expression (Atom String), expression.IsConjunction ∧
    expression.Writes assignment fragment.expression.toList fragment.names fragment.values reading

/-- The condition of a fragment that binds every placeholder once. -/
theorem Means.condition? {assignment : Atom Value → Bool} {fragment : Fragment} {reading : Bool}
    (means : fragment.Means assignment reading) (distinctNames : fragment.names.names.Nodup)
    (distinctValues : fragment.values.names.Nodup) :
    ∃ resolved, fragment.condition? = some resolved ∧ resolved.holds assignment = reading := by
  obtain ⟨expression, level, writes⟩ := means
  have parsed : Expression.parse? fragment.expression.toList = some expression := by
    rw [← writes.text_eq]
    exact (Expression.IsDisjunction.single level).parse?_text writes.written
  have value := writes.value?_eq fragment.names fragment.values (.refl distinctNames)
    (.refl distinctValues)
  rw [Expression.value?, Option.map_eq_some_iff] at value
  obtain ⟨resolved, resolves, holds⟩ := value
  exact ⟨resolved, by rw [Fragment.condition?, parsed, Option.bind_some, resolves], holds⟩

end Fragment

namespace Formula

variable {initial : Char} {stem : List Char}

/-- The fragment of formulas binds numbered placeholders. -/
theorem fragment?_numbered (stemmed : Placeholder.IsStem (initial :: stem))
    {formulas : List Formula} {fragment : Fragment}
    (printed : fragment? (initial :: stem) formulas = some fragment) :
    ∃ high, Numbered initial 0 high fragment.names fragment.values := by
  have numbered := pieces_numbered stemmed 0 formulas
  rw [fragment?] at printed
  split at printed
  · cases printed
  · cases printed
    exact ⟨_, numbered⟩

/-- The fragment of formulas says what all of them say. -/
theorem fragment?_means (stemmed : Placeholder.IsStem (initial :: stem)) {formulas : List Formula}
    (proper : AllProper formulas) (assignment : Atom Value → Bool) :
    Option.Rel (Fragment.Means assignment) (fragment? (initial :: stem) formulas)
      (Junction.and.combine? (readings assignment formulas)) := by
  have means : List.Forall₂ (Piece.Means assignment) (pieces (initial :: stem) 0 formulas).1
      (readings assignment formulas) := pieces_means stemmed 0 formulas proper
  rw [fragment?]
  split
  · next empty =>
      rw [empty] at means
      rw [List.forall₂_nil_left_iff.mp means]
      exact .none
  · next some =>
      obtain ⟨expression, level, writes⟩ := Piece.conjunction_means some means
      cases read : readings assignment formulas with
      | nil =>
          rw [read] at means
          exact absurd (List.forall₂_nil_right_iff.mp means) some
      | cons reading others =>
          rw [read] at writes
          exact .some ⟨expression, level, by simpa using writes⟩

end Formula

end ItemTable
