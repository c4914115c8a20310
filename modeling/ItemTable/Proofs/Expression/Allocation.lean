import ItemTable.Proofs.Request.Fragments

/-!
# Placeholders taken one at a time

The compilers number the leaves of a whole formula and collect the bindings of its pieces.
`Placeholders` gets along without looking ahead: it takes the placeholders of one attribute,
binds the name and the values, and goes on to the next attribute.  Both give the same
fragments.  A binding is kept where its placeholder is bound already, so this needs that no
placeholder is taken twice.
-/

namespace ItemTable

namespace Placeholder

/-- What the name placeholder of a number is bound to. -/
def nameBindings (stem : List Char) (number : Nat) (name : String) : Entries String :=
  [(String.ofList (nameChars stem number), name)]

/-- What the value placeholders of a number are bound to.  Each value comes with what is written
behind the number. -/
def valueBindings (stem : List Char) (number : Nat) (values : List (List Char × Value)) :
    Entries Value :=
  values.map fun value => (String.ofList (valueChars stem number ++ value.1), value.2)

end Placeholder

namespace Placeholders

open Placeholder (nameBindings valueBindings)

/-- Takes the next placeholders for the name of an attribute and for its values. -/
def take (placeholders : Placeholders) (stem : List Char) (name : String)
    (values : List (List Char × Value)) : Placeholders :=
  let ((forName, forValue), placeholders) := placeholders.allocate (String.ofList stem)
  values.foldl
    (fun placeholders value =>
      placeholders.bindValue (forValue ++ String.ofList value.1) value.2)
    (placeholders.bindName forName name)

/-- The placeholders after others have been taken, up to a number. -/
def upTo (placeholders : Placeholders) (count : Nat) (names : Entries String)
    (values : Entries Value) : Placeholders :=
  { count, names := placeholders.names ++ names, values := placeholders.values ++ values }

/-- Every placeholder is bound once, and its number has been given out. -/
def AreTaken (initial : Char) (placeholders : Placeholders) : Prop :=
  Numbered initial 0 placeholders.count placeholders.names placeholders.values

variable {initial : Char} {placeholders : Placeholders}

theorem empty_areTaken : AreTaken initial empty :=
  Numbered.empty 0

theorem AreTaken.upTo {count : Nat} {names : Entries String} {values : Entries Value}
    (taken : placeholders.AreTaken initial)
    (next : Numbered initial placeholders.count count names values) :
    (placeholders.upTo count names values).AreTaken initial :=
  taken.append next

theorem upTo_nil : placeholders.upTo placeholders.count [] [] = placeholders := by
  simp [upTo]

theorem upTo_upTo (count next : Nat) (names nextNames : Entries String)
    (values nextValues : Entries Value) :
    (placeholders.upTo count names values).upTo next nextNames nextValues =
      placeholders.upTo next (names ++ nextNames) (values ++ nextValues) := by
  simp [upTo]

theorem foldl_bindValue {α : Type} (placeholder : α → String) (value : α → Value)
    (bound : List α) :
    bound.foldl (fun placeholders one => placeholders.bindValue (placeholder one) (value one))
        placeholders =
      { placeholders with
        values := placeholders.values.bindAll
          (bound.map fun one => (placeholder one, value one)) } := by
  induction bound generalizing placeholders with
  | nil => rfl
  | cons one bound induction =>
      rw [List.foldl_cons, induction]
      rfl

/-- The bindings that the next placeholders get are added behind, when they are new. -/
theorem take_eq {stem : List Char} {name : String} {values : List (List Char × Value)}
    (taken : placeholders.AreTaken initial)
    (next : Numbered initial placeholders.count (placeholders.count + 1)
      (nameBindings stem (placeholders.count + 1) name)
      (valueBindings stem (placeholders.count + 1) values)) :
    placeholders.take stem name values =
      placeholders.upTo (placeholders.count + 1)
        (nameBindings stem (placeholders.count + 1) name)
        (valueBindings stem (placeholders.count + 1) values) := by
  have both := taken.append next
  have namesBound := Entries.bindAll_of_nodup both.distinctNames
  have valuesBound := Entries.bindAll_of_nodup both.distinctValues
  simp only [take, allocate, String.toList_ofList, ← String.ofList_append]
  rw [foldl_bindValue, upTo, ← namesBound, ← valuesBound]
  rfl

end Placeholders

/-! ## Conditions -/

namespace Test

/-- The values of a test, each with what is written behind the number of its placeholder. -/
def suffixed : Test → List (List Char × Value)
  | compare _ operand => [([], operand)]
  | range _ upperOperand _ lowerOperand => [(['l'], upperOperand), (['r'], lowerOperand)]
  | oneOf operands => elementBindings [] 0 operands

theorem elementBindings_eq_map (value : List Char) (position : Nat) (operands : List Value) :
    elementBindings value position operands =
      (elementBindings [] position operands).map fun element =>
        (value ++ element.1, element.2) := by
  induction operands generalizing position with
  | nil => rfl
  | cons operand operands induction =>
      rw [elementBindings, induction]
      rfl

theorem piece_names (attributeName : String) (stem : List Char) (number : Nat) (test : Test) :
    (test.piece attributeName stem number).names =
      Placeholder.nameBindings stem number attributeName := by
  cases test <;> rfl

theorem piece_values (attributeName : String) (stem : List Char) (number : Nat) (test : Test) :
    (test.piece attributeName stem number).values =
      Placeholder.valueBindings stem number test.suffixed := by
  cases test with
  | compare comparison operand => simp [piece, suffixed, Placeholder.valueBindings]
  | range upper upperOperand lower lowerOperand => rfl
  | oneOf operands =>
      simp only [piece, suffixed, Placeholder.valueBindings]
      rw [elementBindings_eq_map (Placeholder.valueChars stem number), List.map_map]
      rfl

end Test

namespace Formula

mutual

/-- Takes the placeholders of a formula. -/
def take (stem : List Char) (placeholders : Placeholders) : Formula → Placeholders
  | leaf name test => placeholders.take stem name test.suffixed
  | group junction documents => takeDocuments (stem ++ [junction.letter]) placeholders documents

/-- Takes the placeholders of formulas in order. -/
def takeAll (stem : List Char) (placeholders : Placeholders) : List Formula → Placeholders
  | [] => placeholders
  | formula :: rest => takeAll stem (take stem placeholders formula) rest

/-- Takes the placeholders of grouped documents in order. -/
def takeDocuments (stem : List Char) (placeholders : Placeholders) :
    List (List Formula) → Placeholders
  | [] => placeholders
  | document :: rest => takeDocuments stem (takeAll stem placeholders document) rest

end

variable {initial : Char}

mutual

/-- A formula takes the placeholders of its piece. -/
theorem take_eq {stem : List Char} (stemmed : Placeholder.IsStem (initial :: stem))
    {placeholders : Placeholders} (taken : placeholders.AreTaken initial) (formula : Formula) :
    take (initial :: stem) placeholders formula =
      placeholders.upTo (piece? (initial :: stem) placeholders.count formula).2
        ((piece? (initial :: stem) placeholders.count formula).1.toList.flatMap Piece.names)
        ((piece? (initial :: stem) placeholders.count formula).1.toList.flatMap Piece.values) := by
  cases formula with
  | leaf name test =>
      have next := Test.piece_numbered stemmed name placeholders.count test
      rw [Test.piece_names, Test.piece_values] at next
      rw [take, Placeholders.take_eq taken next]
      simp [piece?, Test.piece_names, Test.piece_values]
  | group junction documents =>
      rw [take, List.cons_append, takeDocuments_eq (isStem_append_letter stemmed junction) taken]
      simp only [piece?, List.cons_append]
      rw [(Piece.ofGroup?_bindings junction _).1, (Piece.ofGroup?_bindings junction _).2]

theorem takeAll_eq {stem : List Char} (stemmed : Placeholder.IsStem (initial :: stem))
    {placeholders : Placeholders} (taken : placeholders.AreTaken initial)
    (formulas : List Formula) :
    takeAll (initial :: stem) placeholders formulas =
      placeholders.upTo (pieces (initial :: stem) placeholders.count formulas).2
        ((pieces (initial :: stem) placeholders.count formulas).1.flatMap Piece.names)
        ((pieces (initial :: stem) placeholders.count formulas).1.flatMap Piece.values) := by
  cases formulas with
  | nil => exact Placeholders.upTo_nil.symm
  | cons formula formulas =>
      have next := piece?_numbered stemmed placeholders.count formula
      rw [takeAll, take_eq stemmed taken, takeAll_eq stemmed (taken.upTo next),
        Placeholders.upTo_upTo]
      simp only [pieces, List.flatMap_append]
      rfl

theorem takeDocuments_eq {stem : List Char} (stemmed : Placeholder.IsStem (initial :: stem))
    {placeholders : Placeholders} (taken : placeholders.AreTaken initial)
    (documents : List (List Formula)) :
    takeDocuments (initial :: stem) placeholders documents =
      placeholders.upTo (documentPieces (initial :: stem) placeholders.count documents).2
        ((documentPieces (initial :: stem) placeholders.count documents).1.flatMap Piece.names)
        ((documentPieces (initial :: stem) placeholders.count documents).1.flatMap
          Piece.values) := by
  cases documents with
  | nil => exact Placeholders.upTo_nil.symm
  | cons document documents =>
      have next := pieces_numbered stemmed placeholders.count document
      rw [takeDocuments, takeAll_eq stemmed taken, takeDocuments_eq stemmed (taken.upTo next),
        Placeholders.upTo_upTo]
      simp only [documentPieces, List.flatMap_append]
      rw [(Piece.ofDocument?_bindings _).1, (Piece.ofDocument?_bindings _).2]
      rfl

end

/-- A printed formula binds what its placeholders bind when they are taken one at a time. -/
theorem fragment?_eq_finish {stem : List Char} (stemmed : Placeholder.IsStem (initial :: stem))
    {formulas : List Formula} {fragment : Fragment}
    (printed : fragment? (initial :: stem) formulas = some fragment) :
    (takeAll (initial :: stem) .empty formulas).finish fragment.expression = fragment := by
  rw [takeAll_eq stemmed Placeholders.empty_areTaken]
  rw [fragment?] at printed
  split at printed
  · cases printed
  · next found =>
      cases printed
      simp [Placeholders.finish, Placeholders.upTo, Placeholders.empty]

end Formula

namespace Where

variable {document : Where} {schema : Schema} {fragment : Fragment}

theorem filter_eq_finish (compiled : document.filter schema = .ok (some fragment)) :
    ∃ formulas, Formula.ofClauses schema document = .ok formulas ∧
      (Formula.takeAll ['f'] .empty formulas).finish fragment.expression = fragment := by
  rw [filter, map_eq_ok_iff] at compiled
  obtain ⟨formulas, checked, printed⟩ := compiled
  exact ⟨formulas, checked, Formula.fragment?_eq_finish isStem_filter printed⟩

theorem keyCondition_eq_finish (compiled : document.keyCondition schema = .ok (some fragment)) :
    ∃ formulas, Formula.ofKeyClauses schema document = .ok formulas ∧
      (Formula.takeAll ['k'] .empty formulas).finish fragment.expression = fragment := by
  rw [keyCondition, map_eq_ok_iff] at compiled
  obtain ⟨formulas, checked, printed⟩ := compiled
  exact ⟨formulas, checked,
    Formula.fragment?_eq_finish (by simp [Placeholder.IsStem]) printed⟩

end Where

/-! ## Update statements and projections -/

namespace Placeholders

open Placeholder (nameBindings valueBindings)

/-- Attributes that take their placeholders in order take consecutive numbers. -/
theorem foldl_take_eq {α : Type} (initial : Char) {stem : List Char} (name : α → String)
    (values : α → List (List Char × Value))
    (next : ∀ count item, Numbered initial count (count + 1)
      (nameBindings stem (count + 1) (name item)) (valueBindings stem (count + 1) (values item)))
    {placeholders : Placeholders} (taken : placeholders.AreTaken initial) (items : List α) :
    items.foldl (fun placeholders item => placeholders.take stem (name item) (values item))
        placeholders =
      placeholders.upTo (placeholders.count + items.length)
        ((items.zipIdx (placeholders.count + 1)).flatMap fun entry =>
          nameBindings stem entry.2 (name entry.1))
        ((items.zipIdx (placeholders.count + 1)).flatMap fun entry =>
          valueBindings stem entry.2 (values entry.1)) := by
  induction items generalizing placeholders with
  | nil => exact upTo_nil.symm
  | cons item items induction =>
      have head := next placeholders.count item
      rw [List.foldl_cons, take_eq taken head, induction (taken.upTo head), upTo_upTo,
        List.length_cons, Nat.add_comm items.length, ← Nat.add_assoc]
      rfl

end Placeholders

namespace Document

/-- The statement that sets the fields of a document, which take their placeholders in order. -/
theorem setStatement?_eq_finish {document : Document} {isExact : String → Bool}
    {fragment : Fragment} (printed : document.setStatement? isExact = some fragment) :
    (document.foldl (fun placeholders field =>
      placeholders.take ['u'] field.1 [([], field.2)]) Placeholders.empty).finish
        fragment.expression = fragment := by
  have stemmed : Placeholder.IsStem ['u'] := by simp [Placeholder.IsStem]
  have next : ∀ count (field : String × Value), Numbered 'u' count (count + 1)
      (Placeholder.nameBindings ['u'] (count + 1) field.1)
      (Placeholder.valueBindings ['u'] (count + 1) [([], field.2)]) := by
    intro count field
    have single := Numbered.single stemmed count field.1 field.2
    rwa [← List.append_nil (Placeholder.valueChars ['u'] (count + 1))] at single
  rw [setStatement?_eq_some printed,
    Placeholders.foldl_take_eq 'u' Prod.fst (fun field => [([], field.2)]) next
      Placeholders.empty_areTaken]
  simp [Placeholders.finish, Placeholders.upTo, Placeholders.empty, Placeholder.nameBindings,
    Placeholder.valueBindings, List.map_eq_flatMap]

end Document

namespace Schema

/-- The projection on attributes, each of which takes a placeholder the first time. -/
theorem projection_eq_finish {schema : Schema} {attributes : List String} {fragment : Fragment}
    (printed : schema.projection attributes = .ok (some fragment)) :
    (attributes.eraseDups.foldl (fun placeholders name =>
      placeholders.take ['p'] name []) Placeholders.empty).finish
        fragment.expression = fragment := by
  have stemmed : Placeholder.IsStem ['p'] := by simp [Placeholder.IsStem]
  have taken := Placeholders.foldl_take_eq 'p' id (fun _ => [])
    (fun count name => Numbered.singleName stemmed count name) Placeholders.empty_areTaken
    attributes.eraseDups
  simp only [id] at taken
  rw [taken]
  rw [projection] at printed
  split at printed
  · cases printed
  · split at printed
    · cases printed
    · cases printed
      simp [Placeholders.finish, Placeholders.upTo, Placeholders.empty, Placeholder.nameBindings,
        Placeholder.valueBindings, List.map_eq_flatMap]

end Schema

end ItemTable
