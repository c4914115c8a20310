import ItemTable.Expression.Projection
import ItemTable.Expression.Update
import ItemTable.Proofs.Request.Closure
import ItemTable.Proofs.Where.Filter

/-!
# Fragments are closed

Every fragment that goes into a request binds just the placeholders of its text.
Each kind of fragment has a letter of its own: `f` for filters, `k` for key
conditions, `u` for update statements, `p` for projections and `_` for existence.
-/

namespace ItemTable

open Fragment (occurrences stops_nil stops_cons occurrences_append_of_not_mem
  occurrences_cons_of_ne)

/-! ## Conditions -/

namespace Formula

theorem ofKeyClauses_areProper {schema : Schema} {clauses : List Clause}
    {formulas : List Formula} (compiled : ofKeyClauses schema clauses = .ok formulas) :
    AllProper formulas := by
  induction clauses generalizing formulas with
  | nil =>
      cases compiled
      trivial
  | cons clause clauses induction =>
      simp only [ofKeyClauses, bind_eq_ok_iff] at compiled
      obtain ⟨formula, compiledHead, others, compiledTail, built⟩ := compiled
      cases built
      refine ⟨?_, induction compiledTail⟩
      unfold ofKeyClause at compiledHead
      split at compiledHead
      · cases compiledHead
      · split at compiledHead
        · cases compiledHead
        · simp only [bind_eq_ok_iff] at compiledHead
          obtain ⟨⟨comparison, operand⟩, -, stored, -, built⟩ := compiledHead
          cases built
          trivial

theorem fragment?_isLettered {initial : Char} {stem : List Char}
    (stemmed : Placeholder.IsStem (initial :: stem)) {formulas : List Formula}
    (proper : AllProper formulas) {fragment : Fragment}
    (printed : fragment? (initial :: stem) formulas = some fragment) :
    fragment.IsLettered initial := by
  obtain ⟨high, numbered⟩ := fragment?_numbered stemmed printed
  refine ⟨?_, Fragment.begins_of_numbered numbered⟩
  have means := fragment?_means stemmed proper fun _ => true
  rw [printed] at means
  generalize Junction.and.combine? _ = reading at means
  cases means with
  | some means => exact means.isClosed numbered.distinctNames numbered.distinctValues

end Formula

namespace Where

variable {document : Where} {schema : Schema} {fragment : Fragment}

theorem filter_isLettered (compiled : document.filter schema = .ok (some fragment)) :
    fragment.IsLettered 'f' := by
  rw [filter, map_eq_ok_iff] at compiled
  obtain ⟨formulas, compiled, printed⟩ := compiled
  exact Formula.fragment?_isLettered isStem_filter (Formula.ofClauses_areProper document compiled)
    printed

theorem keyCondition_isLettered (compiled : document.keyCondition schema = .ok (some fragment)) :
    fragment.IsLettered 'k' := by
  rw [keyCondition, map_eq_ok_iff] at compiled
  obtain ⟨formulas, compiled, printed⟩ := compiled
  exact Formula.fragment?_isLettered (by simp [Placeholder.IsStem])
    (Formula.ofKeyClauses_areProper compiled) printed

end Where

/-! ## Conjunctions of fragments -/

namespace Fragment

theorem conjunct_occurrences {sigil : Char} (plain : sigil ≠ '(' ∧ sigil ≠ ')') (text : String) :
    occurrences sigil (conjunct text).toList = occurrences sigil text.toList := by
  rw [conjunct]
  split
  · have opening : "(".toList = ['('] := rfl
    have closing : ")".toList = [')'] := rfl
    rw [String.toList_append, String.toList_append, opening, closing, List.append_assoc,
      List.singleton_append, occurrences_cons_of_ne plain.1.symm,
      occurrences_append sigil text.toList (stops_cons (by decide)),
      occurrences_cons_of_ne plain.2.symm]
    simp
  · rfl

/-- The placeholders of a conjunction are those of both sides. -/
theorem and_occurrences {sigil : Char} (plain : sigil ≠ '(' ∧ sigil ≠ ')')
    (absent : sigil ∉ Piece.andSeparator) (left right : Fragment) :
    occurrences sigil (left.and right).expression.toList =
      occurrences sigil left.expression.toList ++ occurrences sigil right.expression.toList := by
  rw [and]
  split
  · next isEmpty => simp [isEmpty]
  · split
    · next isEmpty => simp [isEmpty]
    · have separator : " AND ".toList = Piece.andSeparator := rfl
      have stops : Stops (Piece.andSeparator ++ (conjunct right.expression).toList) :=
        stops_cons (by decide)
      rw [String.toList_append, String.toList_append, separator, List.append_assoc,
        occurrences_append _ _ stops, occurrences_append_of_not_mem absent,
        conjunct_occurrences plain, conjunct_occurrences plain]

/-- A text without any character has no bindings in a closed fragment. -/
theorem get?_eq_none_of_closes {α : Type} {entries : Entries α} {sigil : Char}
    (closes : entries.Closes sigil "".toList) (placeholder : String) :
    entries.get? placeholder = none := by
  rw [Entries.get?_eq_none_iff, closes.mem_iff]
  simp

/-- A conjunction of closed fragments binds what the left side binds, then the right. -/
theorem get?_and {left right : Fragment} (leftClosed : left.IsClosed)
    (rightClosed : right.IsClosed) (placeholder : String) :
    (left.and right).names.get? placeholder =
        (left.names.get? placeholder).or (right.names.get? placeholder) ∧
      (left.and right).values.get? placeholder =
        (left.values.get? placeholder).or (right.values.get? placeholder) := by
  obtain ⟨leftNames, leftValues⟩ := leftClosed
  obtain ⟨rightNames, rightValues⟩ := rightClosed
  rw [and]
  split
  · next isEmpty =>
      rw [isEmpty] at rightNames rightValues
      simp [get?_eq_none_of_closes rightNames placeholder,
        get?_eq_none_of_closes rightValues placeholder]
  · split
    · next isEmpty =>
        rw [isEmpty] at leftNames leftValues
        simp [get?_eq_none_of_closes leftNames placeholder,
          get?_eq_none_of_closes leftValues placeholder]
    · constructor
      · exact Entries.get?_bindAll left.names right.names placeholder
      · exact Entries.get?_bindAll left.values right.values placeholder

end Fragment

/-! ## Placeholders in the text of a fragment -/

namespace Placeholder

variable {stem : List Char}

theorem isPlaceholder_ofList (stemmed : IsStem stem) (nonempty : stem ≠ []) (sigil : Char)
    (number : Nat) :
    IsPlaceholder sigil (String.ofList (sigil :: stem ++ Nat.toDigits 10 number)) := by
  refine ⟨stem ++ Nat.toDigits 10 number, by simp, by simp [nonempty], ?_⟩
  intro c member
  rcases List.mem_append.mp member with inStem | inDigits
  · exact isPlaceholderChar_of_isLower (stemmed c inStem)
  · exact isPlaceholderChar_of_mem_toDigits inDigits

section Texts

variable (stemmed : IsStem stem) (nonempty : stem ≠ []) (number : Nat)

include stemmed nonempty

theorem occurrences_nameChars {rest : List Char} (stops : Fragment.Stops rest) :
    occurrences '#' (nameChars stem number ++ rest) =
      String.ofList (nameChars stem number) :: occurrences '#' rest := by
  have found := Fragment.occurrences_placeholder (by decide)
    (isPlaceholder_ofList stemmed nonempty '#' number) stops
  rwa [String.toList_ofList] at found

theorem occurrences_valueChars {rest : List Char} (stops : Fragment.Stops rest) :
    occurrences ':' (valueChars stem number ++ rest) =
      String.ofList (valueChars stem number) :: occurrences ':' rest := by
  have found := Fragment.occurrences_placeholder (by decide)
    (isPlaceholder_ofList stemmed nonempty ':' number) stops
  rwa [String.toList_ofList] at found

theorem names_valueChars (rest : List Char) :
    occurrences '#' (valueChars stem number ++ rest) = occurrences '#' rest := by
  have absent := Fragment.occurrences_other '#' (by decide) (by decide)
    (isPlaceholder_ofList stemmed nonempty ':' number) rest
  rwa [String.toList_ofList] at absent

theorem values_nameChars (rest : List Char) :
    occurrences ':' (nameChars stem number ++ rest) = occurrences ':' rest := by
  have absent := Fragment.occurrences_other ':' (by decide) (by decide)
    (isPlaceholder_ofList stemmed nonempty '#' number) rest
  rwa [String.toList_ofList] at absent

end Texts

end Placeholder

namespace Entries

theorem Closes.after {α : Type} {entries : Entries α} {sigil : Char} {word text : List Char}
    (closes : entries.Closes sigil text) (absent : sigil ∉ word) :
    entries.Closes sigil (word ++ text) where
  mem_iff := by
    rw [occurrences_append_of_not_mem absent]
    exact closes.mem_iff
  distinct := closes.distinct

/-- The placeholders of texts in a list, when each text has one. -/
theorem closes_join {α β : Type} {sigil : Char} {numbered : List β} (text : β → List Char)
    (binding : β → String × α)
    (one : ∀ entry placeholder, placeholder ∈ occurrences sigil (text entry) ↔
      placeholder = (binding entry).1)
    (plain : sigil ≠ ',' ∧ sigil ≠ ' ')
    (distinct : (names (numbered.map binding)).Nodup) :
    Closes (numbered.map binding) sigil (Piece.join [',', ' '] (numbered.map text)) where
  mem_iff := by
    intro placeholder
    rw [Fragment.occurrences_join sigil plain]
    simp only [names, List.mem_map, List.mem_flatMap, exists_exists_and_eq_and, one]
    constructor
    · rintro ⟨entry, member, rfl⟩
      exact ⟨entry, member, rfl⟩
    · rintro ⟨entry, member, same⟩
      exact ⟨entry, member, same.symm⟩
  distinct := distinct

end Entries

/-! ## Update statements -/

namespace Document

/-- The numbered fields of a document, after the number of the field before them. -/
theorem setBindings_numbered (document : Document) (count : Nat) :
    Numbered 'u' count (count + document.length)
      ((document.zipIdx (count + 1)).map fun entry =>
        (String.ofList (Placeholder.nameChars ['u'] entry.2), entry.1.1))
      ((document.zipIdx (count + 1)).map fun entry =>
        (String.ofList (Placeholder.valueChars ['u'] entry.2), entry.1.2)) := by
  induction document generalizing count with
  | nil => exact Numbered.empty count
  | cons field document induction =>
      have stemmed : Placeholder.IsStem ['u'] := by simp [Placeholder.IsStem]
      have head := Numbered.single stemmed count field.1 field.2
      have tail := induction (count + 1)
      rw [List.length_cons, Nat.add_comm document.length, ← Nat.add_assoc]
      exact head.append tail

theorem setClause_eq (exact : Bool) (number : Nat) :
    setClause exact number = Placeholder.nameChars ['u'] number ++
      ([' ', '=', ' '] ++ if exact then Placeholder.valueChars ['u'] number ++ []
        else "if_not_exists(".toList ++ (Placeholder.nameChars ['u'] number ++
          ([',', ' '] ++ (Placeholder.valueChars ['u'] number ++ [')'])))) := by
  cases exact <;> simp [setClause]

/-- An assignment has the placeholders of one field. -/
theorem mem_setClause_names (exact : Bool) (number : Nat) (placeholder : String) :
    placeholder ∈ occurrences '#' (setClause exact number) ↔
      placeholder = String.ofList (Placeholder.nameChars ['u'] number) := by
  have stemmed : Placeholder.IsStem ['u'] := by simp [Placeholder.IsStem]
  have behindName : ∀ rest, Fragment.Stops ([' ', '=', ' '] ++ rest) :=
    fun rest => stops_cons (by decide)
  have behindDefault : ∀ rest, Fragment.Stops ([',', ' '] ++ rest) :=
    fun rest => stops_cons (by decide)
  rw [setClause_eq, Placeholder.occurrences_nameChars stemmed (by simp) number (behindName _),
    occurrences_append_of_not_mem (by decide)]
  cases exact with
  | true =>
      rw [if_pos rfl, Placeholder.names_valueChars stemmed (by simp)]
      simp
  | false =>
      rw [if_neg (by simp), occurrences_append_of_not_mem (by decide),
        Placeholder.occurrences_nameChars stemmed (by simp) number (behindDefault _),
        occurrences_append_of_not_mem (by decide),
        Placeholder.names_valueChars stemmed (by simp), occurrences_cons_of_ne (by decide)]
      simp

theorem mem_setClause_values (exact : Bool) (number : Nat) (placeholder : String) :
    placeholder ∈ occurrences ':' (setClause exact number) ↔
      placeholder = String.ofList (Placeholder.valueChars ['u'] number) := by
  have stemmed : Placeholder.IsStem ['u'] := by simp [Placeholder.IsStem]
  rw [setClause_eq, Placeholder.values_nameChars stemmed (by simp),
    occurrences_append_of_not_mem (by decide)]
  cases exact with
  | true =>
      rw [if_pos rfl, Placeholder.occurrences_valueChars stemmed (by simp) number stops_nil]
      simp
  | false =>
      rw [if_neg (by simp), occurrences_append_of_not_mem (by decide),
        Placeholder.values_nameChars stemmed (by simp), occurrences_append_of_not_mem (by decide),
        Placeholder.occurrences_valueChars stemmed (by simp) number (stops_cons (by decide)),
        occurrences_cons_of_ne (by decide)]
      simp

theorem setStatement?_eq_some {document : Document} {isExact : String → Bool}
    {fragment : Fragment} (printed : document.setStatement? isExact = some fragment) :
    fragment = {
      expression := String.ofList (['S', 'E', 'T', ' '] ++ Piece.join [',', ' ']
        ((document.zipIdx 1).map fun entry => setClause (isExact entry.1.1) entry.2))
      names := (document.zipIdx 1).map fun entry =>
        (String.ofList (Placeholder.nameChars ['u'] entry.2), entry.1.1)
      values := (document.zipIdx 1).map fun entry =>
        (String.ofList (Placeholder.valueChars ['u'] entry.2), entry.1.2) } := by
  rw [setStatement?] at printed
  split at printed
  · cases printed
  · cases printed
    rfl

/-- The statement that sets the fields of a document is closed. -/
theorem setStatement?_isLettered {document : Document} {isExact : String → Bool}
    {fragment : Fragment} (printed : document.setStatement? isExact = some fragment) :
    fragment.IsLettered 'u' := by
  have numbered := setBindings_numbered document 0
  rw [setStatement?_eq_some printed]
  have names := Entries.closes_join (fun entry => setClause (isExact entry.1.1) entry.2)
    (fun entry : (String × Value) × Nat =>
      (String.ofList (Placeholder.nameChars ['u'] entry.2), entry.1.1))
    (fun entry => mem_setClause_names (isExact entry.1.1) entry.2)
    (And.intro (by decide) (by decide)) numbered.distinctNames
  have values := Entries.closes_join (fun entry => setClause (isExact entry.1.1) entry.2)
    (fun entry : (String × Value) × Nat =>
      (String.ofList (Placeholder.valueChars ['u'] entry.2), entry.1.2))
    (fun entry => mem_setClause_values (isExact entry.1.1) entry.2)
    (And.intro (by decide) (by decide)) numbered.distinctValues
  have inNames : '#' ∉ ['S', 'E', 'T', ' '] := by decide
  have inValues : ':' ∉ ['S', 'E', 'T', ' '] := by decide
  refine ⟨⟨?_, ?_⟩, Fragment.begins_of_numbered numbered⟩
  · rw [String.toList_ofList]
    exact names.after inNames
  · rw [String.toList_ofList]
    exact values.after inValues

end Document

/-! ## Projections -/

namespace Schema

/-- The numbered attributes of a projection, after the number before them. -/
theorem projectionNames_numbered (attributes : List String) (count : Nat) :
    Numbered 'p' count (count + attributes.length)
      ((attributes.zipIdx (count + 1)).map fun entry =>
        (String.ofList (Placeholder.nameChars ['p'] entry.2), entry.1)) [] := by
  induction attributes generalizing count with
  | nil => exact Numbered.empty count
  | cons attributeName attributes induction =>
      have stemmed : Placeholder.IsStem ['p'] := by simp [Placeholder.IsStem]
      have head := Numbered.singleName stemmed count attributeName
      have tail := induction (count + 1)
      rw [List.length_cons, Nat.add_comm attributes.length, ← Nat.add_assoc]
      exact head.append tail

theorem projection_values {schema : Schema} {attributes : List String} {fragment : Fragment}
    (printed : schema.projection attributes = .ok (some fragment)) : fragment.values = [] := by
  rw [projection] at printed
  split at printed
  · cases printed
  · split at printed <;> cases printed
    rfl

/-- A projection is closed. -/
theorem projection_isLettered {schema : Schema} {attributes : List String} {fragment : Fragment}
    (printed : schema.projection attributes = .ok (some fragment)) :
    fragment.IsLettered 'p' := by
  have numbered := projectionNames_numbered attributes.eraseDups 0
  have stemmed : Placeholder.IsStem ['p'] := by simp [Placeholder.IsStem]
  rw [projection] at printed
  split at printed
  · cases printed
  · split at printed
    · cases printed
    · cases printed
      refine ⟨⟨?_, ?_⟩, Fragment.begins_of_numbered numbered⟩
      · rw [String.toList_ofList]
        refine Entries.closes_join _ _ ?_ (by decide) numbered.distinctNames
        intro entry placeholder
        have one := Placeholder.occurrences_nameChars stemmed (by simp) entry.2 stops_nil
        rw [List.append_nil] at one
        simp [one]
      · rw [String.toList_ofList]
        refine ⟨?_, numbered.distinctValues⟩
        intro placeholder
        have none : ∀ number, occurrences ':' (Placeholder.nameChars ['p'] number) = [] := by
          intro number
          have absent := Placeholder.values_nameChars stemmed (by simp) number []
          rwa [List.append_nil] at absent
        simp [Fragment.occurrences_join, none, Entries.names]

end Schema

/-! ## Existence -/

namespace KeySchema

/-- The functions of existence conditions. -/
def existenceFunctions : List String := ["attribute_exists", "attribute_not_exists"]

theorem existence_names (key : KeySchema) (function : String) :
    (key.existence function).names =
      (hashPlaceholder, key.hash) :: key.range.toList.map fun range => (rangePlaceholder, range) := by
  obtain ⟨hash, range⟩ := key
  cases range <;> rfl

theorem existence_values (key : KeySchema) (function : String) :
    (key.existence function).values = [] := by
  obtain ⟨hash, range⟩ := key
  cases range <;> rfl

theorem existence_occurrences {function : String} (isExistence : function ∈ existenceFunctions)
    (key : KeySchema) :
    occurrences '#' (key.existence function).expression.toList =
        hashPlaceholder :: key.range.toList.map (fun _ => rangePlaceholder) ∧
      occurrences ':' (key.existence function).expression.toList = [] := by
  obtain ⟨hash, range⟩ := key
  simp only [existenceFunctions, List.mem_cons, List.not_mem_nil, or_false] at isExistence
  rcases isExistence with rfl | rfl <;> cases range <;>
    simp only [existence, Fragment.ofText, Fragment.withName, Option.toList, List.map] <;> decide

/-- The condition that an item exists, or that it does not, is closed. -/
theorem existence_isLettered {function : String} (isExistence : function ∈ existenceFunctions)
    (key : KeySchema) :
    (key.existence function).IsLettered '_' := by
  obtain ⟨names, values⟩ := existence_occurrences isExistence key
  have bound : (key.existence function).names.names =
      hashPlaceholder :: key.range.toList.map fun _ => rangePlaceholder := by
    rw [existence_names]
    cases key.range <;> rfl
  refine ⟨⟨⟨?_, ?_⟩, ⟨?_, ?_⟩⟩, ⟨?_, ?_⟩⟩
  · intro placeholder
    rw [bound, names]
  · rw [bound]
    cases key.range <;> simp [hashPlaceholder, rangePlaceholder]
  · intro placeholder
    rw [existence_values, values]
    simp [Entries.names]
  · simp [existence_values, Entries.names]
  · intro placeholder member
    rw [bound] at member
    rcases List.mem_cons.mp member with rfl | inRange
    · exact ⟨_, rfl⟩
    · obtain ⟨range, -, rfl⟩ := List.mem_map.mp inRange
      exact ⟨_, rfl⟩
  · simp [existence_values, Entries.Begins, Entries.names]

end KeySchema

end ItemTable
