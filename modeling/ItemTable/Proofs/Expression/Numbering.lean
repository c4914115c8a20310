import ItemTable.Proofs.Entries
import ItemTable.Proofs.Expression.Printing

/-!
# Numbering of placeholders

Every placeholder of a compiled formula carries a number, and the number can be
read off its text.  The leaves of a formula take consecutive numbers, so all
placeholders of a formula are distinct whatever the nesting of its groups, and
they differ from the placeholders with another initial.
-/

namespace ItemTable

namespace Placeholder

/-- Stems are made of lowercase letters. -/
def IsStem (stem : List Char) : Prop :=
  ∀ c ∈ stem, c.isLower = true

theorem isDigit_eq_false_of_isLower {c : Char} (lower : c.isLower = true) :
    c.isDigit = false := by
  have bounds : (decide (97 ≤ c.val) && decide (c.val ≤ 122)) = true := lower
  simp only [Bool.and_eq_true, decide_eq_true_eq] at bounds
  simp only [Char.isDigit, Bool.and_eq_false_iff, decide_eq_false_iff_not]
  right
  intro below
  have bound : (97 : UInt32) ≤ 57 := Std.le_trans bounds.1 below
  exact absurd bound (by decide)

theorem isPlaceholderChar_of_isLower {c : Char} (lower : c.isLower = true) :
    Fragment.isPlaceholderChar c = true := by
  have letter : (c.isUpper || c.isLower) = true := by rw [lower, Bool.or_true]
  have alpha : c.isAlpha = true := letter
  simp [Fragment.isPlaceholderChar, Char.isAlphanum, alpha]

theorem isPlaceholderChar_of_mem_toDigits {c : Char} {number : Nat}
    (member : c ∈ Nat.toDigits 10 number) : Fragment.isPlaceholderChar c = true := by
  have digit : c.isDigit = true :=
    Nat.isDigit_of_mem_toDigits (by decide) (by decide) member
  simp [Fragment.isPlaceholderChar, Char.isAlphanum, digit]

/-- The first run of digits in a text, as a number. -/
def number (text : List Char) : Nat :=
  Nat.ofDigitChars 10 ((text.dropWhile fun c => !c.isDigit).takeWhile Char.isDigit) 0

theorem number_eq {front rest : List Char} {count : Nat}
    (undigited : ∀ c ∈ front, c.isDigit = false) (ends : ∀ c ∈ rest.head?, c.isDigit = false) :
    number (front ++ (Nat.toDigits 10 count ++ rest)) = count := by
  have digits : ∀ c ∈ Nat.toDigits 10 count, c.isDigit = true := fun c member =>
    Nat.isDigit_of_mem_toDigits (by decide) (by decide) member
  have dropped : (front ++ (Nat.toDigits 10 count ++ rest)).dropWhile (fun c => !c.isDigit) =
      Nat.toDigits 10 count ++ rest := by
    rw [List.dropWhile_append_of_pos (by simpa using undigited)]
    cases whole : Nat.toDigits 10 count with
    | nil => exact absurd whole Nat.toDigits_ne_nil
    | cons first others =>
        have firstDigit : first.isDigit = true := digits first (by simp [whole])
        simp [firstDigit]
  have stops : rest.takeWhile Char.isDigit = [] := by
    cases rest with
    | nil => rfl
    | cons c rest =>
        have notDigit : c.isDigit = false := ends c (by simp)
        simp [notDigit]
  rw [number, dropped, List.takeWhile_append_of_pos digits, stops, List.append_nil]
  exact Nat.ofDigitChars_ten_toDigits

/-- A placeholder with the given sigil and initial, and a number in a range. -/
structure IsNumbered (sigil initial : Char) (low high : Nat) (text : String) : Prop where
  shape : ∃ word, text.toList = sigil :: initial :: word ∧
    ∀ c ∈ initial :: word, Fragment.isPlaceholderChar c = true
  above : low < number text.toList
  below : number text.toList ≤ high

theorem IsNumbered.isPlaceholder {sigil initial : Char} {low high : Nat} {text : String}
    (numbered : IsNumbered sigil initial low high text) : IsPlaceholder sigil text := by
  obtain ⟨word, equality, placed⟩ := numbered.shape
  exact ⟨initial :: word, equality, by simp, placed⟩

theorem IsNumbered.widen {sigil initial : Char} {low high lower higher : Nat} {text : String}
    (numbered : IsNumbered sigil initial low high text) (down : lower ≤ low)
    (up : high ≤ higher) : IsNumbered sigil initial lower higher text :=
  ⟨numbered.shape, Nat.lt_of_le_of_lt down numbered.above, Nat.le_trans numbered.below up⟩

/-- The text of a numbered placeholder, with more characters behind its number. -/
theorem isNumbered_ofList {initial : Char} {stem : List Char} (sigil : Char) (count : Nat)
    (rest : List Char) (plain : sigil.isDigit = false) (stemmed : IsStem (initial :: stem))
    (ends : ∀ c ∈ rest.head?, c.isDigit = false)
    (placed : ∀ c ∈ rest, Fragment.isPlaceholderChar c = true) :
    IsNumbered sigil initial count (count + 1)
      (String.ofList (sigil :: initial :: stem ++ (Nat.toDigits 10 (count + 1) ++ rest))) := by
  have numbered : number (sigil :: initial :: stem ++ (Nat.toDigits 10 (count + 1) ++ rest)) =
      count + 1 := by
    apply number_eq _ ends
    intro c member
    rcases List.mem_cons.mp member with rfl | inStem
    · exact plain
    · exact isDigit_eq_false_of_isLower (stemmed c inStem)
  refine ⟨⟨stem ++ (Nat.toDigits 10 (count + 1) ++ rest), by simp, ?_⟩, ?_, ?_⟩
  · intro c member
    rw [← List.cons_append, List.mem_append, List.mem_append] at member
    rcases member with inStem | inDigits | inRest
    · exact isPlaceholderChar_of_isLower (stemmed c inStem)
    · exact isPlaceholderChar_of_mem_toDigits inDigits
    · exact placed c inRest
  · simp only [String.toList_ofList, numbered, Nat.lt_succ_self]
  · simp only [String.toList_ofList, numbered, Nat.le_refl]

end Placeholder

/-- Bindings of distinct placeholders that are numbered in a range. -/
structure Numbered (initial : Char) (low high : Nat) (names : Entries String)
    (values : Entries Value) : Prop where
  ordered : low ≤ high
  namesNumbered : ∀ name ∈ names.names, Placeholder.IsNumbered '#' initial low high name
  valuesNumbered : ∀ value ∈ values.names, Placeholder.IsNumbered ':' initial low high value
  distinctNames : names.names.Nodup
  distinctValues : values.names.Nodup

namespace Numbered

open Placeholder (IsNumbered)

variable {initial : Char}

theorem empty (count : Nat) : Numbered initial count count [] [] :=
  ⟨Nat.le_refl _, by simp [Entries.names], by simp [Entries.names], by simp [Entries.names],
    by simp [Entries.names]⟩

private theorem keys_append {sigil : Char} {low middle high : Nat} {left right : List String}
    (leftNumbered : ∀ key ∈ left, IsNumbered sigil initial low middle key)
    (rightNumbered : ∀ key ∈ right, IsNumbered sigil initial middle high key)
    (leftDistinct : left.Nodup) (rightDistinct : right.Nodup) : (left ++ right).Nodup := by
  rw [List.nodup_append]
  refine ⟨leftDistinct, rightDistinct, ?_⟩
  intro key inLeft other inRight same
  subst same
  have below := (leftNumbered key inLeft).below
  have above := (rightNumbered key inRight).above
  omega

/-- Bindings with later numbers are added behind. -/
theorem append {low middle high : Nat} {leftNames rightNames : Entries String}
    {leftValues rightValues : Entries Value}
    (left : Numbered initial low middle leftNames leftValues)
    (right : Numbered initial middle high rightNames rightValues) :
    Numbered initial low high (leftNames ++ rightNames) (leftValues ++ rightValues) where
  ordered := Nat.le_trans left.ordered right.ordered
  namesNumbered := by
    intro name member
    rw [Entries.names, List.map_append, List.mem_append] at member
    rcases member with inLeft | inRight
    · exact (left.namesNumbered name inLeft).widen (Nat.le_refl _) right.ordered
    · exact (right.namesNumbered name inRight).widen left.ordered (Nat.le_refl _)
  valuesNumbered := by
    intro value member
    rw [Entries.names, List.map_append, List.mem_append] at member
    rcases member with inLeft | inRight
    · exact (left.valuesNumbered value inLeft).widen (Nat.le_refl _) right.ordered
    · exact (right.valuesNumbered value inRight).widen left.ordered (Nat.le_refl _)
  distinctNames := by
    rw [Entries.names, List.map_append]
    exact keys_append left.namesNumbered right.namesNumbered left.distinctNames right.distinctNames
  distinctValues := by
    rw [Entries.names, List.map_append]
    exact keys_append left.valuesNumbered right.valuesNumbered left.distinctValues right.distinctValues

end Numbered

/-! ## Leaves -/

namespace Test

/-- The placeholder of a list element. -/
def elementChars (value : List Char) (position : Nat) : List Char :=
  value ++ 'l' :: Nat.toDigits 10 position

theorem elementChars_injective (value : List Char) {position other : Nat}
    (same : String.ofList (elementChars value position) =
      String.ofList (elementChars value other)) : position = other := by
  have digits : Nat.toDigits 10 position = Nat.toDigits 10 other := by
    have lists := congrArg String.toList same
    simpa [elementChars] using lists
  calc
    position = Nat.ofDigitChars 10 (Nat.toDigits 10 position) 0 :=
      Nat.ofDigitChars_ten_toDigits.symm
    _ = Nat.ofDigitChars 10 (Nat.toDigits 10 other) 0 := by rw [digits]
    _ = other := Nat.ofDigitChars_ten_toDigits

theorem elementBindings_fst (value : List Char) (position : Nat) (operands : List Value) :
    (elementBindings value position operands).map Prod.fst =
      (List.range' position operands.length).map (elementChars value) := by
  induction operands generalizing position with
  | nil => rfl
  | cons operand operands induction =>
      rw [elementBindings, List.map_cons, induction, List.length_cons, List.range'_succ,
        List.map_cons]
      rfl

/-- The placeholders of a membership test. -/
theorem oneOf_values_names (attributeName : String) (stem : List Char) (number : Nat)
    (operands : List Value) :
    ((oneOf operands).piece attributeName stem number).values.names =
      (List.range' 0 operands.length).map fun position =>
        String.ofList (elementChars (Placeholder.valueChars stem number) position) := by
  have placeholders :=
    elementBindings_fst (Placeholder.valueChars stem number) 0 operands
  have written := congrArg (List.map String.ofList) placeholders
  simpa [piece, Entries.names, Function.comp_def] using written

theorem oneOf_values_nodup (attributeName : String) (stem : List Char) (number : Nat)
    (operands : List Value) :
    ((oneOf operands).piece attributeName stem number).values.names.Nodup := by
  rw [oneOf_values_names, List.nodup_iff_pairwise_ne, List.pairwise_map]
  refine List.Pairwise.imp ?_ (List.pairwise_lt_range' (s := 0) (n := operands.length))
  intro position other before same
  have equal := elementChars_injective _ same
  omega

variable {initial : Char} {stem : List Char}

/-- The placeholder of a value and what may follow its number. -/
theorem isNumbered_value (stemmed : Placeholder.IsStem (initial :: stem)) (count : Nat)
    (rest : List Char) (ends : ∀ c ∈ rest.head?, c.isDigit = false)
    (placed : ∀ c ∈ rest, Fragment.isPlaceholderChar c = true) :
    Placeholder.IsNumbered ':' initial count (count + 1)
      (String.ofList (Placeholder.valueChars (initial :: stem) (count + 1) ++ rest)) := by
  rw [Placeholder.valueChars, List.append_assoc]
  exact Placeholder.isNumbered_ofList ':' count rest (by decide) stemmed ends placed

/-- The placeholders of a leaf have its number, and they are distinct. -/
theorem piece_numbered (stemmed : Placeholder.IsStem (initial :: stem)) (attributeName : String)
    (count : Nat) (test : Test) :
    Numbered initial count (count + 1)
      (test.piece attributeName (initial :: stem) (count + 1)).names
      (test.piece attributeName (initial :: stem) (count + 1)).values := by
  have name : Placeholder.IsNumbered '#' initial count (count + 1)
      (String.ofList (Placeholder.nameChars (initial :: stem) (count + 1))) := by
    have numbered := Placeholder.isNumbered_ofList '#' count [] (by decide) stemmed (by simp)
      (by simp)
    rwa [List.append_nil] at numbered
  refine ⟨by omega, ?_, ?_, ?_, ?_⟩
  · cases test <;> simpa [piece, Entries.names] using name
  · cases test with
    | compare comparison operand =>
        have numbered := isNumbered_value stemmed count [] (by simp) (by simp)
        rw [List.append_nil] at numbered
        simpa [piece, Entries.names] using numbered
    | range upper upperOperand lower lowerOperand =>
        have left := isNumbered_value stemmed count ['l'] (by simp) (by simp [Fragment.isPlaceholderChar])
        have right := isNumbered_value stemmed count ['r'] (by simp) (by simp [Fragment.isPlaceholderChar])
        simpa [piece, Entries.names] using And.intro left right
    | oneOf operands =>
        rw [oneOf_values_names]
        intro text member
        obtain ⟨position, -, rfl⟩ := List.mem_map.mp member
        refine isNumbered_value stemmed count _ (by simp) ?_
        intro c inside
        rcases List.mem_cons.mp inside with rfl | inDigits
        · decide
        · exact Placeholder.isPlaceholderChar_of_mem_toDigits inDigits
  · cases test <;> simp [piece, Entries.names]
  · cases test with
    | compare comparison operand => simp [piece, Entries.names]
    | range upper upperOperand lower lowerOperand => simp [piece, Entries.names]
    | oneOf operands => exact oneOf_values_nodup attributeName (initial :: stem) _ operands

end Test

namespace Numbered

variable {initial : Char} {stem : List Char}

/-- The placeholders of one name and one value. -/
theorem single (stemmed : Placeholder.IsStem (initial :: stem)) (count : Nat) (name : String)
    (value : Value) :
    Numbered initial count (count + 1)
      [(String.ofList (Placeholder.nameChars (initial :: stem) (count + 1)), name)]
      [(String.ofList (Placeholder.valueChars (initial :: stem) (count + 1)), value)] :=
  Test.piece_numbered stemmed name count (.compare .eq value)

/-- The placeholder of a name without a value. -/
theorem singleName (stemmed : Placeholder.IsStem (initial :: stem)) (count : Nat)
    (name : String) :
    Numbered initial count (count + 1)
      [(String.ofList (Placeholder.nameChars (initial :: stem) (count + 1)), name)] [] where
  ordered := by omega
  namesNumbered := (single stemmed count name .null).namesNumbered
  valuesNumbered := by simp [Entries.names]
  distinctNames := (single stemmed count name .null).distinctNames
  distinctValues := by simp [Entries.names]

end Numbered

/-! ## Formulas -/

namespace Piece

/-- A group has the bindings of what it groups. -/
theorem ofGroup?_bindings (junction : Junction) (pieces : List Piece) :
    (ofGroup? junction pieces).toList.flatMap Piece.names = pieces.flatMap Piece.names ∧
      (ofGroup? junction pieces).toList.flatMap Piece.values = pieces.flatMap Piece.values := by
  cases pieces <;> simp [ofGroup?, gather]

theorem ofDocument?_bindings (pieces : List Piece) :
    (ofDocument? pieces).toList.flatMap Piece.names = pieces.flatMap Piece.names ∧
      (ofDocument? pieces).toList.flatMap Piece.values = pieces.flatMap Piece.values := by
  rcases pieces with _ | ⟨piece, _ | ⟨next, pieces⟩⟩ <;> simp [ofDocument?, gather]

end Piece

namespace Formula

variable {initial : Char}

theorem isStem_append_letter {stem : List Char} (stemmed : Placeholder.IsStem (initial :: stem))
    (junction : Junction) :
    Placeholder.IsStem (initial :: (stem ++ [junction.letter])) := by
  have lower : junction.letter.isLower = true := by cases junction <;> decide
  intro c member
  rw [← List.cons_append, List.mem_append, List.mem_singleton] at member
  rcases member with inStem | rfl
  · exact stemmed c inStem
  · exact lower

mutual

theorem piece?_numbered {stem : List Char} (stemmed : Placeholder.IsStem (initial :: stem))
    (count : Nat) (formula : Formula) :
    Numbered initial count (piece? (initial :: stem) count formula).2
      ((piece? (initial :: stem) count formula).1.toList.flatMap Piece.names)
      ((piece? (initial :: stem) count formula).1.toList.flatMap Piece.values) := by
  cases formula with
  | leaf name test => simpa [piece?] using Test.piece_numbered stemmed name count test
  | group junction documents =>
      have inside := documentPieces_numbered (isStem_append_letter stemmed junction) count
        documents
      simp only [piece?]
      rw [(Piece.ofGroup?_bindings junction _).1, (Piece.ofGroup?_bindings junction _).2]
      exact inside

theorem pieces_numbered {stem : List Char} (stemmed : Placeholder.IsStem (initial :: stem))
    (count : Nat) (formulas : List Formula) :
    Numbered initial count (pieces (initial :: stem) count formulas).2
      ((pieces (initial :: stem) count formulas).1.flatMap Piece.names)
      ((pieces (initial :: stem) count formulas).1.flatMap Piece.values) := by
  cases formulas with
  | nil => exact Numbered.empty count
  | cons formula formulas =>
      have head := piece?_numbered stemmed count formula
      have tail := pieces_numbered stemmed (piece? (initial :: stem) count formula).2 formulas
      simpa only [pieces, List.flatMap_append] using head.append tail

theorem documentPieces_numbered {stem : List Char}
    (stemmed : Placeholder.IsStem (initial :: stem)) (count : Nat)
    (documents : List (List Formula)) :
    Numbered initial count (documentPieces (initial :: stem) count documents).2
      ((documentPieces (initial :: stem) count documents).1.flatMap Piece.names)
      ((documentPieces (initial :: stem) count documents).1.flatMap Piece.values) := by
  cases documents with
  | nil => exact Numbered.empty count
  | cons document documents =>
      have head := pieces_numbered stemmed count document
      have tail := documentPieces_numbered stemmed (pieces (initial :: stem) count document).2
        documents
      rw [← (Piece.ofDocument?_bindings _).1, ← (Piece.ofDocument?_bindings _).2] at head
      simpa only [documentPieces, List.flatMap_append] using head.append tail

end

end Formula

end ItemTable
