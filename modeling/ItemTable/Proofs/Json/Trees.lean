import ItemTable.Proofs.Json.Reading
import ItemTable.Proofs.Value
import ItemTable.Value.Text

/-!
# Trees of values

A value is written as a tree: its numbers as integers, its documents as objects with their
fields in order.  Reading the text of a value gives that tree, whatever follows the text.

Two units of fuel for each character are enough.  A container spends one on its bracket, and
an item one on itself and one on the comma or bracket behind it.
-/

namespace ItemTable

namespace Json

section Steps

variable {fuel : Nat} {text rest more after : List Char} {c : Char} {tree : Json} {name : String}

/-- A character that JSON allows between tokens. -/
def isBlank (c : Char) : Bool :=
  c == ' ' || c == '\n' || c == '\t' || c == '\r'

theorem skipBlanks_cons (visible : isBlank c = false) : skipBlanks (c :: rest) = c :: rest := by
  rw [skipBlanks, List.dropWhile_cons_of_neg]
  rw [← isBlank, visible]
  decide

theorem isDelimited_nil : IsDelimited [] := by
  rintro c ⟨⟩

theorem isDelimited_comma (rest : List Char) : IsDelimited (',' :: rest) := by
  rintro c ⟨⟩
  exact Or.inl rfl

theorem isDelimited_bracket (rest : List Char) : IsDelimited (']' :: rest) := by
  rintro c ⟨⟩
  exact Or.inr (Or.inl rfl)

theorem isDelimited_brace (rest : List Char) : IsDelimited ('\x7d' :: rest) := by
  rintro c ⟨⟩
  exact Or.inr (Or.inr rfl)

theorem readTree_writeText (fuel : Nat) (text : String) (rest : List Char) :
    readTree (fuel + 1) (writeText text ++ rest) = some (string (some text), rest) := by
  have read := readString_flatMap_jsonChar text.toList rest
  rw [String.ofList_toList] at read
  rw [writeText, Text.quoteJson, List.cons_append, List.cons_append, List.append_assoc,
    List.singleton_append, readTree, skipBlanks_cons rfl]
  simp only [read, Option.map_some]

theorem exists_integerText_eq_cons (value : Int) :
    ∃ c text, Number.integerText value = c :: text ∧ (c = '-' ∨ c.isDigit = true) := by
  rw [Number.integerText]
  split
  · exact ⟨_, _, rfl, Or.inl rfl⟩
  · obtain ⟨c, text, same⟩ :=
      List.exists_cons_of_ne_nil (Nat.toDigits_ne_nil : Nat.toDigits 10 value.natAbs ≠ [])
    have member : c ∈ Nat.toDigits 10 value.natAbs := by simp [same]
    exact ⟨c, text, same, Or.inr (Nat.isDigit_of_mem_toDigits (by decide) (by decide) member)⟩

/-- No number starts like another tree, or like the end of an array. -/
theorem ne_of_starts_number (start : c = '-' ∨ c.isDigit = true) :
    ∀ mark ∈ ['"', '[', ']', '\x7b', 'n', 't', 'f'], c ≠ mark := by
  rintro mark listed rfl
  revert listed
  rcases start with rfl | digit
  · decide
  · simp only [List.mem_cons, List.not_mem_nil, or_false]
    rintro (rfl | rfl | rfl | rfl | rfl | rfl | rfl) <;> cases digit

theorem isBlank_of_starts_number (start : c = '-' ∨ c.isDigit = true) : isBlank c = false := by
  rcases start with rfl | digit
  · rfl
  · rw [Bool.eq_false_iff]
    intro blank
    simp only [isBlank, Bool.or_eq_true, beq_iff_eq] at blank
    rcases blank with ((rfl | rfl) | rfl) | rfl <;> cases digit

theorem readTree_integerText (fuel : Nat) (value : Int) (delimited : IsDelimited rest) :
    readTree (fuel + 1) (Number.integerText value ++ rest) =
      some (number (.ofInt value), rest) := by
  have read := readNumber_integerText value delimited
  obtain ⟨c, text, same, start⟩ := exists_integerText_eq_cons value
  have other := ne_of_starts_number start
  rw [same, List.cons_append] at read ⊢
  rw [readTree, skipBlanks_cons (isBlank_of_starts_number start)]
  split
  case h_1 nothing => cases nothing
  case h_2 quote => exact absurd (List.cons.inj quote).1 (other _ (by decide))
  case h_3 bracket => exact absurd (List.cons.inj bracket).1 (other _ (by decide))
  case h_4 brace => exact absurd (List.cons.inj brace).1 (other _ (by decide))
  case h_5 letter => exact absurd (List.cons.inj letter).1 (other _ (by decide))
  case h_6 letter => exact absurd (List.cons.inj letter).1 (other _ (by decide))
  case h_7 letter => exact absurd (List.cons.inj letter).1 (other _ (by decide))
  case h_8 => rw [read, Option.map_some]

theorem readTree_array_nil (fuel : Nat) (rest : List Char) :
    readTree (fuel + 1) ('[' :: ']' :: rest) = some (array [], rest) := by
  rw [readTree]
  rfl

theorem readTree_array (visible : isBlank c = false) (filled : c ≠ ']') :
    readTree (fuel + 1) ('[' :: c :: text) =
      (readItems fuel (c :: text)).map fun (items, rest) => (array items, rest) := by
  rw [readTree, skipBlanks_cons rfl]
  simp only [skipBlanks_cons visible]
  split
  · next same => exact absurd (List.cons.inj same).1 filled
  · rfl

theorem readTree_object_nil (fuel : Nat) (rest : List Char) :
    readTree (fuel + 1) ('\x7b' :: '\x7d' :: rest) = some (object [], rest) := by
  rw [readTree]
  rfl

theorem readTree_object :
    readTree (fuel + 1) ('\x7b' :: '"' :: text) =
      (readFields fuel ('"' :: text)).map fun (fields, rest) => (object fields, rest) := by
  rw [readTree, skipBlanks_cons rfl]
  simp only [skipBlanks_cons (c := '"') rfl]
  rfl

theorem readItems_last (read : readTree fuel text = some (tree, ']' :: rest)) :
    readItems (fuel + 1) text = some ([tree], rest) := by
  rw [readItems, read]
  simp only [skipBlanks_cons (c := ']') rfl]

theorem readItems_cons (read : readTree fuel text = some (tree, ',' :: more)) :
    readItems (fuel + 1) text =
      (readItems fuel more).map fun (items, rest) => (tree :: items, rest) := by
  rw [readItems, read]
  simp only [skipBlanks_cons (c := ',') rfl]

theorem readFields_last (read : readTree fuel text = some (tree, '\x7d' :: rest)) :
    readFields (fuel + 1) (writeText name ++ ':' :: text) = some ([(some name, tree)], rest) := by
  have named := readString_flatMap_jsonChar name.toList (':' :: text)
  rw [String.ofList_toList] at named
  rw [writeText, Text.quoteJson, List.cons_append, List.cons_append, List.append_assoc,
    List.singleton_append, readFields, skipBlanks_cons rfl]
  simp only [named, skipBlanks_cons (c := ':') rfl, read, skipBlanks_cons (c := '\x7d') rfl]

theorem readFields_cons (read : readTree fuel text = some (tree, ',' :: more)) :
    readFields (fuel + 1) (writeText name ++ ':' :: text) =
      (readFields fuel more).map fun (fields, rest) => ((some name, tree) :: fields, rest) := by
  have named := readString_flatMap_jsonChar name.toList (':' :: text)
  rw [String.ofList_toList] at named
  rw [writeText, Text.quoteJson, List.cons_append, List.cons_append, List.append_assoc,
    List.singleton_append, readFields, skipBlanks_cons rfl]
  simp only [named, skipBlanks_cons (c := ':') rfl, read, skipBlanks_cons (c := ',') rfl]

end Steps

end Json

namespace Number

/-- The integer that a number is written as. -/
def written (number : Number) : Int :=
  number.shortInt?.getD 0

end Number

namespace Value

variable {value : Value} {room : Nat}

mutual

/-- Whether a value is built from null, booleans, integers of magnitude below `10 ^ 15`,
strings, lists and documents, at most `room` of them inside one another. -/
def isPlain : Nat → Value → Bool
  | _, null => true
  | _, bool _ => true
  | _, number value => value.shortInt?.isSome
  | _, string _ => true
  | _, date _ => false
  | _, binary _ => false
  | room, list items => room != 0 && arePlain (room - 1) items
  | room, map fields => room != 0 && havePlain (room - 1) fields

/-- Whether all items are plain. -/
def arePlain : Nat → List Value → Bool
  | _, [] => true
  | room, item :: rest => isPlain room item && arePlain room rest

/-- Whether the values of all fields are plain. -/
def havePlain : Nat → List (String × Value) → Bool
  | _, [] => true
  | room, (_, value) :: rest => isPlain room value && havePlain room rest

end

@[simp] theorem isPlain_string (room : Nat) (text : String) : (string text).isPlain room = true :=
  rfl

@[simp] theorem isPlain_bool (room : Nat) (flag : Bool) : (bool flag).isPlain room = true := rfl

theorem isPlain_map {fields : Document} :
    (map fields).isPlain room = true ↔ room ≠ 0 ∧
      ∀ name value, (name, value) ∈ fields → value.isPlain (room - 1) = true := by
  have each : ∀ room, havePlain room fields = true ↔
      ∀ name value, (name, value) ∈ fields → value.isPlain room = true := by
    intro room
    induction fields with
    | nil => simp [havePlain]
    | cons entry fields induction =>
        obtain ⟨name, value⟩ := entry
        rw [havePlain, Bool.and_eq_true, induction]
        constructor
        · rintro ⟨here, later⟩ other otherValue member
          rcases List.mem_cons.mp member with same | member
          · cases same
            exact here
          · exact later other otherValue member
        · intro all
          exact ⟨all name value List.mem_cons_self,
            fun other otherValue member => all other otherValue (List.mem_cons_of_mem _ member)⟩
  rw [isPlain, Bool.and_eq_true, bne_iff_ne, each]

mutual

/-- The tree that a value is written as. -/
def toJson : Value → Json
  | null => .null
  | bool value => .bool value
  | number value => .number (.ofInt value.written)
  | string text => .string (some text)
  | date instant => .string (some (String.ofList instant.isoText))
  | binary bytes => .string (some (String.ofList (Text.base64 bytes)))
  | list items => .array (itemTrees items)
  | map fields => .object (fieldTrees fields)

/-- The trees of items. -/
def itemTrees : List Value → List Json
  | [] => []
  | item :: rest => toJson item :: itemTrees rest

/-- The trees of fields. -/
def fieldTrees : List (String × Value) → List (Option String × Json)
  | [] => []
  | (name, value) :: rest => (some name, toJson value) :: fieldTrees rest

end

theorem wireChars_number {value : Number} (short : value.shortInt?.isSome = true) :
    (number value).wireChars = Number.integerText value.written := by
  obtain ⟨integer, same⟩ := Option.isSome_iff_exists.mp short
  rw [wireChars, Number.wireText, Number.textIn.eq_def, Number.written, same]
  exact String.toList_ofList

/-- The text of a value starts with a character that ends no array. -/
theorem exists_wireChars_eq_cons (plain : value.isPlain room = true) :
    ∃ c text, value.wireChars = c :: text ∧ Json.isBlank c = false ∧ c ≠ ']' := by
  cases value with
  | null => exact ⟨_, _, rfl, rfl, by decide⟩
  | bool value => cases value <;> exact ⟨_, _, rfl, rfl, by decide⟩
  | number value =>
      rw [isPlain] at plain
      obtain ⟨c, text, same, start⟩ := Json.exists_integerText_eq_cons value.written
      exact ⟨c, text, by rw [wireChars_number plain, same], Json.isBlank_of_starts_number start,
        Json.ne_of_starts_number start _ (by decide)⟩
  | string text => exact ⟨_, _, rfl, rfl, by decide⟩
  | date instant => cases plain
  | binary bytes => cases plain
  | list items => exact ⟨_, _, rfl, rfl, by decide⟩
  | map fields => exact ⟨_, _, rfl, rfl, by decide⟩

theorem exists_separate_wireItems_eq_cons {items : List Value} (filled : items ≠ [])
    (plain : arePlain room items = true) :
    ∃ c text, Json.separate (wireItems items) = c :: text ∧ Json.isBlank c = false ∧ c ≠ ']' := by
  cases items with
  | nil => exact absurd rfl filled
  | cons item items =>
      rw [arePlain, Bool.and_eq_true] at plain
      obtain ⟨c, text, same, visible, closing⟩ := exists_wireChars_eq_cons plain.1
      rw [wireItems, same]
      cases wireItems items with
      | nil => exact ⟨c, text, rfl, visible, closing⟩
      | cons next rest => exact ⟨c, _, rfl, visible, closing⟩

/-- The texts of fields. -/
def fieldTexts (fields : List (String × Value)) : List (List Char) :=
  (wireFields fields).map fun (name, value) => Json.writeField name value

theorem wireChars_map (fields : Document) :
    (map fields).wireChars = '\x7b' :: Json.separate (fieldTexts fields) ++ ['\x7d'] := by
  rw [wireChars, Json.writeObject, fieldTexts]

theorem fieldTexts_nil : fieldTexts [] = [] := rfl

theorem fieldTexts_cons {name : String} {value : Value} {fields : List (String × Value)} :
    fieldTexts ((name, value) :: fields) =
      (Json.writeText name ++ ':' :: value.wireChars) :: fieldTexts fields := rfl

theorem exists_separate_fieldTexts_eq_cons {fields : List (String × Value)}
    (filled : fields ≠ []) : ∃ text, Json.separate (fieldTexts fields) = '"' :: text := by
  cases fields with
  | nil => exact absurd rfl filled
  | cons field fields =>
      rw [fieldTexts_cons]
      cases fieldTexts fields with
      | nil => exact ⟨_, rfl⟩
      | cons next rest => exact ⟨_, rfl⟩

mutual

/-- The text of a value is read as its tree. -/
theorem readTree_wireChars (value : Value) (fuel : Nat) (rest : List Char) {room : Nat}
    (plain : value.isPlain room = true) (enough : 2 * value.wireChars.length ≤ fuel)
    (delimited : Json.IsDelimited rest) :
    Json.readTree fuel (value.wireChars ++ rest) = some (value.toJson, rest) := by
  obtain ⟨c, text, start, visible, filled⟩ := exists_wireChars_eq_cons plain
  obtain ⟨fuel, rfl⟩ : ∃ left, fuel = left + 1 := by
    rw [start, List.length_cons] at enough
    exact ⟨fuel - 1, by omega⟩
  cases value with
  | null => rfl
  | bool value => cases value <;> rfl
  | number value =>
      rw [isPlain] at plain
      rw [wireChars_number plain, toJson]
      exact Json.readTree_integerText fuel value.written delimited
  | string text => exact Json.readTree_writeText fuel text rest
  | date instant => cases plain
  | binary bytes => cases plain
  | list items =>
      cases items with
      | nil => exact Json.readTree_array_nil fuel rest
      | cons item items =>
          rw [isPlain, Bool.and_eq_true] at plain
          rw [wireChars, Json.writeArray, List.cons_append] at enough ⊢
          simp only [List.length_append, List.length_cons] at enough
          have read := readItems_wireItems (item :: items) fuel rest (List.cons_ne_nil item items)
            plain.2 (by omega)
          obtain ⟨c, text, start, visible, filled⟩ :=
            exists_separate_wireItems_eq_cons (List.cons_ne_nil item items) plain.2
          rw [start, List.cons_append] at read
          rw [start, List.cons_append, List.append_assoc, List.cons_append, List.singleton_append,
            Json.readTree_array visible filled, read]
          rfl
  | map fields =>
      cases fields with
      | nil => exact Json.readTree_object_nil fuel rest
      | cons field fields =>
          rw [isPlain, Bool.and_eq_true] at plain
          rw [wireChars_map, List.cons_append] at enough ⊢
          simp only [List.length_append, List.length_cons] at enough
          have read := readFields_wireFields (field :: fields) fuel rest
            (List.cons_ne_nil field fields) plain.2 (by omega)
          obtain ⟨text, start⟩ :=
            exists_separate_fieldTexts_eq_cons (List.cons_ne_nil field fields)
          rw [start, List.cons_append] at read
          rw [start, List.cons_append, List.append_assoc, List.cons_append, List.singleton_append,
            Json.readTree_object, read]
          rfl

/-- The texts of items are read as their trees. -/
theorem readItems_wireItems (items : List Value) (fuel : Nat) (rest : List Char) {room : Nat}
    (filled : items ≠ []) (plain : arePlain room items = true)
    (enough : 2 * (Json.separate (wireItems items)).length < fuel) :
    Json.readItems fuel (Json.separate (wireItems items) ++ ']' :: rest) =
      some (itemTrees items, rest) := by
  obtain ⟨fuel, rfl⟩ : ∃ left, fuel = left + 1 := ⟨fuel - 1, by omega⟩
  cases items with
  | nil => exact absurd rfl filled
  | cons item items =>
      rw [arePlain, Bool.and_eq_true] at plain
      cases items with
      | nil =>
          rw [wireItems, wireItems, Json.separate] at enough ⊢
          exact Json.readItems_last
            (readTree_wireChars item fuel _ plain.1 (by omega) (Json.isDelimited_bracket rest))
      | cons next items =>
          have later := readItems_wireItems (next :: items) fuel rest
            (List.cons_ne_nil next items) plain.2
          rw [wireItems, wireItems, Json.separate, ← wireItems] at enough ⊢
          simp only [List.length_append, List.length_cons] at enough
          have read := readTree_wireChars item fuel _ plain.1 (by omega)
            (Json.isDelimited_comma (Json.separate (wireItems (next :: items)) ++ ']' :: rest))
          rw [List.append_assoc, List.cons_append, Json.readItems_cons read, later (by omega)]
          rfl

/-- The texts of fields are read as their names and trees. -/
theorem readFields_wireFields (fields : List (String × Value)) (fuel : Nat) (rest : List Char)
    {room : Nat} (filled : fields ≠ []) (plain : havePlain room fields = true)
    (enough : 2 * (Json.separate (fieldTexts fields)).length < fuel) :
    Json.readFields fuel (Json.separate (fieldTexts fields) ++ '\x7d' :: rest) =
      some (fieldTrees fields, rest) := by
  obtain ⟨fuel, rfl⟩ : ∃ left, fuel = left + 1 := ⟨fuel - 1, by omega⟩
  cases fields with
  | nil => exact absurd rfl filled
  | cons field fields =>
      obtain ⟨name, value⟩ := field
      rw [havePlain, Bool.and_eq_true] at plain
      cases fields with
      | nil =>
          rw [fieldTexts_cons, fieldTexts_nil, Json.separate] at enough ⊢
          simp only [List.length_append, List.length_cons] at enough
          have read := readTree_wireChars value fuel _ plain.1 (by omega)
            (Json.isDelimited_brace rest)
          rw [List.append_assoc, List.cons_append, Json.readFields_last read]
          rfl
      | cons next fields =>
          obtain ⟨nextName, nextValue⟩ := next
          have later := readFields_wireFields ((nextName, nextValue) :: fields) fuel rest
            (List.cons_ne_nil _ fields) plain.2
          rw [fieldTexts_cons, fieldTexts_cons, Json.separate, ← fieldTexts_cons] at enough ⊢
          simp only [List.length_append, List.length_cons] at enough
          have read := readTree_wireChars value fuel _ plain.1 (by omega) (Json.isDelimited_comma
            (Json.separate (fieldTexts ((nextName, nextValue) :: fields)) ++ '\x7d' :: rest))
          rw [List.append_assoc, List.append_assoc, List.cons_append, List.cons_append,
            Json.readFields_cons read, later (by omega)]
          rfl

end

/-- The text of a value is that of its tree. -/
theorem parse?_wireText (plain : value.isPlain room = true) :
    Json.parse? value.wireText = some value.toJson := by
  have read := readTree_wireChars value _ [] plain (Nat.le_add_right _ 2) Json.isDelimited_nil
  rw [List.append_nil] at read
  rw [Json.parse?, wireText, String.toList_ofList, read]
  rfl

end Value

end ItemTable
