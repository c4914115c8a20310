import ItemTable.Proofs.Json.Trees
import ItemTable.Proofs.Location

/-!
# Values read back

The tree of a plain value is read as an equal value.  Only numbers may differ in how they are
held: a number is read as the integer that was written, so a negative zero comes back as zero.
Documents keep the order of their names at every depth.
-/

namespace ItemTable

namespace Number

variable {number : Number} {integer : Int}

/-- A short integer is written as an integer that it equals. -/
theorem same_ofInt_written (short : number.shortInt?.isSome = true) :
    number.same (ofInt number.written) = true := by
  obtain ⟨integer, found⟩ := Option.isSome_iff_exists.mp short
  obtain ⟨denotes, small⟩ := denotes_of_shortInt? found
  rw [written, found, Option.getD_some]
  exact (denotes.same_iff (denotes_ofInt (lt_of_short small))).mpr rfl

theorem scaled?_written (short : number.shortInt?.isSome = true) :
    (NumberLexeme.ofInt number.written).scaled? = some (ofInt number.written) := by
  obtain ⟨integer, found⟩ := Option.isSome_iff_exists.mp short
  obtain ⟨-, small⟩ := denotes_of_shortInt? found
  rw [written, found, Option.getD_some]
  exact NumberLexeme.scaled?_ofInt (lt_of_short small)

end Number

namespace Value

variable {value : Value} {room : Nat}

mutual

/-- The value as it is read back from its text. -/
def readBack : Value → Value
  | number value => number (Number.ofInt value.written)
  | list items => list (readBackItems items)
  | map fields => map (readBackFields fields)
  | value => value

/-- The items as they are read back. -/
def readBackItems : List Value → List Value
  | [] => []
  | item :: rest => readBack item :: readBackItems rest

/-- The fields as they are read back. -/
def readBackFields : List (String × Value) → List (String × Value)
  | [] => []
  | (name, value) :: rest => (name, readBack value) :: readBackFields rest

end

theorem readBackItems_eq_map (items : List Value) : readBackItems items = items.map readBack := by
  induction items with
  | nil => rfl
  | cons item items induction => rw [readBackItems, induction, List.map_cons]

theorem readBackFields_eq_map (fields : Document) :
    readBackFields fields = fields.map fun entry => (entry.1, entry.2.readBack) := by
  induction fields with
  | nil => rfl
  | cons entry fields induction => rw [readBackFields, induction, List.map_cons]

theorem names_readBackFields (fields : Document) :
    Entries.names (readBackFields fields) = fields.names := by
  rw [readBackFields_eq_map]
  exact Entries.names_map fields fun _ value => value.readBack

theorem get?_readBackFields (fields : Document) (name : String) :
    Entries.get? (readBackFields fields) name = (fields.get? name).map readBack := by
  rw [readBackFields_eq_map]
  exact Entries.get?_map fields (fun _ value => value.readBack) name

mutual

/-- The tree of a value is read back. -/
theorem ofJson?_toJson (value : Value) {room : Nat} (plain : value.isPlain room = true)
    (distinct : value.isDistinct = true) : ofJson? room value.toJson = some value.readBack := by
  cases value with
  | null => rfl
  | bool value => rfl
  | number value =>
      rw [isPlain] at plain
      rw [toJson, ofJson?, Number.scaled?_written plain, Option.map_some, readBack]
  | string text => rfl
  | date instant => cases plain
  | binary bytes => cases plain
  | list items =>
      rw [isPlain, Bool.and_eq_true, bne_iff_ne] at plain
      rw [toJson, ofJson?, if_neg plain.1, itemsOfJson?_itemTrees items plain.2 distinct,
        Option.map_some, readBack]
  | map fields =>
      rw [isPlain, Bool.and_eq_true, bne_iff_ne] at plain
      rw [isDistinct, Bool.and_eq_true, decide_eq_true_eq] at distinct
      have once : (Entries.names (readBackFields fields)).Nodup := by
        rw [names_readBackFields]
        exact distinct.1
      rw [toJson, ofJson?, if_neg plain.1, entriesOfJson?_fieldTrees fields plain.2 distinct.2,
        Option.map_some, Entries.ofList_of_nodup once, readBack]

/-- The trees of items are read back. -/
theorem itemsOfJson?_itemTrees (items : List Value) {room : Nat}
    (plain : arePlain room items = true) (distinct : areDistinct items = true) :
    itemsOfJson? room (itemTrees items) = some (readBackItems items) := by
  cases items with
  | nil => rfl
  | cons item items =>
      rw [arePlain, Bool.and_eq_true] at plain
      rw [areDistinct, Bool.and_eq_true] at distinct
      rw [itemTrees, itemsOfJson?, ofJson?_toJson item plain.1 distinct.1,
        itemsOfJson?_itemTrees items plain.2 distinct.2, readBackItems]

/-- The trees of fields are read back. -/
theorem entriesOfJson?_fieldTrees (fields : List (String × Value)) {room : Nat}
    (plain : havePlain room fields = true) (distinct : haveDistinct fields = true) :
    entriesOfJson? room (fieldTrees fields) = some (readBackFields fields) := by
  cases fields with
  | nil => rfl
  | cons entry fields =>
      obtain ⟨name, value⟩ := entry
      rw [havePlain, Bool.and_eq_true] at plain
      rw [haveDistinct, Bool.and_eq_true] at distinct
      rw [fieldTrees, entriesOfJson?.eq_def]
      simp only [ofJson?_toJson value plain.1 distinct.1,
        entriesOfJson?_fieldTrees fields plain.2 distinct.2, readBackFields]

end

mutual

/-- A value equals what it is read back as. -/
theorem same_readBack (value : Value) {room : Nat} (plain : value.isPlain room = true)
    (distinct : value.isDistinct = true) : value.same value.readBack = true := by
  cases value with
  | null => rfl
  | bool value => exact beq_self_eq_true value
  | number value =>
      rw [isPlain] at plain
      rw [readBack, same]
      exact Number.same_ofInt_written plain
  | string text => exact beq_self_eq_true text
  | date instant => cases plain
  | binary bytes => cases plain
  | list items =>
      rw [isPlain, Bool.and_eq_true] at plain
      rw [readBack, same]
      exact sameItems_readBackItems items plain.2 distinct
  | map fields =>
      rw [isPlain, Bool.and_eq_true] at plain
      rw [isDistinct, Bool.and_eq_true, decide_eq_true_eq] at distinct
      rw [readBack, same, readBackFields_eq_map, List.length_map, beq_self_eq_true, Bool.true_and,
        ← readBackFields_eq_map]
      refine sameFields_readBackFields fields plain.2 distinct.2 ?_
      intro name value member
      rw [get?_readBackFields, Entries.get?_of_mem distinct.1 member, Option.map_some]

/-- Items equal what they are read back as. -/
theorem sameItems_readBackItems (items : List Value) {room : Nat}
    (plain : arePlain room items = true) (distinct : areDistinct items = true) :
    sameItems items (readBackItems items) = true := by
  cases items with
  | nil => rfl
  | cons item items =>
      rw [arePlain, Bool.and_eq_true] at plain
      rw [areDistinct, Bool.and_eq_true] at distinct
      rw [readBackItems, sameItems, same_readBack item plain.1 distinct.1,
        sameItems_readBackItems items plain.2 distinct.2, Bool.and_true]

/-- Fields are among those of a document that holds what each is read back as. -/
theorem sameFields_readBackFields (fields : List (String × Value)) {room : Nat}
    {document : Document} (plain : havePlain room fields = true)
    (distinct : haveDistinct fields = true)
    (found : ∀ name value, (name, value) ∈ fields → document.get? name = some value.readBack) :
    sameFields fields document = true := by
  cases fields with
  | nil => rfl
  | cons entry fields =>
      obtain ⟨name, value⟩ := entry
      rw [havePlain, Bool.and_eq_true] at plain
      rw [haveDistinct, Bool.and_eq_true] at distinct
      have later := sameFields_readBackFields fields plain.2 distinct.2 fun name value member =>
        found name value (List.mem_cons_of_mem _ member)
      rw [sameFields, found name value List.mem_cons_self, later]
      simp only [same_readBack value plain.1 distinct.1, Bool.and_true]

end

theorem namesAt_readBack (value : Value) (location : Location) :
    value.readBack.namesAt location = value.namesAt location := by
  induction location generalizing value with
  | nil =>
      cases value with
      | map fields => exact names_readBackFields fields
      | _ => rfl
  | cons step location induction =>
      cases value with
      | map fields =>
          cases step with
          | element position => rfl
          | field name =>
              rw [readBack, namesAt, namesAt, get?_readBackFields]
              cases Entries.get? fields name with
              | none => rfl
              | some value => exact induction value
      | list items =>
          cases step with
          | field name => rfl
          | element position =>
              rw [readBack, namesAt, namesAt, readBackItems_eq_map, List.getElem?_map]
              cases items[position]? with
              | none => rfl
              | some item => exact induction item
      | _ => rfl

/-- A count as a value. -/
def ofNat (count : Nat) : Value :=
  .number (Number.ofInt count)

theorem written_ofNat {count : Nat} (small : count < 1000000000000000) :
    (Number.ofInt count).written = count := by
  rw [Number.written, Number.shortInt?_ofInt (by omega), Option.getD_some]

theorem isPlain_ofNat {count : Nat} (small : count < 1000000000000000) :
    (ofNat count).isPlain room = true := by
  rw [ofNat, isPlain, Number.shortInt?_ofInt (by omega), Option.isSome_some]

/-- Equal values whose documents hold their names in the same order at every location. -/
structure SameInOrder (value other : Value) : Prop where
  same : value.same other = true
  namesAt : ∀ location, other.namesAt location = value.namesAt location

/-- Whether a value is plain and its documents hold every name once. -/
structure IsWritable (room : Nat) (value : Value) : Prop where
  plain : value.isPlain room = true
  distinct : value.isDistinct = true

theorem IsWritable.sameInOrder (writable : value.IsWritable room) :
    value.SameInOrder value.readBack :=
  ⟨same_readBack value writable.plain writable.distinct, namesAt_readBack value⟩

end Value

end ItemTable
