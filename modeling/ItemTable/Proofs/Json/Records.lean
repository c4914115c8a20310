import ItemTable.Json.Record
import ItemTable.Proofs.Json.Values

/-!
# Records read back

A record is written as a document of the fields that are there.  Its text is read as a record
in which each field is found under its name if it was written, and is missing if it was not.
What a reader takes from a field is therefore decided for each field by itself.
-/

namespace ItemTable

open Value (toJson fieldTrees)

namespace Value

/-- The value of a field is plain if the field is there. -/
def IsPlainIfHeld (room : Nat) (held : Option Value) : Prop :=
  ∀ value ∈ held, value.isPlain room = true

variable {room : Nat}

@[simp] theorem isPlainIfHeld_some {value : Value} :
    IsPlainIfHeld room (some value) ↔ value.isPlain room = true := by
  simp [IsPlainIfHeld]

@[simp] theorem isPlainIfHeld_text (text : Option String) :
    IsPlainIfHeld room (text.map .string) := by
  cases text <;> simp [IsPlainIfHeld]

@[simp] theorem isPlainIfHeld_flag (flag : Option Bool) : IsPlainIfHeld room (flag.map .bool) := by
  cases flag <;> simp [IsPlainIfHeld]

theorem isPlainIfHeld_count {count : Option Nat} (fits : ∀ value ∈ count, value < 4294967296) :
    IsPlainIfHeld room (count.map .ofNat) := by
  intro value held
  obtain ⟨count, found, rfl⟩ := Option.map_eq_some_iff.mp held
  exact isPlain_ofNat (Nat.lt_trans (fits count found) (by decide))

end Value

namespace Document

variable {fields : Entries (Option Value)} {room : Nat}

/-- The document of the fields that are there. -/
def present (fields : Entries (Option Value)) : Document :=
  fields.filterMap fun field => field.2.map fun value => (field.1, value)

theorem present_cons (name : String) (value : Option Value) (fields : Entries (Option Value)) :
    present ((name, value) :: fields) =
      (value.toList.map fun value => (name, value)) ++ present fields := by
  cases value <;> rfl

theorem names_present_sublist (fields : Entries (Option Value)) :
    (present fields).names.Sublist fields.names := by
  induction fields with
  | nil => exact .slnil
  | cons field fields induction =>
      obtain ⟨name, value⟩ := field
      cases value with
      | none => exact induction.cons name
      | some value => exact induction.cons_cons name

theorem get?_present (distinct : fields.names.Nodup) (name : String) :
    (present fields).get? name = (fields.get? name).join := by
  induction fields with
  | nil => rfl
  | cons field fields induction =>
      obtain ⟨key, value⟩ := field
      rw [Entries.names, List.map_cons, List.nodup_cons] at distinct
      rw [present_cons, Entries.get?_append, induction distinct.2, Entries.get?]
      split
      · next same =>
          subst same
          have single : Entries.get? fields key = none := Entries.get?_eq_none_iff.mpr distinct.1
          cases value <;> simp [single, Entries.get?]
      · next other => cases value <;> simp [other, Entries.get?]

theorem wireFields_present (fields : Entries (Option Value)) :
    Value.wireFields (present fields) =
      fields.flatMap fun field => field.2.toList.map fun value => (field.1, value.wireChars) := by
  induction fields with
  | nil => rfl
  | cons field fields induction =>
      obtain ⟨name, value⟩ := field
      rw [List.flatMap_cons, ← induction]
      cases value <;> rfl

theorem isPlain_present (plain : ∀ field ∈ fields, Value.IsPlainIfHeld room field.2) :
    (Value.map (present fields)).isPlain (room + 1) = true := by
  rw [Value.isPlain_map]
  refine ⟨Nat.succ_ne_zero room, fun name value member => ?_⟩
  obtain ⟨field, listed, same⟩ := List.mem_filterMap.mp member
  obtain ⟨held, found, same⟩ := Option.map_eq_some_iff.mp same
  cases same
  exact plain field listed value found

end Document

namespace Json

variable {room : Nat} {names : List String} {document : Document}

theorem namedFields_fieldTrees (document : Document) :
    namedFields (fieldTrees document) =
      some (document.map fun entry => (entry.1, entry.2.toJson)) := by
  induction document with
  | nil => rfl
  | cons entry document induction =>
      simp only [fieldTrees, namedFields, induction, Option.map_some, List.map_cons]

/-- A field is taken if its name stands for one tree only. -/
theorem takeField_of_nodup {found : Entries Json} (distinct : found.names.Nodup)
    (name : String) : takeField name found = some (found.get? name) := by
  induction found with
  | nil => rfl
  | cons field found induction =>
      obtain ⟨key, tree⟩ := field
      rw [Entries.names, List.map_cons, List.nodup_cons] at distinct
      rw [Entries.get?]
      split
      · next same =>
          have single : found.filter (fun field => field.1 == name) = [] := by
            rw [List.filter_eq_nil_iff]
            intro field member chosen
            have listed : field.1 ∈ List.map Prod.fst found := List.mem_map_of_mem member
            rw [beq_iff_eq.mp chosen, ← same] at listed
            exact distinct.1 listed
          rw [takeField, List.filter_cons_of_pos (by simpa using same), single]
      · next other =>
          rw [takeField, List.filter_cons_of_neg (by simpa using other), ← takeField,
            induction distinct.2]

/-- The record that a document is read as. -/
def recordOf (room : Nat) (document : Document) : Record :=
  { isObject := true
    found := document.map fun entry => (entry.1, entry.2.toJson)
    room }

theorem record?_toJson (distinct : document.names.Nodup) (known : document.names ⊆ names) :
    (Value.map document).toJson.record? (room + 1) names = some (recordOf room document) := by
  have namesFound : Entries.names (document.map fun entry => (entry.1, entry.2.toJson)) =
      document.names := Entries.names_map document fun _ value => value.toJson
  have kept : (document.map fun entry => (entry.1, entry.2.toJson)).filter
      (fun field => names.contains field.1) =
        document.map fun entry => (entry.1, entry.2.toJson) := by
    rw [List.filter_eq_self]
    intro field member
    rw [List.contains_iff_mem]
    refine known ?_
    rw [← namesFound]
    exact List.mem_map_of_mem member
  have taken : names.all (fun name =>
      (takeField name (document.map fun entry => (entry.1, entry.2.toJson))).isSome) = true := by
    rw [List.all_eq_true]
    intro name _
    rw [takeField_of_nodup (by rwa [namesFound]), Option.isSome_some]
  rw [toJson, record?, if_neg (Nat.succ_ne_zero room), namedFields_fieldTrees, Option.bind_eq_bind,
    Option.bind_some]
  simp only [kept, taken, if_true]
  rfl

theorem tree?_recordOf (document : Document) (name : String) :
    (recordOf room document).tree? name = (document.get? name).map toJson := by
  rw [Record.tree?, recordOf]
  induction document with
  | nil => rfl
  | cons entry document induction =>
      obtain ⟨key, value⟩ := entry
      rw [Entries.get?]
      split
      · next same => simp [same]
      · next other => simpa [other] using induction

/-- What a reader of trees makes of a text. -/
def read? {α : Type} (ofJson? : Nat → Json → Option α) (text : String) : Option α :=
  (parse? text).bind (ofJson? depthLimit)

theorem inside_ne_zero : depthLimit - 1 ≠ 0 := by decide

/-- A record that was read of an object with these fields, where they are there. -/
structure Record.Holds (record : Record) (room : Nat) (fields : Entries (Option Value)) : Prop where
  isObject : record.isObject = true
  room_eq : record.room = room
  tree?_eq : ∀ name, record.tree? name = (fields.get? name).join.map toJson

/-- What is made of the text of a record is what is made of its fields, each found under its
name if it was written. -/
theorem read?_of_fields {α : Type} {ofJson? : Nat → Json → Option α} {result : α}
    {written : List (String × List Char)} (fields : Entries (Option Value))
    (distinct : fields.names.Nodup)
    (plain : ∀ field ∈ fields, Value.IsPlainIfHeld (depthLimit - 1) field.2)
    (same : written = Value.wireFields (Document.present fields))
    (reads : ∀ tree record, tree.record? depthLimit fields.names = some record →
      record.Holds (depthLimit - 1) fields → ofJson? depthLimit tree = some result) :
    read? ofJson? (String.ofList (writeObject written)) = some result := by
  have sublist := Document.names_present_sublist fields
  have parsed := Value.parse?_wireText (Document.isPlain_present plain)
  rw [Value.wireText, Value.wireChars, ← same] at parsed
  rw [read?, parsed, Option.bind_some]
  refine reads _ _ (record?_toJson (distinct.sublist sublist) sublist.subset) ⟨rfl, rfl, ?_⟩
  intro name
  rw [tree?_recordOf, Document.get?_present distinct]

namespace Record

variable {α : Type} {record : Record} {name : String} {read : Nat → Json → Option α}
  {result : α}

/-- A field that was written is read. -/
theorem required_of_tree? {value : Value} (found : record.tree? name = some value.toJson)
    (reads : read record.room value.toJson = some result) :
    record.required name read = some result := by
  rw [required, found, Option.bind_some, reads]

/-- A field with a default that was written is read. -/
theorem defaulted_of_tree? {value : Value} (default : α)
    (found : record.tree? name = some value.toJson)
    (reads : read record.room value.toJson = some result) :
    record.defaulted name default read = some result := by
  rw [defaulted, found]
  exact reads

/-- A field that may be missing is read as it was written, or left out. -/
theorem optional_of_tree? (write : α → Value) {held : Option α} (isObject : record.isObject = true)
    (found : record.tree? name = (held.map write).map toJson)
    (notNull : ∀ thing, (write thing).toJson ≠ .null)
    (reads : ∀ thing ∈ held, read record.room (write thing).toJson = some thing) :
    record.optional name read = some held := by
  cases held with
  | none =>
      rw [optional, found]
      simp [isObject]
  | some thing =>
      rw [optional, found]
      simp only [Option.map_some]
      split
      · next missing => cases missing
      · next null => exact absurd (Option.some.inj null) (notNull thing)
      · next tree _ same => rw [← Option.some.inj same, reads thing rfl, Option.map_some]

theorem required_text {text : String}
    (found : record.tree? name = some (Value.string text).toJson) :
    record.required name text? = some text :=
  required_of_tree? found rfl

theorem required_document {document : Document}
    (writable : (Value.map document).IsWritable record.room)
    (found : record.tree? name = some (Value.map document).toJson) :
    record.required name Document.ofJson? = some (Value.readBackFields document) := by
  refine required_of_tree? found ?_
  rw [Document.ofJson?, Value.ofJson?_toJson _ writable.plain writable.distinct]
  rfl

theorem optional_text {text : Option String} (isObject : record.isObject = true)
    (found : record.tree? name = (text.map Value.string).map toJson) :
    record.optional name text? = some text :=
  optional_of_tree? .string isObject found (fun _ same => by cases same) fun _ _ => rfl

theorem optional_flag {flag : Option Bool} (isObject : record.isObject = true)
    (found : record.tree? name = (flag.map Value.bool).map toJson) :
    record.optional name flag? = some flag :=
  optional_of_tree? .bool isObject found (fun _ same => by cases same) fun _ _ => rfl

/-- A count is read if 32 bits hold it. -/
theorem optional_count {count : Option Nat} (fits : ∀ value ∈ count, value < 4294967296)
    (isObject : record.isObject = true)
    (found : record.tree? name = (count.map Value.ofNat).map toJson) :
    record.optional name count? = some count := by
  refine optional_of_tree? .ofNat isObject found (fun _ same => by cases same) fun value held => ?_
  have small := fits value held
  have unsigned : (NumberLexeme.ofInt value).negative = false := by simp [NumberLexeme.ofInt]
  rw [Value.ofNat, toJson, Value.written_ofNat (by omega), count?, NumberLexeme.integer?_ofInt]
  simp only [unsigned, Bool.false_eq_true, if_false, Int.toNat_natCast]
  rw [if_pos (by omega)]

end Record

section Entries

variable {α β : Type}

/-- Entries are read one by one, in the order they are written in. -/
theorem entries?_toJson (read : Nat → Json → Option α) (write : β → Value) (change : β → α)
    {entries : Entries β} (inside : room ≠ 0)
    (reads : ∀ name thing, (name, thing) ∈ entries →
      read (room - 1) (write thing).toJson = some (change thing)) :
    entries? read room (Value.map (entries.map fun entry => (entry.1, write entry.2))).toJson =
      some (entries.map fun entry => (entry.1, change entry.2)) := by
  rw [toJson, entries?, if_neg inside, namedFields_fieldTrees, Option.bind_eq_bind,
    Option.bind_some]
  induction entries with
  | nil => rfl
  | cons entry entries induction =>
      have later := induction fun name thing member =>
        reads name thing (List.mem_cons_of_mem _ member)
      have here := reads entry.1 entry.2 List.mem_cons_self
      simp only [List.map_cons, List.mapM_cons, here, later, Option.map_some, Option.bind_eq_bind,
        Option.bind_some, Option.pure_def]

end Entries

end Json

end ItemTable
