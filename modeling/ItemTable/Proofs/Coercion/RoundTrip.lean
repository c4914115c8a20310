import ItemTable.Proofs.Coercion.Hooks
import ItemTable.Proofs.Coercion.Reading
import ItemTable.Proofs.Instant.Stored
import ItemTable.Proofs.Validation.Valid

/-!
# Reading what was written

When no code of the user takes part, a valid document is written, and what is read back is
the document itself but for its dates.  A date loses its microseconds, and it leaves a leap
second that its stored form does not tell from the next second.
-/

namespace ItemTable

/-- A value of a property as it is read back, apart from the documents inside. -/
def PropertyTraits.restored (traits : PropertyTraits) (value : Value) : Value :=
  match traits.type, value with
  | .date, .date instant => .date (instant.restored traits.format)
  | _, value => value

namespace PropertyTraits

variable {traits : PropertyTraits} {value : Value}

theorem restored_of_ne_date (notDate : traits.type ≠ .date) : traits.restored value = value := by
  unfold restored
  split
  · next isDate => exact absurd isDate notDate
  · rfl

theorem restored_date (isDate : traits.type = .date) {instant : Instant} :
    traits.restored (.date instant) = .date (instant.restored traits.format) := by
  simp [restored, isDate]

theorem restored_null : traits.restored .null = .null := by
  unfold restored
  split
  · next same => cases same
  · rfl

end PropertyTraits

namespace Schema

mutual

/-- The documents inside a value as they are read back under a schema. -/
def restoredInside (nested : Option (List Property)) : Value → Value
  | .map fields =>
      match nested with
      | some schema => .map (restoredFields schema fields)
      | none => .map fields
  | .list items =>
      match nested with
      | some schema => .list (restoredElements schema items)
      | none => .list items
  | value => value

/-- The documents among list elements as they are read back. -/
def restoredElements (schema : List Property) : List Value → List Value
  | [] => []
  | item :: rest =>
      (if item matches .map _ then restoredInside (some schema) item else item) ::
        restoredElements schema rest

/-- Fields as they are read back. -/
def restoredFields (schema : List Property) : List (String × Value) → List (String × Value)
  | [] => []
  | (name, value) :: rest =>
      (name,
        match Schema.get? schema name with
        | none => value
        | some property => property.restored (restoredInside property.properties value)) ::
        restoredFields schema rest

end

/-- A document as it is read back after it was written: under the same names in the same
order, and with other values only for dates. -/
def restored (schema : Schema) (document : Document) : Document :=
  restoredFields schema document

/-- No hook of a stage is declared, at any depth. -/
def IsUnhooked (schema : Schema) (stage : WriteStage) : Prop :=
  schema.AllProperties fun property => property.hooks.at stage = none

variable {schema nested : Schema} {property : Property} {stage : WriteStage}
variable {document stored : Document} {name : String} {value : Value}

theorem names_restored : (schema.restored document).names = document.names := by
  induction document with
  | nil => rfl
  | cons entry rest induction => exact congrArg (entry.1 :: ·) induction

/-- The value of a field as it is read back. -/
def restoredField (schema : Schema) (name : String) (value : Value) : Value :=
  match schema.get? name with
  | none => value
  | some property => property.restored (restoredInside property.properties value)

theorem get?_restored :
    (schema.restored document).get? name =
      (document.get? name).map (schema.restoredField name) := by
  induction document with
  | nil => rfl
  | cons entry rest induction =>
      obtain ⟨key, first⟩ := entry
      rw [restored, restoredFields, Entries.get?, Entries.get?]
      split
      · next same =>
          subst same
          rfl
      · exact induction

theorem exists_coerceElements_restored (position : Nat) {items : List Value}
    (inside : ∀ fields, .map fields ∈ items → ∃ stored,
      writeFields stage schema fields fields = .ok stored ∧
        readFields schema stored = .ok (schema.restored fields)) :
    ∃ written,
      coerceElements (fun fields => writeFields stage schema fields fields) position items =
        .ok written ∧
      coerceElements (readFields schema) position written =
        .ok (restoredElements schema items) := by
  simp only [coerceElements_eq_ok_iff]
  induction items with
  | nil => exact ⟨[], .nil, by rw [restoredElements]; exact .nil⟩
  | cons item items induction =>
      obtain ⟨rest, writes, reads⟩ := induction fun fields member =>
        inside fields (List.mem_cons_of_mem item member)
      cases item with
      | map fields =>
          obtain ⟨stored, written, read⟩ := inside fields List.mem_cons_self
          exact ⟨.map stored :: rest, .cons (.document written) writes,
            .cons (.document read) reads⟩
      | _ => exact ⟨_ :: rest, .cons (.other (by simp)) writes, .cons (.other (by simp)) reads⟩

/-- The documents inside a value are written and read back if each of them is. -/
theorem exists_writeInside_restored {carried : Option Schema}
    (inside : ∀ schema, carried = some schema → ∀ fields, value.Holds fields → ∃ stored,
      writeFields stage schema fields fields = .ok stored ∧
        readFields schema stored = .ok (schema.restored fields)) :
    ∃ written, writeInside stage carried value = .ok written ∧
      readInside carried written = .ok (restoredInside carried value) := by
  simp only [writeInside_eq, readInside_eq]
  cases carried with
  | none => exact ⟨value, rfl, by cases value <;> rfl⟩
  | some schema =>
      cases value with
      | map fields =>
          obtain ⟨stored, written, read⟩ := inside schema rfl fields (.map fields)
          exact ⟨.map stored, map_eq_ok_iff.mpr ⟨stored, written, rfl⟩,
            map_eq_ok_iff.mpr ⟨_, read, rfl⟩⟩
      | list items =>
          obtain ⟨written, writes, reads⟩ := exists_coerceElements_restored 0
            fun fields member => inside schema rfl fields (.element member)
          exact ⟨.list written, map_eq_ok_iff.mpr ⟨written, writes, rfl⟩,
            map_eq_ok_iff.mpr ⟨_, reads, rfl⟩⟩
      | _ => exact ⟨_, rfl, rfl⟩

/-- A field is stored and read back. -/
theorem exists_storeField_restored (normal : property.IsNormal) (unget : property.get = none)
    (unset : property.set = none) (declared : schema.get? name = some property)
    (isStorable : property.type = .date → value ≠ .null →
      ∃ instant, value = .date instant ∧ instant.readsBack property.format = true)
    (inside : ∀ nested, property.properties = some nested → ∀ fields, value.Holds fields →
      ∃ stored, writeFields stage nested fields fields = .ok stored ∧
        readFields nested stored = .ok (Schema.restored nested fields)) :
    ∃ stored, storeField stage property (some value) = .ok (some stored) ∧
      readField schema name stored = .ok (schema.restoredField name value) := by
  rw [restoredField, declared]
  dsimp only
  by_cases null : value = .null
  · subst null
    refine ⟨.null, rfl, ?_⟩
    change readField schema name .null = .ok (property.restored .null)
    rw [readField, declared, PropertyTraits.restored_null]
    rfl
  · by_cases isDate : property.type = .date
    -- A date property has no schema inside, and any other value is stored as it is.
    · have flat := normal.flat_of_date isDate
      obtain ⟨instant, rfl, reads⟩ := isStorable isDate null
      have stores := (PropertyTraits.store_eq_ok_iff_of_date unset isDate).mpr
        (Or.inr ⟨instant, rfl, rfl⟩)
      have notNull : instant.toStored property.format ≠ .null := by
        cases property.format <;> simp [Instant.toStored]
      refine ⟨instant.toStored property.format, storeField_of_scalar flat stores, ?_⟩
      rw [readField_eq_ok_iff declared notNull, flat]
      refine ⟨instant.toStored property.format, readInside_eq.trans rfl, ?_⟩
      rw [PropertyTraits.load_eq_ok_iff_of_date unget isDate, Instant.toInstant?_toStored,
        if_pos reads]
      exact ⟨_, rfl, PropertyTraits.restored_date isDate⟩
    · obtain ⟨written, writes, reads⟩ := exists_writeInside_restored inside
      have notNull : written ≠ .null := by
        rw [writeInside_eq] at writes
        rwa [ne_eq, ← Value.isNull_iff, isNull_coerceInside writes, Value.isNull_iff]
      refine ⟨written, ?_, ?_⟩
      · exact storeField_some_eq_ok.mpr (Or.inr ⟨null, written, written, writes,
          PropertyTraits.store_of_ne_date unset isDate, rfl⟩)
      · rw [readField_eq_ok_iff declared notNull, PropertyTraits.restored_of_ne_date isDate]
        exact ⟨_, reads, PropertyTraits.load_of_ne_date unget isDate⟩

/-- Reading is told by what each name stands for. -/
theorem readFields_eq_ok_of_names {fields result : Document}
    (sameNames : result.names = fields.names) (distinct : fields.names.Nodup)
    (reads : ∀ name value, fields.get? name = some value →
      ∃ read, result.get? name = some read ∧ readField schema name value = .ok read) :
    readFields schema fields = .ok result := by
  induction fields generalizing result with
  | nil =>
      rw [List.map_eq_nil_iff.mp sameNames, readFields]
  | cons entry fields induction =>
      obtain ⟨name, value⟩ := entry
      cases result with
      | nil => cases sameNames
      | cons first result =>
          obtain ⟨sameName, sameRest⟩ := List.cons_eq_cons.mp sameNames
          obtain ⟨key, read⟩ := first
          obtain rfl : key = name := sameName
          rw [Entries.names, List.map_cons, List.nodup_cons] at distinct
          obtain ⟨found, foundHere, readsHere⟩ := reads key value (by simp [Entries.get?])
          obtain rfl : read = found := by simpa [Entries.get?] using foundHere
          rw [readFields_cons]
          refine bind_eq_ok_iff.mpr ⟨read, readsHere, bind_eq_ok_iff.mpr ⟨result, ?_, rfl⟩⟩
          -- The first name does not come again, so the rest answers for all other names.
          apply induction sameRest distinct.2
          intro other otherValue held
          have different : key ≠ other := by
            rintro rfl
            exact distinct.1 (Entries.get?_isSome_iff.mp (by rw [held]; rfl))
          simpa [Entries.get?, different] using reads other otherValue
            (by simpa [Entries.get?, different] using held)

/-- Without hooks, a document is written and read back if each of its declared fields is
stored and read back. -/
theorem exists_writeFields_of_fields (normal : schema.IsNormal)
    (unhooked : ∀ property ∈ schema, property.hooks.at stage = none)
    (distinct : document.names.Nodup)
    (fieldRestored : ∀ property ∈ schema, ∀ value, document.get? property.name = some value →
      ∃ stored, storeField stage property (some value) = .ok (some stored) ∧
        readField schema property.name stored =
          .ok (schema.restoredField property.name value)) :
    ∃ stored, writeFields stage schema document document = .ok stored ∧
      readFields schema stored = .ok (schema.restored document) := by
  have stores : ∀ property ∈ schema,
      ∃ field, storeField stage property (document.get? property.name) = .ok field := by
    intro property member
    cases found : document.get? property.name with
    | none => exact ⟨none, rfl⟩
    | some value =>
        obtain ⟨stored, storesHere, -⟩ := fieldRestored property member value found
        exact ⟨some stored, storesHere⟩
  have unchanged := hookPass_of_unhooked document unhooked
  obtain ⟨stored, written⟩ := exists_writeFields normal.distinct unchanged stores
  have sameNames := names_writeFields rfl unchanged written
  obtain ⟨final, passed, storesAll, -, undeclared⟩ := writeFields_eq_ok normal.distinct written
  refine ⟨stored, written, ?_⟩
  apply readFields_eq_ok_of_names
  · rw [names_restored, sameNames]
  · rw [sameNames]
    exact distinct
  · intro name value held
    rw [get?_restored]
    cases declared : schema.get? name with
    | none =>
        rw [undeclared name (not_mem_names_of_get? declared)] at held
        refine ⟨value, ?_, by rw [readField, declared]⟩
        rw [held, Option.map_some, restoredField, declared]
    | some property =>
        -- A write keeps track of fields by property, and a read meets them by name.
        obtain ⟨member, rfl⟩ := get?_eq_some declared
        have storesHere := storesAll property member
        rw [get?_hookPass_of_unhooked property.name passed
          fun other otherMember _ => unhooked other otherMember, held] at storesHere
        cases found : document.get? property.name with
        | none => simpa [found] using isSome_storeField storesHere
        | some before =>
            obtain ⟨kept, storesKept, reads⟩ := fieldRestored property member before found
            rw [found, storesKept] at storesHere
            cases storesHere
            exact ⟨_, rfl, reads⟩

/-- A document whose dates can be read back is written, and read back. -/
theorem exists_writeFields_restored (schema : Schema) :
    ∀ {document : Document}, schema.IsDeeplyNormal → schema.IsUntransformed →
      schema.IsUnhooked stage → schema.HasDistinctNames document →
      (schema.AllDates document fun format value =>
        ∃ instant, value = .date instant ∧ instant.readsBack format = true) →
      ∃ stored, writeFields stage schema document document = .ok stored ∧
        readFields schema stored = .ok (schema.restored document) := by
  induction schema using Schema.induction with
  | step schema induction =>
      intro document normal untransformed unhooked distinct storable
      have normalHere := normal schema (.self schema)
      apply exists_writeFields_of_fields normalHere (fun property member => unhooked.here member)
        distinct.here
      intro property member value found
      obtain ⟨unget, unset⟩ := untransformed.here member
      obtain ⟨isStorable, storableInside⟩ := allDates_iff.mp storable property member value found
      refine exists_storeField_restored (normalHere.normal property member) unget unset
        (normalHere.get?_eq member) isStorable ?_
      intro nested carries fields held
      exact induction property member nested carries (normal.of_carries member carries)
        (untransformed.of_carries member carries) (unhooked.of_carries member carries)
        (distinct.inside member carries found held) (storableInside nested carries fields held)

/-- A field of a date property of a valid document is null or a date, at any depth. -/
theorem allDates_of_validate (normal : schema.IsDeeplyNormal)
    (valid : schema.validate document = .ok ()) :
    schema.AllDates document fun _ value => ∃ instant, value = .date instant := by
  intro inner fields governs property member isDate value found notNull
  have admitted := admits_of_validateFields (normal inner governs.nests)
    (validateFields_of_governs governs normal valid) member found notNull
  rw [isDate] at admitted
  cases value with
  | date instant => exact ⟨instant, rfl⟩
  | _ => cases admitted

/-- A valid document is written and read back if its dates can be: those that are stored
as text have a year of four digits, and those that are stored as a count are not in a leap
second after the last supported second.  A leap second is kept in text that writes second 60,
and otherwise read as the next second. -/
theorem valid_reads_back {declarations : Declarations}
    (normalized : ofDeclarations declarations = .ok schema)
    (unhooked : schema.IsUnhooked stage) (untransformed : schema.IsUntransformed)
    (distinct : schema.HasDistinctNames document)
    (valid : schema.validate document = .ok ())
    (readable : schema.AllDates document fun format value =>
      ∀ instant, value = .date instant → instant.readsBack format = true) :
    ∃ stored, schema.write stage document = .ok stored ∧
      schema.read stored = .ok (schema.restored document) := by
  have normal := ofDeclarations_isDeeplyNormal normalized
  apply exists_writeFields_restored schema normal untransformed unhooked distinct
  refine ((allDates_of_validate normal valid).congr ?_).mpr readable
  rintro format _ ⟨instant, rfl⟩
  simp

/-- Visits have a day, a list of changes, each at a time, and a place with a time of
opening. -/
def visitDeclarations : Declarations :=
  [("day", { type := "date", required := true }),
    ("changes", {
      type := "list"
      properties := some
        [("at", { type := "date", format := some .number }), ("note", { type := "string" })] }),
    ("place", { type := "object", properties := some [("opened", { type := "date" })] })]

/-- A time with microseconds. -/
def visitDay : Instant := ⟨86400, 123456789, by decide, by decide⟩

/-- A time in a leap second. -/
def visitLeap : Instant := ⟨1483228799, 1400000000, by decide, by decide⟩

/-- A visit with a change in a leap second, and fields that are not declared. -/
def visit : Document :=
  [("guest", .string "A"),
    ("changes", .list [.null, .map [("note", .null), ("at", .date visitLeap)]]),
    ("place", .map [("floor", .number (.ofInt 2)), ("opened", .date visitDay)]),
    ("day", .date visitDay)]

theorem visit_valid :
    ∃ schema, ofDeclarations visitDeclarations = .ok schema ∧
      schema.IsUnhooked .update ∧ schema.IsUntransformed ∧ schema.HasDistinctNames visit ∧
      schema.validate visit = .ok () ∧
      (schema.AllDates visit fun format value =>
        ∀ instant, value = .date instant → instant.readsBack format = true) := by
  have dayReads : visitDay.readsBack .iso = true := rfl
  have leapReads : visitLeap.readsBack .number = true := rfl
  refine ⟨_, rfl, ?_, ?_, ?_, rfl, ?_⟩
  · rw [IsUnhooked, allProperties_iff]
    intro property member
    simp only [List.mem_cons, List.not_mem_nil, or_false] at member
    rcases member with rfl | rfl | rfl
    · exact ⟨rfl, by rintro nested ⟨⟩⟩
    · refine ⟨rfl, ?_⟩
      rintro nested ⟨⟩
      simp [allProperties_iff_of_flat, StageHooks.at]
    · refine ⟨rfl, ?_⟩
      rintro nested ⟨⟩
      simp [allProperties_iff_of_flat, StageHooks.at]
  · rw [IsUntransformed, allProperties_iff]
    intro property member
    simp only [List.mem_cons, List.not_mem_nil, or_false] at member
    rcases member with rfl | rfl | rfl
    · exact ⟨⟨rfl, rfl⟩, by rintro nested ⟨⟩⟩
    · refine ⟨⟨rfl, rfl⟩, ?_⟩
      rintro nested ⟨⟩
      simp [allProperties_iff_of_flat]
    · refine ⟨⟨rfl, rfl⟩, ?_⟩
      rintro nested ⟨⟩
      simp [allProperties_iff_of_flat]
  · rw [HasDistinctNames, allDocuments_iff]
    refine ⟨by decide, ?_⟩
    intro property member nested carries value found fields held
    simp only [List.mem_cons, List.not_mem_nil, or_false] at member
    rcases member with rfl | rfl | rfl
    · cases carries
    · cases carries
      cases found
      simp only [Value.holds_list_iff, List.mem_cons, List.not_mem_nil, or_false, reduceCtorEq,
        false_or, Value.map.injEq] at held
      subst held
      simp [allDocuments_iff_of_flat, Entries.names]
    · cases carries
      cases found
      cases held
      simp [allDocuments_iff_of_flat, Entries.names]
  · rw [allDates_iff]
    intro property member value found
    simp only [List.mem_cons, List.not_mem_nil, or_false] at member
    rcases member with rfl | rfl | rfl
    · cases found
      refine ⟨?_, by rintro nested ⟨⟩⟩
      rintro - - instant ⟨⟩
      exact dayReads
    · cases found
      refine ⟨by rintro ⟨⟩, ?_⟩
      rintro nested ⟨⟩ fields held
      simp only [Value.holds_list_iff, List.mem_cons, List.not_mem_nil, or_false, reduceCtorEq,
        false_or, Value.map.injEq] at held
      subst held
      simp [AllDates, allDocuments_iff_of_flat, Entries.get?, leapReads]
    · cases found
      refine ⟨by rintro ⟨⟩, ?_⟩
      rintro nested ⟨⟩ fields ⟨⟩
      simp [AllDates, allDocuments_iff_of_flat, Entries.get?, dayReads]

theorem valid_reads_back_of_visit :
    ∃ schema stored, ofDeclarations visitDeclarations = .ok schema ∧
      schema.write .update visit = .ok stored ∧
      schema.read stored = .ok (schema.restored visit) ∧
      schema.restored visit =
        [("guest", .string "A"),
          ("changes", .list [.null,
            .map [("note", .null),
              ("at", .date ⟨1483228800, 400000000, by decide, by decide⟩)]]),
          ("place", .map [("floor", .number (.ofInt 2)),
            ("opened", .date ⟨86400, 123000000, by decide, by decide⟩)]),
          ("day", .date ⟨86400, 123000000, by decide, by decide⟩)] := by
  obtain ⟨schema, normalized, unhooked, untransformed, distinct, valid, readable⟩ := visit_valid
  obtain ⟨stored, written, read⟩ :=
    valid_reads_back normalized unhooked untransformed distinct valid readable
  refine ⟨schema, stored, normalized, written, read, ?_⟩
  cases normalized
  rfl

/-- Closings have a day as a count of milliseconds and a time as text. -/
def closingDeclarations : Declarations :=
  [("day", { type := "date", format := some .number }), ("time", { type := "date" })]

/-- A closing in a leap second after the last supported second. -/
def lastClosing : Document :=
  [("day", .date ⟨Instant.lastSecond, 1000000000, by decide, by decide⟩)]

/-- A closing in a leap second after second 5 of a minute. -/
def strayClosing : Document :=
  [("time", .date ⟨3605, 1700000000, by decide, by decide⟩)]

/-- The count of milliseconds of the last leap second stands for no supported instant, and the
text of a leap second that does not follow second 59 stands for an instant of the next
second. -/
theorem leap_seconds_do_not_read_back :
    ∃ schema, ofDeclarations closingDeclarations = .ok schema ∧
      schema.IsUnhooked .update ∧ schema.IsUntransformed ∧
      (schema.HasDistinctNames lastClosing ∧ schema.validate lastClosing = .ok () ∧
        ∃ stored, schema.write .update lastClosing = .ok stored ∧
          schema.read stored = .error (.invalidDate "day" "8210266876800000")) ∧
      schema.HasDistinctNames strayClosing ∧ schema.validate strayClosing = .ok () ∧
        ∃ stored, schema.write .update strayClosing = .ok stored ∧
          schema.read stored =
            .ok [("time", .date ⟨3606, 700000000, by decide, by decide⟩)] := by
  refine ⟨_, rfl, ?unhooked, ?untransformed, ⟨?_, rfl, _, rfl, rfl⟩, ?_, rfl, _, rfl, rfl⟩
  case unhooked => simp [IsUnhooked, allProperties_iff_of_flat, StageHooks.at]
  case untransformed => simp [IsUntransformed, allProperties_iff_of_flat]
  · simp [HasDistinctNames, allDocuments_iff_of_flat, lastClosing, Entries.names]
  · simp [HasDistinctNames, allDocuments_iff_of_flat, strayClosing, Entries.names]

end Schema

end ItemTable
