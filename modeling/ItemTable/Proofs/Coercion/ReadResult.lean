import ItemTable.Proofs.Coercion.Unreadable

/-!
# What a read changes

Values are compared at every location by what they are apart from what is inside them.  A
read without transforms puts the date that a value denotes where a date is declared, and
leaves everything else as it is: every name with its position, the length of every list,
and every other value.
-/

namespace ItemTable

namespace Value

/-- The value at a location inside a value. -/
def at? : Value → Location → Option Value
  | value, [] => some value
  | .map fields, .field name :: rest =>
      (Entries.get? fields name).bind fun value => at? value rest
  | .list items, .element position :: rest => items[position]?.bind fun item => at? item rest
  | _, _ => none

/-- A value without what is inside it. -/
inductive Node
  | map (names : List String)
  | list (length : Nat)
  | leaf (value : Value)

/-- The names of the fields of a map in order, the length of a list, and any other value. -/
def node : Value → Node
  | .map fields => .map (Entries.names fields)
  | .list items => .list items.length
  | value => .leaf value

/-- Two values are the same at a location, apart from what is inside. -/
def AgreeAt (location : Location) (before after : Value) : Prop :=
  (after.at? location).map node = (before.at? location).map node

variable {value : Value} {step : Step} {rest : Location}

theorem at?_field (fields : Document) (name : String) (rest : Location) :
    (Value.map fields).at? (.field name :: rest) =
      (fields.get? name).bind fun value => value.at? rest :=
  rfl

/-- Nothing is inside a value that denotes an instant. -/
theorem at?_eq_none_of_toInstant? {instant : Instant} (denotes : value.toInstant? = some instant) :
    value.at? (step :: rest) = none := by
  cases value with
  | map fields => cases denotes
  | list items => cases denotes
  | _ => cases step <;> rfl

end Value

namespace Schema

variable {schema nested : Schema} {property : Property} {document fields result : Document}
variable {name : String} {value read : Value} {start location rest : Location}

/-- Whether a date is declared at a location. -/
def IsDateAt (schema : Schema) (document : Document) (location : Location) : Prop :=
  ∃ place, schema.HasPlace document place ∧ place.traits.type = .date ∧
    place.location = location

theorem IsDateAt.field (member : property ∈ schema)
    (found : document.get? property.name = some value) (isDate : property.type = .date) :
    schema.IsDateAt document [.field property.name] :=
  ⟨_, hasPlace_iff.mpr ⟨property, member, value, found, _, Or.inl rfl, rfl⟩, isDate, rfl⟩

theorem IsDateAt.inside (member : property ∈ schema) (carries : property.properties = some nested)
    (found : document.get? property.name = some value) (holds : (start, fields) ∈ value.documents)
    (dateInside : IsDateAt nested fields rest) :
    schema.IsDateAt document (.field property.name :: (start ++ rest)) := by
  obtain ⟨place, has, isDate, rfl⟩ := dateInside
  exact ⟨_, hasPlace_iff.mpr ⟨property, member, value, found, _,
    Or.inr ⟨nested, carries, _, holds, place, has, rfl⟩, rfl⟩, isDate, rfl⟩

theorem names_readFields (reads : readFields schema document = .ok result) :
    result.names = document.names := by
  induction document generalizing result with
  | nil =>
      cases reads
      rfl
  | cons entry document induction =>
      obtain ⟨name, value⟩ := entry
      simp only [readFields_cons, bind_eq_ok_iff] at reads
      obtain ⟨read, -, others, readsRest, built⟩ := reads
      cases built
      exact congrArg (name :: ·) (induction readsRest)

theorem get?_readFields (reads : readFields schema document = .ok result)
    (found : document.get? name = some value) :
    ∃ read, readField schema name value = .ok read ∧ result.get? name = some read := by
  induction document generalizing result with
  | nil => cases found
  | cons entry document induction =>
      obtain ⟨key, first⟩ := entry
      simp only [readFields_cons, bind_eq_ok_iff] at reads
      obtain ⟨read, readsHere, others, readsRest, built⟩ := reads
      cases built
      rw [Entries.get?] at found ⊢
      split at found
      · next same =>
          cases found
          subst same
          exact ⟨read, readsHere, if_pos rfl⟩
      · next different =>
          rw [if_neg different]
          exact induction readsRest found

theorem get?_readFields_eq_none (reads : readFields schema document = .ok result)
    (absent : document.get? name = none) : result.get? name = none := by
  rwa [Entries.get?_eq_none_iff, names_readFields reads, ← Entries.get?_eq_none_iff]

/-- A field that is read is a date of the schema, or what is inside it is read. -/
inductive ReadsField (property : Property) : Value → Value → Prop
  | null : ReadsField property .null .null
  | date {value : Value} {instant : Instant} (isDate : property.type = .date)
      (denotes : value.toInstant? = some instant) : ReadsField property value (.date instant)
  | inside {value read : Value} (notDate : property.type ≠ .date)
      (reads : readInside property.properties value = .ok read) : ReadsField property value read

theorem readsField_of_readField (normal : property.IsNormal) (unget : property.get = none)
    (found : schema.get? name = some property)
    (reads : readField schema name value = .ok read) : ReadsField property value read := by
  by_cases null : value = .null
  · subst null
    rw [readField, found] at reads
    cases reads
    exact .null
  · obtain ⟨inside, readsInside, loads⟩ := (readField_eq_ok_iff found null).mp reads
    by_cases isDate : property.type = .date
    · rw [normal.flat_of_date isDate, readInside_none] at readsInside
      cases readsInside
      obtain ⟨instant, denotes, rfl⟩ :=
        (PropertyTraits.load_eq_ok_iff_of_date unget isDate).mp loads
      exact .date isDate denotes
    · rw [PropertyTraits.load_of_ne_date unget isDate] at loads
      cases loads
      exact .inside isDate readsInside

theorem exists_of_getElem? {coerce : Document → Except CoercionError Document}
    {items results : List Value} {item : Value} {index : Nat}
    (coerced : List.Forall₂ (CoercesElement coerce) items results)
    (found : items[index]? = some item) :
    ∃ after, results[index]? = some after ∧ CoercesElement coerce item after := by
  induction coerced generalizing index with
  | nil => cases found
  | cons coerces _ induction =>
      cases index with
      | zero =>
          cases found
          exact ⟨_, rfl, coerces⟩
      | succ index => exact induction found

/-- Every document inside a value is read, and its result stands where it stood. -/
theorem exists_of_documents_readInside
    (reads : readInside (some nested) value = .ok read)
    (holds : (start, fields) ∈ value.documents) :
    ∃ after, readFields nested fields = .ok after ∧
      ∀ rest, read.at? (start ++ rest) = (Value.map after).at? rest := by
  cases value with
  | map document =>
      cases List.mem_singleton.mp holds
      obtain ⟨after, readsFields, rfl⟩ := map_eq_ok_iff.mp reads
      exact ⟨after, readsFields, fun _ => rfl⟩
  | list items =>
      obtain ⟨index, found, rfl⟩ := Value.mem_documentsAmong.mp holds
      obtain ⟨results, readsItems, rfl⟩ := map_eq_ok_iff.mp reads
      rw [readElements_eq, coerceElements_eq_ok_iff] at readsItems
      obtain ⟨item, foundAfter, coerces⟩ := exists_of_getElem? readsItems found
      cases coerces with
      | document readsFields =>
          refine ⟨_, readsFields, fun rest => ?_⟩
          rw [Nat.zero_add, List.singleton_append, Value.at?, foundAfter, Option.bind_some]
      | other flat => exact absurd rfl (flat fields)
  | _ => cases holds

/-- Reading what is inside a value changes nothing but dates inside its documents. -/
theorem agreeAt_readInside (reads : readInside (some nested) value = .ok read)
    (each : ∀ start fields after rest, (start, fields) ∈ value.documents →
      readFields nested fields = .ok after → location = start ++ rest →
        Value.AgreeAt rest (.map fields) (.map after)) :
    Value.AgreeAt location value read := by
  cases value with
  | map fields =>
      obtain ⟨after, readsFields, rfl⟩ := map_eq_ok_iff.mp reads
      exact each [] fields after location List.mem_cons_self readsFields rfl
  | list items =>
      obtain ⟨results, readsItems, rfl⟩ := map_eq_ok_iff.mp reads
      rw [readElements_eq, coerceElements_eq_ok_iff] at readsItems
      cases location with
      | nil => exact congrArg (some <| Value.Node.list ·) readsItems.length_eq.symm
      | cons step rest =>
          cases step with
          | field name => rfl
          | element index =>
              rw [Value.AgreeAt, Value.at?, Value.at?]
              cases found : items[index]? with
              | none =>
                  rw [List.getElem?_eq_none_iff, readsItems.length_eq,
                    ← List.getElem?_eq_none_iff] at found
                  rw [found]
              | some item =>
                  obtain ⟨after, foundAfter, coerces⟩ := exists_of_getElem? readsItems found
                  rw [foundAfter]
                  cases coerces with
                  | document readsFields =>
                      refine each [.element index] _ _ rest ?_ readsFields rfl
                      exact Value.mem_documentsAmong.mpr ⟨index, found, by rw [Nat.zero_add]⟩
                  | other flat => rfl
  | _ =>
      cases reads
      rfl

/-- Reading a field changes its own value only if it is a date. -/
theorem agreeAt_of_readsField (readsField : ReadsField property value read)
    (notDate : property.type = .date → location ≠ [])
    (each : ∀ nested, property.properties = some nested → ∀ start fields after rest,
      (start, fields) ∈ value.documents → readFields nested fields = .ok after →
        location = start ++ rest → Value.AgreeAt rest (.map fields) (.map after)) :
    Value.AgreeAt location value read := by
  cases readsField with
  | null => rfl
  | @date _ instant isDate denotes =>
      obtain ⟨step, rest, rfl⟩ := List.exists_cons_of_ne_nil (notDate isDate)
      have denotesItself : (Value.date instant).toInstant? = some instant := rfl
      rw [Value.AgreeAt, Value.at?_eq_none_of_toInstant? denotes,
        Value.at?_eq_none_of_toInstant? denotesItself]
  | inside _ readsInside =>
      cases carries : property.properties with
      | none =>
          rw [carries, readInside_none] at readsInside
          cases readsInside
          rfl
      | some nested =>
          rw [carries] at readsInside
          exact agreeAt_readInside readsInside (each nested carries)

/-- A read changes nothing but what stands where dates are declared. -/
theorem agreeAt_readFields (schema : Schema) : schema.IsDeeplyNormal →
    (schema.AllProperties fun property => property.get = none) →
      ∀ (document result : Document) (location : Location),
        readFields schema document = .ok result → ¬ schema.IsDateAt document location →
          Value.AgreeAt location (.map document) (.map result) := by
  induction schema using Schema.induction with
  | step schema induction =>
      intro normal unget document result location reads notDate
      match location with
      | [] => exact congrArg (some <| Value.Node.map ·) (names_readFields reads)
      | .element position :: rest => rfl
      | .field name :: rest =>
          rw [Value.AgreeAt, Value.at?_field, Value.at?_field]
          cases found : document.get? name with
          | none => rw [get?_readFields_eq_none reads found]
          | some value =>
              obtain ⟨read, readsHere, foundRead⟩ := get?_readFields reads found
              rw [foundRead]
              change Value.AgreeAt rest value read
              cases declared : schema.get? name with
              | none =>
                  rw [readField, declared] at readsHere
                  cases readsHere
                  rfl
              | some property =>
                  obtain ⟨member, rfl⟩ := get?_eq_some declared
                  have normalHere := (normal _ (.self _)).normal property member
                  refine agreeAt_of_readsField (readsField_of_readField normalHere
                    (unget.here member) declared readsHere) ?_ ?_
                  · rintro isDate rfl
                    exact notDate (.field member found isDate)
                  · rintro nested carries start fields after inner holds readsFields rfl
                    exact induction property member nested carries
                      (normal.of_carries member carries) (unget.of_carries member carries)
                      fields after inner readsFields fun dateInside =>
                        notDate (.inside member carries found holds dateInside)

/-- Where a date is declared, a read leaves a null and puts the instant that any other value
denotes. -/
theorem at?_readFields (schema : Schema) : schema.IsDeeplyNormal →
    (schema.AllProperties fun property => property.get = none) →
      ∀ (document result : Document) (place : Place), readFields schema document = .ok result →
        schema.HasPlace document place → place.traits.type = .date →
          (place.value = .null ∧ (Value.map result).at? place.location = some .null) ∨
            ∃ instant, place.value.toInstant? = some instant ∧
              (Value.map result).at? place.location = some (.date instant) := by
  induction schema using Schema.induction with
  | step schema induction =>
      intro normal unget document result place reads has isDate
      obtain ⟨property, member, value, found, inner, here, rfl⟩ := hasPlace_iff.mp has
      have normalHere := normal _ (.self _)
      obtain ⟨read, readsHere, foundRead⟩ := get?_readFields reads found
      have readsField := readsField_of_readField (normalHere.normal property member)
        (unget.here member) (normalHere.get?_eq member) readsHere
      have moved : (Value.map result).at? (inner.under [.field property.name]).location =
          read.at? inner.location := by
        rw [Place.location_under, List.singleton_append, Value.at?_field, foundRead,
          Option.bind_some]
      rw [moved]
      rcases here with rfl | ⟨nested, carries, ⟨start, fields⟩, holds, innermost, hasInside, rfl⟩
      · cases readsField with
        | null => exact Or.inl ⟨rfl, rfl⟩
        | date _ denotes => exact Or.inr ⟨_, denotes, rfl⟩
        | inside notDate _ => exact absurd isDate notDate
      · cases readsField with
        | null => cases holds
        | date isDateHere _ =>
            rw [(normalHere.normal property member).flat_of_date isDateHere] at carries
            cases carries
        | inside _ readsInside =>
            rw [carries] at readsInside
            obtain ⟨after, readsFields, stands⟩ :=
              exists_of_documents_readInside readsInside holds
            rw [Place.location_under, stands]
            exact induction property member nested carries (normal.of_carries member carries)
              (unget.of_carries member carries) fields after innermost readsFields hasInside isDate

/-- A read without transforms fails just on declared dates whose values cannot be read, and it
reports the first of them.  Otherwise it puts instants where dates are declared, and every other
value stays as it is and where it is. -/
theorem read_refuses_unreadable_dates {declarations : Declarations}
    (normalized : ofDeclarations declarations = .ok schema)
    (unget : schema.AllProperties fun property => property.get = none)
    (distinct : (Value.map document).isDistinct = true) :
    ((∃ error, schema.read document = .error error) ↔
      ∃ place, schema.HasPlace document place ∧ place.IsUnreadable) ∧
    (∀ error, schema.read document = .error error →
      ∃ place, schema.HasPlace document place ∧ place.IsUnreadable ∧ error = place.dateError ∧
        ∀ other, schema.HasPlace document other → other.IsUnreadable → other = place ∨
          Location.Before (Value.map document).namesAt place.location other.location) ∧
    ∀ result, schema.read document = .ok result →
      (∀ location, ¬ schema.IsDateAt document location →
        Value.AgreeAt location (.map document) (.map result)) ∧
      ∀ place, schema.HasPlace document place → place.traits.type = .date →
        (place.value = .null ∧ (Value.map result).at? place.location = some .null) ∨
          ∃ instant, place.value.toInstant? = some instant ∧
            (Value.map result).at? place.location = some (.date instant) := by
  have normal := ofDeclarations_isDeeplyNormal normalized
  refine ⟨read_fails_iff normal unget distinct, fun error failed => ?_, fun result reads => ?_⟩
  · exact read_reports_first normal unget distinct failed
  · exact ⟨fun location => agreeAt_readFields schema normal unget document result location reads,
      fun place => at?_readFields schema normal unget document result place reads⟩

/-- Trips have a day and legs that start at a time. -/
def tripDeclarations : Declarations :=
  [("day", { type := "date" }),
    ("legs", {
      type := "list"
      properties := some [("from", { type := "string" }), ("start", { type := "date" })] })]

/-- A trip on no day, with a leg that starts at no time. -/
def vagueTrip : Document :=
  [("legs", .list [.null, .map [("from", .string "Oslo"), ("start", .string "soon")]]),
    ("day", .bool true)]

/-- A trip with a leg that starts on the first of January 1970 at two minutes past one. -/
def plannedTrip : Document :=
  [("legs", .list [.map [("start", .string "1970-01-01t01:02:00z"), ("note", .bool true)]]),
    ("day", .null)]

theorem trips_read :
    ∃ schema, ofDeclarations tripDeclarations = .ok schema ∧
      (schema.AllProperties fun property => property.get = none) ∧
      schema.read vagueTrip = .error (.invalidDate "legs[1].start" "soon") ∧
      ∃ result, schema.read plannedTrip = .ok result := by
  refine ⟨_, rfl, ?_, rfl, _, rfl⟩
  rw [allProperties_iff]
  intro property member
  simp only [List.mem_cons, List.not_mem_nil, or_false] at member
  rcases member with rfl | rfl
  · exact ⟨rfl, by rintro nested ⟨⟩⟩
  · refine ⟨rfl, ?_⟩
    rintro nested ⟨⟩
    simp [allProperties_iff_of_flat]

theorem read_refuses_unreadable_dates_of_trips :
    ∃ schema place result, ofDeclarations tripDeclarations = .ok schema ∧
      schema.HasPlace vagueTrip place ∧ place.IsUnreadable ∧
      place.dateError = .invalidDate "legs[1].start" "soon" ∧
      (∀ other, schema.HasPlace vagueTrip other → other.IsUnreadable → other = place ∨
        Location.Before (Value.map vagueTrip).namesAt place.location other.location) ∧
      schema.read plannedTrip = .ok result ∧
      ∀ location, ¬ schema.IsDateAt plannedTrip location →
        Value.AgreeAt location (.map plannedTrip) (.map result) := by
  obtain ⟨schema, normalized, unget, fails, result, reads⟩ := trips_read
  have vague : (Value.map vagueTrip).isDistinct = true := by decide
  have planned : (Value.map plannedTrip).isDistinct = true := by decide
  obtain ⟨-, reports, -⟩ := read_refuses_unreadable_dates normalized unget vague
  obtain ⟨place, has, unreadable, same, first⟩ := reports _ fails
  obtain ⟨-, -, changes⟩ := read_refuses_unreadable_dates normalized unget planned
  exact ⟨schema, place, result, normalized, has, unreadable, same.symm, first, reads,
    (changes result reads).1⟩

end Schema

end ItemTable
