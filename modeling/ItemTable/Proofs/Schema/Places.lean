import ItemTable.Proofs.Location
import ItemTable.Proofs.Schema.Nested

/-!
# Where schemas apply

`GovernsAt` says to which documents inside a document the schemas inside a schema apply, and
at which locations.  What is said of a name at one level is then said of a location in the
whole document (`FoundAt`).

`places` lists the declared fields of a document at every depth, in the order of the document.
-/

namespace ItemTable

/-- A declared field: its location, what its property says, and its value. -/
structure Place where
  location : Location
  traits : PropertyTraits
  value : Value

/-- The same field seen from where `start` starts. -/
def Place.under (start : Location) (place : Place) : Place :=
  { place with location := start ++ place.location }

theorem Place.location_under (start : Location) (place : Place) :
    (place.under start).location = start ++ place.location :=
  rfl

namespace Schema

variable {schema nested : Schema} {property : Property} {document fields : Document}
variable {value : Value} {start location : Location}

/-- The document itself and the documents inside it at any depth, each with its location and
the schema that applies to it. -/
inductive GovernsAt : Schema → Document → Location → Schema → Document → Prop
  | self (schema : Schema) (document : Document) : GovernsAt schema document [] schema document
  | inside {schema nested inner : Schema} {property : Property} {value : Value}
      {document fields innermost : Document} {start rest : Location}
      (member : property ∈ schema) (carries : property.properties = some nested)
      (found : document.get? property.name = some value)
      (holds : (start, fields) ∈ value.documents)
      (governs : GovernsAt nested fields rest inner innermost) :
      GovernsAt schema document (.field property.name :: (start ++ rest)) inner innermost

/-- Whether a location is that of a name of which a condition holds where it stands. -/
def FoundAt (schema : Schema) (document : Document)
    (condition : Schema → Document → String → Prop) (location : Location) : Prop :=
  ∃ outer inner fields name, schema.GovernsAt document outer inner fields ∧
    condition inner fields name ∧ location = outer ++ [.field name]

/-- Whether a location, seen from a property, is found in one of the documents inside. -/
def FoundInside (property : Property) (document : Document)
    (condition : Schema → Document → String → Prop) (location : Location) : Prop :=
  ∃ nested value, property.properties = some nested ∧
    document.get? property.name = some value ∧ ∃ held ∈ value.documents, ∃ rest,
      FoundAt nested held.2 condition rest ∧ location = held.1 ++ rest

/-- A location is found in the document itself or in a document inside. -/
theorem foundAt_iff {condition : Schema → Document → String → Prop} :
    schema.FoundAt document condition location ↔
      (∃ name, condition schema document name ∧ location = [.field name]) ∨
      ∃ property ∈ schema, ∃ rest, FoundInside property document condition rest ∧
        location = .field property.name :: rest := by
  constructor
  · rintro ⟨outer, inner, fields, name, governs, here, rfl⟩
    cases governs with
    | self => exact Or.inl ⟨name, here, rfl⟩
    | inside member carries found holds governs =>
        refine Or.inr ⟨_, member, _, ⟨_, _, carries, found, _, holds, _,
          ⟨_, _, _, name, governs, here, rfl⟩, rfl⟩, ?_⟩
        rw [List.cons_append, List.append_assoc]
  · rintro (⟨name, here, rfl⟩ | ⟨property, member, _, ⟨nested, value, carries, found,
      held, holds, _, ⟨outer, inner, fields, name, governs, here, rfl⟩, rfl⟩, rfl⟩)
    · exact ⟨[], schema, document, name, .self schema document, here, rfl⟩
    · refine ⟨_, _, _, name, .inside member carries found holds governs, here, ?_⟩
      rw [List.cons_append, List.append_assoc]

/-- The names that the schema at a location declares, in order. -/
def namesAt : Schema → Location → List String
  | schema, [] => schema.names
  | schema, .element _ :: rest => namesAt schema rest
  | schema, .field name :: rest =>
      match (Schema.get? schema name).bind fun property => property.properties with
      | some nested => namesAt nested rest
      | none => []

theorem namesAt_nodup (normal : schema.IsDeeplyNormal) (location : Location) :
    (schema.namesAt location).Nodup := by
  induction location generalizing schema with
  | nil => exact (normal _ (.self _)).distinct
  | cons step location induction =>
      cases step with
      | element position => exact induction normal
      | field name =>
          rw [namesAt]
          split
          · next nested carried =>
              obtain ⟨property, found, carries⟩ := Option.bind_eq_some_iff.mp carried
              exact induction (normal.of_carries (get?_eq_some found).1 carries)
          · exact .nil

theorem namesAt_field (normal : schema.IsNormal) (member : property ∈ schema)
    (carries : property.properties = some nested) :
    (fun rest => schema.namesAt (.field property.name :: rest)) = nested.namesAt := by
  funext rest
  rw [namesAt, normal.get?_eq member, Option.bind_some, carries]

/-- A list and its elements have one schema. -/
theorem namesAt_documents (holds : (start, fields) ∈ value.documents) :
    (fun rest => schema.namesAt (start ++ rest)) = schema.namesAt := by
  funext rest
  cases value with
  | map document =>
      cases List.mem_singleton.mp holds
      rfl
  | list items =>
      obtain ⟨index, -, rfl⟩ := Value.mem_documentsAmong.mp holds
      rfl
  | _ => cases holds

section Places

variable {place : Place}

mutual

/-- The declared fields of the documents inside a value. -/
def placesInside (nested : Option (List Property)) : Value → List Place
  | .map fields =>
      match nested with
      | some schema => placesOf schema fields
      | none => []
  | .list items =>
      match nested with
      | some schema => placesAmong schema 0 items
      | none => []
  | _ => []

/-- The declared fields of the documents among list elements. -/
def placesAmong (schema : List Property) : Nat → List Value → List Place
  | _, [] => []
  | position, item :: rest =>
      (if item matches .map _ then
        (placesInside (some schema) item).map (Place.under [.element position])
      else []) ++ placesAmong schema (position + 1) rest

/-- The declared fields of a document, each followed by those inside it. -/
def placesOf (schema : List Property) : List (String × Value) → List Place
  | [] => []
  | (name, value) :: rest =>
      (match Schema.get? schema name with
        | none => []
        | some property =>
            (⟨[], property.toPropertyTraits, value⟩ ::
              placesInside property.properties value).map (Place.under [.field name])) ++
        placesOf schema rest

end

/-- The declared fields of a document at every depth, in depth-first order. -/
def places (schema : Schema) (document : Document) : List Place :=
  placesOf schema document

/-- Whether a place is that of a declared field, in the document or in a document inside. -/
def HasPlace (schema : Schema) (document : Document) (place : Place) : Prop :=
  ∃ outer inner fields property value, schema.GovernsAt document outer inner fields ∧
    property ∈ inner ∧ fields.get? property.name = some value ∧
    place = ⟨outer ++ [.field property.name], property.toPropertyTraits, value⟩

/-- Whether a place, seen from a property, is in one of the documents inside its value. -/
def HasPlaceInside (property : Property) (value : Value) (place : Place) : Prop :=
  ∃ nested, property.properties = some nested ∧ ∃ held ∈ value.documents, ∃ inner,
    HasPlace nested held.2 inner ∧ place = inner.under held.1

theorem hasPlace_iff :
    schema.HasPlace document place ↔
      ∃ property ∈ schema, ∃ value, document.get? property.name = some value ∧ ∃ inner,
        (inner = ⟨[], property.toPropertyTraits, value⟩ ∨ HasPlaceInside property value inner) ∧
          place = inner.under [.field property.name] := by
  constructor
  · rintro ⟨outer, inner, fields, property, value, governs, member, found, rfl⟩
    cases governs with
    | self => exact ⟨property, member, value, found, _, Or.inl rfl, rfl⟩
    | inside outerMember carries outerFound holds governs =>
        refine ⟨_, outerMember, _, outerFound, _, Or.inr ⟨_, carries, _, holds, _,
          ⟨_, _, _, property, value, governs, member, found, rfl⟩, rfl⟩, ?_⟩
        simp [Place.under]
  · rintro ⟨property, member, value, found, _, rfl | ⟨nested, carries, held, holds, _,
      ⟨outer, inner, fields, innerProperty, innerValue, governs, innerMember, innerFound, rfl⟩,
        rfl⟩, rfl⟩
    · exact ⟨[], schema, document, property, value, .self _ _, member, found, rfl⟩
    · refine ⟨_, inner, fields, innerProperty, innerValue,
        .inside member carries found holds governs, innerMember, innerFound, ?_⟩
      simp [Place.under]

theorem HasPlace.location_ne_nil (has : schema.HasPlace document place) : place.location ≠ [] := by
  obtain ⟨outer, inner, fields, property, value, -, -, -, rfl⟩ := has
  exact List.append_ne_nil_of_right_ne_nil _ (List.cons_ne_nil _ _)

theorem placesAmong_eq {position : Nat} {items : List Value} :
    placesAmong nested position items =
      (Value.documentsAmong position items).flatMap fun held =>
        (placesOf nested held.2).map (Place.under held.1) := by
  induction items generalizing position with
  | nil => rfl
  | cons item items induction =>
      cases item with
      | map fields =>
          rw [placesAmong, if_pos rfl, induction]
          rfl
      | _ => exact induction

theorem placesInside_eq :
    placesInside (some nested) value =
      value.documents.flatMap fun held => (placesOf nested held.2).map (Place.under held.1) := by
  cases value with
  | map fields =>
      have unmoved : Place.under [] = id := rfl
      rw [Value.documents, List.flatMap_singleton, unmoved, List.map_id]
      rfl
  | list items => exact placesAmong_eq
  | _ => rfl

theorem placesInside_none : placesInside none value = [] := by
  cases value <;> rfl

/-- The declared fields at and inside one field. -/
def placesAt (schema : Schema) (name : String) (value : Value) : List Place :=
  match schema.get? name with
  | none => []
  | some property =>
      (⟨[], property.toPropertyTraits, value⟩ ::
        placesInside property.properties value).map (Place.under [.field name])

theorem places_eq :
    schema.places document = document.flatMap fun entry => placesAt schema entry.1 entry.2 := by
  rw [places]
  induction document with
  | nil => rfl
  | cons entry document induction =>
      rw [placesOf, induction, List.flatMap_cons]
      rfl

theorem enumerates_placesInside {property : Property} (carries : property.properties = some nested)
    (each : ∀ start fields, (start, fields) ∈ value.documents →
      Location.Enumerates Place.location (Value.map fields).namesAt (nested.places fields)
        (nested.HasPlace fields)) :
    Location.Enumerates Place.location value.namesAt (placesInside (some nested) value)
      (HasPlaceInside property value) := by
  have listed : Location.Enumerates Place.location value.namesAt
      (placesInside (some nested) value) fun place => ∃ held ∈ value.documents, ∃ inner,
        HasPlace nested held.2 inner ∧ place = inner.under held.1 := by
    rw [placesInside_eq]
    apply Location.Enumerates.flatMap
    · rintro ⟨start, fields⟩ holds
      refine .under (Place.location_under start) ?_
      rw [Value.namesAt_documents holds]
      exact each start fields holds
    · refine (value.pairwise_documents value.namesAt).imp ?_
      rintro first second before _ _ ⟨inner, -, rfl⟩ ⟨otherInner, -, rfl⟩
      exact before inner.location otherInner.location
  refine listed.congr fun place => ?_
  simp [HasPlaceInside, carries]

/-- A field comes before those inside it. -/
theorem enumerates_placesAt {name : String} {property : Property}
    (declared : schema.get? name = some property)
    (distinct : (Value.map document).isDistinct = true)
    (found : document.get? name = some value)
    (inside : ∀ nested, property.properties = some nested → ∀ fields,
      (Value.map fields).isDistinct = true →
        Location.Enumerates Place.location (Value.map fields).namesAt (places nested fields)
          (HasPlace nested fields)) :
    Location.Enumerates Place.location (Value.map document).namesAt (placesAt schema name value)
      fun place => ∃ inner, (inner = ⟨[], property.toPropertyTraits, value⟩ ∨
        HasPlaceInside property value inner) ∧ place = inner.under [.field name] := by
  rw [placesAt, declared]
  refine .under (Place.location_under [.field name]) ?_
  simp only [List.singleton_append, Value.namesAt_field found]
  have valueDistinct := Value.isDistinct_of_get? distinct found
  have inner : Location.Enumerates Place.location value.namesAt
      (placesInside property.properties value) (HasPlaceInside property value) := by
    cases carries : property.properties with
    | none =>
        rw [placesInside_none]
        refine .nil ?_
        rintro place ⟨nested, carried, -⟩
        rw [carries] at carried
        cases carried
    | some nested =>
        refine enumerates_placesInside carries fun start fields holds => ?_
        exact inside nested carries fields (Value.isDistinct_of_documents valueDistinct holds)
  refine inner.cons ?_
  rintro _ ⟨nested, -, held, -, place, has, rfl⟩
  have nonempty : held.1 ++ place.location ≠ [] :=
    List.append_ne_nil_of_right_ne_nil _ has.location_ne_nil
  obtain ⟨step, rest, same⟩ := List.exists_cons_of_ne_nil nonempty
  rw [Place.location_under, same]
  exact .root step rest

theorem hasPlace_iff_of_isNormal (normal : schema.IsNormal) (distinct : document.names.Nodup) :
    schema.HasPlace document place ↔
      ∃ entry ∈ document, ∃ property, schema.get? entry.1 = some property ∧ ∃ inner,
        (inner = ⟨[], property.toPropertyTraits, entry.2⟩ ∨
          HasPlaceInside property entry.2 inner) ∧ place = inner.under [.field entry.1] := by
  rw [hasPlace_iff]
  constructor
  · rintro ⟨property, member, value, found, inner, here⟩
    exact ⟨(property.name, value), Entries.mem_of_get? found, property, normal.get?_eq member,
      inner, here⟩
  · rintro ⟨⟨name, value⟩, member, property, declared, inner, here⟩
    obtain ⟨listed, rfl⟩ := get?_eq_some declared
    exact ⟨property, listed, value, Entries.get?_of_mem distinct member, inner, here⟩

/-- The places are those of the declared fields at every depth, in the order of the document. -/
theorem enumerates_places (schema : Schema) : schema.IsDeeplyNormal → ∀ document,
    (Value.map document).isDistinct = true →
      Location.Enumerates Place.location (Value.map document).namesAt (schema.places document)
        (schema.HasPlace document) := by
  induction schema using Schema.induction with
  | step schema induction =>
      intro normal document distinct
      have namesDistinct := (Value.isDistinct_map.mp distinct).1
      rw [places_eq]
      refine (Location.Enumerates.flatMap ?_ ?_).congr fun place =>
        (hasPlace_iff_of_isNormal (normal _ (.self _)) namesDistinct).symm
      · rintro ⟨name, value⟩ member
        cases declared : schema.get? name with
        | none =>
            rw [placesAt, declared]
            exact .nil (by simp)
        | some property =>
            have listed := (get?_eq_some declared).1
            refine (enumerates_placesAt declared distinct
              (Entries.get?_of_mem namesDistinct member) ?_).congr fun place => by simp
            intro nested carries
            exact induction property listed nested carries (normal.of_carries listed carries)
      · have ordered : (Value.map document).namesAt [] = document.map Prod.fst := rfl
        refine (Location.pairwise_fields ordered).imp ?_
        rintro entry later before _ _ ⟨_, -, inner, -, rfl⟩ ⟨_, -, otherInner, -, rfl⟩
        exact before inner.location otherInner.location

end Places

end Schema

end ItemTable
