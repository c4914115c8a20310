import ItemTable.Proofs.Location
import ItemTable.Proofs.Schema.Normal

/-!
# Schemas inside schemas

A list or object property may carry a schema for the documents inside its value, which
may have such properties again.  `Nests` says which schemas lie inside a schema at any
depth, and `Governs` to which documents inside a document each of them applies.  The
schemas inside a normal schema are normal too.
-/

namespace ItemTable

/-- The documents that the schema of a property with this value applies to: the value
itself, or those among its elements. -/
inductive Value.Holds : Value → Document → Prop
  | map (fields : Document) : Holds (.map fields) fields
  | element {items : List Value} {fields : Document} (member : .map fields ∈ items) :
      Holds (.list items) fields

theorem Value.holds_map_iff {fields document : Document} :
    Value.Holds (.map fields) document ↔ document = fields := by
  constructor
  · intro holds
    cases holds
    rfl
  · rintro rfl
    exact .map document

theorem Value.holds_list_iff {items : List Value} {document : Document} :
    Value.Holds (.list items) document ↔ .map document ∈ items := by
  constructor
  · intro holds
    cases holds with
    | element member => exact member
  · exact .element

theorem Value.holds_iff_exists_documents {value : Value} {fields : Document} :
    value.Holds fields ↔ ∃ start, (start, fields) ∈ value.documents := by
  cases value with
  | map document => simp [holds_map_iff, documents]
  | list items =>
      simp only [holds_list_iff, documents, mem_documentsAmong]
      constructor
      · intro member
        obtain ⟨index, found⟩ := List.mem_iff_getElem?.mp member
        exact ⟨_, index, found, rfl⟩
      · rintro ⟨_, index, found, -⟩
        exact List.mem_of_getElem? found
  | _ =>
      refine iff_of_false ?_ ?_
      · rintro ⟨⟩
      · rintro ⟨start, ⟨⟩⟩

theorem Value.Holds.ne_null {value : Value} {document : Document} (holds : value.Holds document) :
    value ≠ .null := by
  rintro rfl
  cases holds

namespace Schema

variable {schema nested inner : Schema} {property : Property} {document fields : Document}

/-- The schema itself, and the schemas inside its properties at any depth. -/
inductive Nests : Schema → Schema → Prop
  | self (schema : Schema) : Nests schema schema
  | inside {schema nested inner : Schema} {property : Property} (member : property ∈ schema)
      (carries : property.properties = some nested) (nests : Nests nested inner) :
      Nests schema inner

/-- Every property of the schema and of the schemas inside satisfies a condition. -/
def AllProperties (schema : Schema) (condition : Property → Prop) : Prop :=
  ∀ inner, schema.Nests inner → ∀ property ∈ inner, condition property

theorem AllProperties.here {condition : Property → Prop} (all : schema.AllProperties condition)
    (member : property ∈ schema) : condition property :=
  all schema (.self schema) property member

theorem AllProperties.of_carries {condition : Property → Prop}
    (all : schema.AllProperties condition) (member : property ∈ schema)
    (carries : property.properties = some nested) : AllProperties nested condition :=
  fun inner nests => all inner (.inside member carries nests)

theorem allProperties_iff {condition : Property → Prop} :
    schema.AllProperties condition ↔
      ∀ property ∈ schema, condition property ∧
        ∀ nested, property.properties = some nested → AllProperties nested condition := by
  constructor
  · intro all property member
    exact ⟨all.here member, fun nested carries => all.of_carries member carries⟩
  · intro each inner nests property member
    cases nests with
    | self => exact (each property member).1
    | inside outer carries nests => exact (each _ outer).2 _ carries inner nests property member

theorem allProperties_iff_of_flat {condition : Property → Prop}
    (flat : ∀ property ∈ schema, property.properties = none) :
    schema.AllProperties condition ↔ ∀ property ∈ schema, condition property := by
  rw [allProperties_iff]
  refine forall₂_congr fun property member => ?_
  simp [flat property member]

/-- The document itself, and the documents inside it at any depth, with their schemas. -/
inductive Governs : Schema → Document → Schema → Document → Prop
  | self (schema : Schema) (document : Document) : Governs schema document schema document
  | inside {schema nested inner : Schema} {property : Property} {value : Value}
      {document fields innermost : Document} (member : property ∈ schema)
      (carries : property.properties = some nested)
      (found : document.get? property.name = some value) (holds : value.Holds fields)
      (governs : Governs nested fields inner innermost) :
      Governs schema document inner innermost

/-- The document and the documents inside satisfy a condition with their schemas. -/
def AllDocuments (schema : Schema) (document : Document)
    (condition : Schema → Document → Prop) : Prop :=
  ∀ inner fields, schema.Governs document inner fields → condition inner fields

section AllDocuments

variable {condition : Schema → Document → Prop} {value : Value}

theorem AllDocuments.here (all : schema.AllDocuments document condition) :
    condition schema document :=
  all schema document (.self schema document)

theorem AllDocuments.inside (all : schema.AllDocuments document condition)
    (member : property ∈ schema) (carries : property.properties = some nested)
    (found : document.get? property.name = some value) (held : value.Holds fields) :
    AllDocuments nested fields condition :=
  fun inner innermost governs => all inner innermost (.inside member carries found held governs)

theorem allDocuments_iff :
    schema.AllDocuments document condition ↔
      condition schema document ∧ ∀ property ∈ schema, ∀ nested,
        property.properties = some nested → ∀ value, document.get? property.name = some value →
          ∀ fields, value.Holds fields → AllDocuments nested fields condition := by
  constructor
  · intro all
    refine ⟨all.here, ?_⟩
    intro property member nested carries value found fields held
    exact all.inside member carries found held
  · rintro ⟨here, inside⟩ inner fields governs
    cases governs with
    | self => exact here
    | inside member carries found held governs =>
        exact inside _ member _ carries _ found _ held inner fields governs

/-- A schema without schemas inside applies to the document itself only. -/
theorem allDocuments_iff_of_flat (flat : ∀ property ∈ schema, property.properties = none) :
    schema.AllDocuments document condition ↔ condition schema document := by
  rw [allDocuments_iff, and_iff_left]
  intro property member nested carries
  simp [flat property member] at carries

end AllDocuments

theorem Governs.nests (governs : schema.Governs document inner fields) : schema.Nests inner := by
  induction governs with
  | self schema document => exact .self schema
  | inside member carries _ _ _ induction => exact .inside member carries induction

/-- What holds of a schema if it holds of the schemas of its properties, holds of every
schema. -/
theorem induction {holds : Schema → Prop}
    (step : ∀ schema : Schema,
      (∀ property ∈ schema, ∀ nested, property.properties = some nested → holds nested) →
        holds schema) (schema : Schema) : holds schema := by
  apply step
  intro property member nested carries
  exact induction step nested
termination_by sizeOf schema
decreasing_by
  have smaller := List.sizeOf_lt_of_mem member
  obtain ⟨traits, properties⟩ := property
  cases carries
  simp only [Property.mk.sizeOf_spec, Option.some.sizeOf_spec] at smaller
  omega

end Schema

namespace Declaration

theorem exists_declarations_of_carries {name path : String} {top : Bool}
    {declaration : Declaration} {property : Property} {nested : List Property}
    (normalized : normalize name path top declaration = .ok property)
    (carries : property.properties = some nested) :
    ∃ parent declarations, normalizeAll parent false [] declarations = .ok nested := by
  obtain ⟨type, -, inside, -⟩ := normalize_eq_ok_iff.mp normalized
  rw [carries] at inside
  cases within : declaration.properties with
  | none =>
      rw [within, normalizeInside] at inside
      cases inside
  | some declarations =>
      rw [within, normalizeInside_some] at inside
      split at inside
      · cases inside
      · obtain ⟨properties, levelled, same⟩ := map_eq_ok_iff.mp inside
        cases same
        exact ⟨_, declarations, (normalizeLevel_eq_ok_iff.mp levelled).1⟩

/-- The schemas inside a normalized level are normalized levels. -/
theorem exists_normalizeAll_of_nests {schema inner : Schema} (nests : schema.Nests inner) :
    ∀ {parent : String} {top : Bool} {seen : List String} {declarations : Declarations},
      normalizeAll parent top seen declarations = .ok schema →
        ∃ parent top seen declarations, normalizeAll parent top seen declarations = .ok inner := by
  induction nests with
  | self schema =>
      intro parent top seen declarations normalized
      exact ⟨parent, top, seen, declarations, normalized⟩
  | inside member carries _ induction =>
      intro parent top seen declarations normalized
      obtain ⟨entry, -, normalizedProperty⟩ := exists_declaration_of_mem normalized member
      obtain ⟨inside, nestedDeclarations, normalizedInside⟩ :=
        exists_declarations_of_carries normalizedProperty carries
      exact induction normalizedInside

/-- Every property at every depth of a normalized level is the property of a declaration. -/
theorem exists_declaration_of_nests {parent : String} {top : Bool} {seen : List String}
    {declarations : Declarations} {schema inner : Schema} {property : Property}
    (normalized : normalizeAll parent top seen declarations = .ok schema)
    (nests : schema.Nests inner) (member : property ∈ inner) :
    ∃ name path top declaration, normalize name path top declaration = .ok property := by
  obtain ⟨inside, innerTop, innerSeen, innerDeclarations, normalizedInner⟩ :=
    exists_normalizeAll_of_nests nests normalized
  obtain ⟨entry, -, normalizedProperty⟩ := exists_declaration_of_mem normalizedInner member
  exact ⟨_, _, _, _, normalizedProperty⟩

end Declaration

namespace Schema

/-- A schema that is normal at every depth. -/
def IsDeeplyNormal (schema : Schema) : Prop :=
  ∀ inner, schema.Nests inner → inner.IsNormal

theorem IsDeeplyNormal.of_carries {schema nested : Schema} {property : Property}
    (normal : schema.IsDeeplyNormal) (member : property ∈ schema)
    (carries : property.properties = some nested) : IsDeeplyNormal nested :=
  fun inner nests => normal inner (.inside member carries nests)

theorem ofDeclarations_isDeeplyNormal {declarations : Declarations} {schema : Schema}
    (normalized : ofDeclarations declarations = .ok schema) : schema.IsDeeplyNormal := by
  intro inner nests
  obtain ⟨_, _, _, _, normalizedInner⟩ :=
    Declaration.exists_normalizeAll_of_nests nests (normalizeAll_of_ofDeclarations normalized)
  exact Declaration.normalizeAll_isNormal normalizedInner

end Schema

end ItemTable
