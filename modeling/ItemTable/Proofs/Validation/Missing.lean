import ItemTable.Proofs.Entries
import ItemTable.Proofs.Schema.Nested
import ItemTable.Validation.Presence

/-!
# Missing fields

The check for missing fields finds none exactly when every required property without a
default has a field, in the document and in all documents inside that a schema governs.
-/

namespace ItemTable.Schema

variable {schema nested : Schema} {document : Document} {parent path : String}

/-- The required properties that meet a condition have fields, in the document and in the
documents inside it. -/
def HasRequired (schema : Schema) (document : Document) (condition : Property → Prop) : Prop :=
  schema.AllDocuments document fun inner fields => ∀ property ∈ inner,
    property.required = true → condition property → (fields.get? property.name).isSome = true

theorem missingFields_eq_nil {properties : List Property} :
    missingFields parent properties document = [] ↔
      ∀ property ∈ properties, missingField parent property document = [] := by
  induction properties with
  | nil => simp [missingFields]
  | cons property properties induction =>
      rw [missingFields, List.append_eq_nil_iff, induction, List.forall_mem_cons]

theorem findInElements_eq_nil {find : String → Document → List String} {holds : Document → Prop}
    (found : ∀ path fields, find path fields = [] ↔ holds fields) {items : List Value} :
    ∀ {position : Nat}, findInElements find path position items = [] ↔
      ∀ fields, Value.map fields ∈ items → holds fields := by
  induction items with
  | nil => simp [findInElements]
  | cons item items induction =>
      intro position
      cases item with
      | map fields => simp [findInElements, found, induction]
      | _ => simp [findInElements, induction]

theorem missingInside_eq_nil {holds : Document → Prop}
    (found : ∀ path fields, missingFields path nested fields = [] ↔ holds fields)
    {value : Value} :
    missingInside path (some nested) value = [] ↔
      ∀ fields, value.Holds fields → holds fields := by
  cases value with
  | map fields => simp [missingInside, found, Value.holds_map_iff]
  | list items => simp [missingInside, findInElements_eq_nil found, Value.holds_list_iff]
  | _ =>
      simp only [missingInside, true_iff]
      intro fields held
      cases held

theorem missingField_eq_nil {property : Property} {holds : Schema → Document → Prop}
    (found : ∀ nested, property.properties = some nested →
      ∀ path fields, missingFields path nested fields = [] ↔ holds nested fields) :
    missingField parent property document = [] ↔
      (property.required = true → property.default = none →
        (document.get? property.name).isSome = true) ∧
      ∀ nested, property.properties = some nested → ∀ value,
        document.get? property.name = some value →
          ∀ fields, value.Holds fields → holds nested fields := by
  obtain ⟨traits, properties⟩ := property
  rw [missingField]
  cases held : document.get? traits.name with
  | none => simp
  | some value =>
      cases properties with
      | none => simp [missingInside]
      | some nested => simp [missingInside_eq_nil (found nested rfl)]

/-- No path is reported exactly when no required field without a default is missing. -/
theorem missingFields_eq_nil_iff (schema : Schema) :
    ∀ parent document, missingFields parent schema document = [] ↔
      schema.HasRequired document fun property => property.default = none := by
  induction schema using Schema.induction with
  | step schema induction =>
      intro parent document
      rw [missingFields_eq_nil, HasRequired, allDocuments_iff]
      constructor
      · intro none
        refine ⟨fun property member =>
          ((missingField_eq_nil (induction property member)).mp (none property member)).1, ?_⟩
        intro property member
        exact ((missingField_eq_nil (induction property member)).mp (none property member)).2
      · rintro ⟨here, inside⟩ property member
        exact (missingField_eq_nil (induction property member)).mpr
          ⟨here property member, inside property member⟩

theorem testRequired_eq_ok :
    schema.testRequired document = .ok () ↔
      schema.HasRequired document fun property => property.default = none := by
  rw [← missingFields_eq_nil_iff schema ""]
  unfold testRequired
  split
  · next none => simp [none]
  · next some => simpa using some

end ItemTable.Schema
