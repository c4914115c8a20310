import ItemTable.Proofs.Coercion.Hooks
import ItemTable.Proofs.Template

/-!
# Documents before and after composites are rendered

A pass over a schema gives composites new values one after another.  The document that it
sees on the way has the new values of the composites that are declared before, and the old
values of those that are declared after.
-/

namespace ItemTable

/-- A document that takes fields over from an item. -/
def Document.overwrite (document item : Document) (names : List String) : Document :=
  names.foldl (fun document name => PropertyTraits.assign document name (item.get? name)) document

theorem Document.get?_overwrite (document item : Document) (names : List String) (name : String) :
    (document.overwrite item names).get? name =
      if name ∈ names then item.get? name else document.get? name := by
  induction names generalizing document with
  | nil => rfl
  | cons first names induction =>
      have step := induction (PropertyTraits.assign document first (item.get? first))
      rw [overwrite] at step
      rw [overwrite, List.foldl_cons, step]
      by_cases later : name ∈ names
      · simp [later]
      · by_cases same : name = first
        · subst same
          simp [later, PropertyTraits.get?_assign_self]
        · simp [later, same, PropertyTraits.get?_assign_of_ne document same]

theorem Template.fieldText_overwrite (document item : Document) (names : List String)
    (name : String) :
    fieldText (document.overwrite item names) name =
      if name ∈ names then fieldText item name else fieldText document name := by
  have found := Document.get?_overwrite document item names name
  by_cases taken : name ∈ names
  · rw [if_pos taken] at found ⊢
    exact fieldText_congr found
  · rw [if_neg taken] at found ⊢
    exact fieldText_congr found

namespace Schema

/-- The names of the properties that are rendered from templates. -/
def compositeNames (schema : Schema) : List String :=
  Schema.names (schema.filter fun property => property.composite.isSome)

theorem mem_compositeNames {schema : Schema} {name : String} :
    name ∈ schema.compositeNames ↔
      ∃ property ∈ schema, property.composite.isSome = true ∧ property.name = name := by
  simp [compositeNames, names, and_assoc]

variable {schema : Schema} {before after : List Property} {property : Property}
variable {template : Template} {filled item : Document}

theorem compositeNames_subset {schema : Schema} {name : String}
    (derived : name ∈ compositeNames schema) : name ∈ schema.names := by
  obtain ⟨property, member, -, rfl⟩ := mem_compositeNames.mp derived
  exact List.mem_map_of_mem member

theorem compositeNames_append {name : String} (derived : name ∈ compositeNames before) :
    name ∈ compositeNames (before ++ after) := by
  obtain ⟨property, member, isComposite, same⟩ := mem_compositeNames.mp derived
  exact mem_compositeNames.mpr ⟨property, List.mem_append_left after member, isComposite, same⟩

theorem mem_compositeNames_split {name : String}
    (derived : name ∈ compositeNames (before ++ property :: after))
    (other : name ≠ property.name) :
    name ∈ compositeNames before ∨ name ∈ compositeNames after := by
  obtain ⟨found, member, isComposite, same⟩ := mem_compositeNames.mp derived
  rcases List.mem_append.mp member with inBefore | inRest
  · exact Or.inl (mem_compositeNames.mpr ⟨found, inBefore, isComposite, same⟩)
  · rcases List.mem_cons.mp inRest with rfl | inAfter
    · exact absurd same.symm other
    · exact Or.inr (mem_compositeNames.mpr ⟨found, inAfter, isComposite, same⟩)

/-- It makes no difference which value of a later composite a template sees, if both
have the same text. -/
theorem render_overwrite_before (split : schema = before ++ property :: after)
    (irreflexive : property.name ∉ template.references)
    (sameText : ∀ name ∈ template.references, name ∈ compositeNames after →
      Template.fieldText filled name = Template.fieldText item name) :
    template.render (filled.overwrite item (compositeNames before)) =
      template.render (filled.overwrite item schema.compositeNames) := by
  apply Template.render_congr
  intro name referred
  have other : name ≠ property.name := by
    rintro rfl
    exact irreflexive referred
  rw [Template.fieldText_overwrite, Template.fieldText_overwrite]
  by_cases derived : name ∈ compositeNames schema
  · rw [if_pos derived]
    rcases mem_compositeNames_split (split ▸ derived) other with inBefore | inAfter
    · rw [if_pos inBefore]
    · rw [← sameText name referred inAfter, ite_self]
  · have notBefore : name ∉ compositeNames before := by
      intro inBefore
      apply derived
      rw [split]
      exact compositeNames_append inBefore
    rw [if_neg derived, if_neg notBefore]

end Schema

end ItemTable
