import ItemTable.Template

/-!
# Rendering and references

The text of a template depends on no field but those that the template refers to.
-/

namespace ItemTable

theorem Document.supplies_iff {document : Document} {name : String} :
    document.supplies name = true ↔ ∃ value, document.get? name = some value ∧ value ≠ .null := by
  rw [supplies]
  cases found : document.get? name with
  | none => simp
  | some value => cases value <;> simp [Value.isNull]

theorem nodup_eraseDups (names : List String) : names.eraseDups.Nodup := by
  match names with
  | [] => exact List.nodup_nil
  | first :: names =>
      rw [List.eraseDups_cons, List.nodup_cons]
      refine ⟨?_, nodup_eraseDups _⟩
      rw [List.mem_eraseDups, List.mem_filter]
      simp
termination_by names.length
decreasing_by
  have shorter := List.length_filter_le (fun name => !name == first) names
  rw [List.length_cons]
  omega

namespace Template

variable {template : Template}

theorem references_nodup (template : Template) : template.references.Nodup :=
  nodup_eraseDups _

theorem mem_references {name : String} :
    name ∈ template.references ↔ TemplatePiece.field name ∈ template.pieces := by
  rw [references, List.mem_eraseDups, List.mem_filterMap]
  constructor
  · rintro ⟨piece, member, named⟩
    cases piece with
    | char c => cases named
    | field other =>
        cases named
        exact member
  · intro member
    exact ⟨_, member, rfl⟩

theorem render_congr {left right : Document}
    (agree : ∀ name ∈ template.references, fieldText left name = fieldText right name) :
    template.render left = template.render right := by
  rw [render, render, List.flatMap_def, List.flatMap_def]
  apply congrArg String.ofList
  apply congrArg List.flatten
  apply List.map_congr_left
  intro piece member
  cases piece with
  | char c => rfl
  | field name => exact agree name (mem_references.mpr member)

theorem fieldText_congr {left right : Document} {name : String}
    (same : left.get? name = right.get? name) : fieldText left name = fieldText right name := by
  rw [fieldText, fieldText, same]

theorem isSatisfiedBy_iff {document : Document} :
    template.isSatisfiedBy document = true ↔
      ∀ name ∈ template.references, ∃ value, document.get? name = some value ∧ value ≠ .null := by
  rw [isSatisfiedBy, List.all_eq_true]
  simp only [Document.supplies_iff]

theorem isSatisfiedBy_congr {left right : Document}
    (agree : ∀ name ∈ template.references, left.get? name = right.get? name) :
    template.isSatisfiedBy left = template.isSatisfiedBy right := by
  rw [Bool.eq_iff_iff, isSatisfiedBy_iff, isSatisfiedBy_iff]
  exact forall₂_congr fun name referred => by rw [agree name referred]

theorem render_congr_of_get? {left right : Document}
    (agree : ∀ name ∈ template.references, left.get? name = right.get? name) :
    template.render left = template.render right :=
  render_congr fun name referred => fieldText_congr (agree name referred)

end Template

end ItemTable
