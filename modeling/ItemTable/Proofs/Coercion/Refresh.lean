import ItemTable.Coercion.Defaults
import ItemTable.Proofs.Coercion.Overwrite
import ItemTable.Proofs.Schema.Normal

/-!
# Refreshed composites

Refreshing renders the composites that have all their fields in one pass, in the order of
the schema.  A composite sees the new values of the composites declared before it and the
old values of those declared after.  So it agrees with the fields that it is made of if
none of these is a later composite that the pass changes, and then another pass changes
nothing.
-/

namespace ItemTable.Schema

variable {schema before after : Schema} {property : Property} {template : Template}
variable {document : Document} {name : String}

/-- Every composite that has all its fields is rendered from them. -/
def IsConsistent (schema : Schema) (document : Document) : Prop :=
  ∀ property ∈ schema, ∀ template, property.composite = some template →
    template.isSatisfiedBy document = true →
      document.get? property.name = some (.string (template.render document))

/-- Every composite is declared after the composites that it refers to. -/
def RefersBack (schema : Schema) : Prop :=
  ∀ before property after template, schema = before ++ property :: after →
    property.composite = some template →
      ∀ name ∈ template.references, name ∉ compositeNames after

theorem get?_refreshField_of_ne (document : Document) (different : name ≠ property.name) :
    (refreshField document property).get? name = document.get? name := by
  unfold refreshField
  split
  · split
    · exact Entries.get?_put_of_ne document different _
    · rfl
  · rfl

theorem refreshField_of_plain (plain : property.composite = none) :
    refreshField document property = document := by
  rw [refreshField, plain]

theorem get?_refreshField_of_composite (composed : property.composite = some template) :
    (refreshField document property).get? property.name =
      if template.isSatisfiedBy document then some (.string (template.render document))
      else document.get? property.name := by
  rw [refreshField, composed]
  dsimp only
  split
  · exact Entries.get?_put_self document _ _
  · rfl

theorem refresh_append (before after : Schema) (document : Document) :
    refresh (before ++ after) document = refresh after (refresh before document) :=
  List.foldl_append

/-- Refreshing changes composites only. -/
theorem get?_refresh_of_not_mem (plain : name ∉ compositeNames schema) :
    (schema.refresh document).get? name = document.get? name := by
  induction schema generalizing document with
  | nil => rfl
  | cons property schema induction =>
      have plainRest : name ∉ compositeNames schema := by
        intro derived
        obtain ⟨other, member, isComposite, same⟩ := mem_compositeNames.mp derived
        exact plain (mem_compositeNames.mpr
          ⟨other, List.mem_cons_of_mem _ member, isComposite, same⟩)
      rw [refresh, List.foldl_cons]
      refine (induction plainRest).trans ?_
      cases composed : property.composite with
      | none => rw [refreshField_of_plain composed]
      | some template =>
          apply get?_refreshField_of_ne
          rintro rfl
          exact plain (mem_compositeNames.mpr
            ⟨property, List.mem_cons_self, by rw [composed]; rfl, rfl⟩)

theorem not_mem_compositeNames_of_split (distinct : schema.names.Nodup)
    (split : schema = before ++ property :: after) :
    property.name ∉ compositeNames before ∧ property.name ∉ compositeNames after := by
  rw [split, names, List.map_append, List.map_cons, List.nodup_append, List.nodup_cons]
    at distinct
  obtain ⟨-, ⟨unseenAfter, -⟩, apart⟩ := distinct
  constructor
  · intro derived
    exact apart _ (compositeNames_subset derived) _ List.mem_cons_self rfl
  · exact fun derived => unseenAfter (compositeNames_subset derived)

/-- The document that the pass has reached holds the new values of the composites declared
before, and the old values of all other fields. -/
theorem get?_refresh_before (distinct : schema.names.Nodup) (split : schema = before ++ after)
    (document : Document) (name : String) :
    (refresh before document).get? name =
      (document.overwrite (schema.refresh document) (compositeNames before)).get? name := by
  rw [Document.get?_overwrite]
  split
  · next derived =>
      have unchanged : name ∉ compositeNames after := by
        intro derivedAfter
        rw [split, names, List.map_append, List.nodup_append] at distinct
        exact distinct.2.2 name (compositeNames_subset derived) name
          (compositeNames_subset derivedAfter) rfl
      rw [split, refresh_append]
      exact (get?_refresh_of_not_mem unchanged).symm
  · next plain => exact get?_refresh_of_not_mem plain

theorem get?_refresh_composite (distinct : schema.names.Nodup)
    (split : schema = before ++ property :: after) (composed : property.composite = some template)
    (document : Document) :
    (schema.refresh document).get? property.name =
      if template.isSatisfiedBy
          (document.overwrite (schema.refresh document) (compositeNames before)) then
        some (.string (template.render
          (document.overwrite (schema.refresh document) (compositeNames before))))
      else document.get? property.name := by
  obtain ⟨unseenBefore, unseenAfter⟩ := not_mem_compositeNames_of_split distinct split
  have seen := get?_refresh_before distinct split document
  have rendered : (schema.refresh document).get? property.name =
      (refreshField (refresh before document) property).get? property.name := by
    rw [split, refresh_append, refresh, List.foldl_cons]
    exact get?_refresh_of_not_mem unseenAfter
  rw [rendered, get?_refreshField_of_composite composed,
    Template.isSatisfiedBy_congr fun name _ => seen name,
    Template.render_congr_of_get? fun name _ => seen name, get?_refresh_of_not_mem unseenBefore]

theorem refresh_of_stays (stays : ∀ property ∈ schema, refreshField document property = document) :
    schema.refresh document = document := by
  induction schema with
  | nil => rfl
  | cons property schema induction =>
      obtain ⟨staysHere, staysRest⟩ := List.forall_mem_cons.mp stays
      rw [refresh, List.foldl_cons, staysHere]
      exact induction staysRest

/-- A document passes through refreshing exactly when its composites are consistent. -/
theorem refresh_eq_self_iff (distinct : schema.names.Nodup) :
    schema.refresh document = document ↔ schema.IsConsistent document := by
  constructor
  · intro same property member template composed satisfied
    obtain ⟨before, after, split⟩ := List.append_of_mem member
    have rendered := get?_refresh_composite distinct split composed document
    have seen : ∀ name, (document.overwrite document (compositeNames before)).get? name =
        document.get? name := by
      intro name
      rw [Document.get?_overwrite, ite_self]
    rwa [same, Template.isSatisfiedBy_congr fun name _ => seen name, if_pos satisfied,
      Template.render_congr_of_get? fun name _ => seen name] at rendered
  · intro consistent
    have stays : ∀ property ∈ schema, refreshField document property = document := by
      intro property member
      rw [refreshField]
      split
      · next template composed =>
          split
          · next satisfied =>
              exact Entries.put_of_get? (consistent property member template composed satisfied)
          · rfl
      · rfl
    exact refresh_of_stays stays

/-- What a composite sees of its fields is what they are in the end, if no later composite
among them changes. -/
theorem get?_overwrite_before (split : schema = before ++ property :: after)
    (other : name ≠ property.name)
    (unchanged : name ∈ compositeNames after →
      document.get? name = (schema.refresh document).get? name) :
    (document.overwrite (schema.refresh document) (compositeNames before)).get? name =
      (schema.refresh document).get? name := by
  rw [Document.get?_overwrite]
  by_cases derived : name ∈ compositeNames schema
  · rcases mem_compositeNames_split (split ▸ derived) other with inBefore | inAfter
    · rw [if_pos inBefore]
    · rw [unchanged inAfter, ite_self]
  · rw [get?_refresh_of_not_mem derived, ite_self]

theorem refresh_agrees {declarations : Declarations}
    (normalized : ofDeclarations declarations = .ok schema)
    (split : schema = before ++ property :: after) (composed : property.composite = some template)
    (satisfied : template.isSatisfiedBy (schema.refresh document) = true)
    (unchanged : ∀ name ∈ template.references, name ∈ compositeNames after →
      document.get? name = (schema.refresh document).get? name) :
    (schema.refresh document).get? property.name =
      some (.string (template.render (schema.refresh document))) := by
  have distinct := (ofDeclarations_isNormal normalized).distinct
  have member : property ∈ schema := by
    rw [split]
    exact List.mem_append_right before List.mem_cons_self
  have irreflexive := not_mem_references_of_ofDeclarations normalized member composed
  have seen : ∀ name ∈ template.references,
      (document.overwrite (schema.refresh document) (compositeNames before)).get? name =
        (schema.refresh document).get? name := by
    intro name referred
    -- No composite refers to itself, so what it refers to is declared before or after it.
    have other : name ≠ property.name := by
      rintro rfl
      exact irreflexive referred
    exact get?_overwrite_before split other (unchanged name referred)
  rw [get?_refresh_composite distinct split composed, Template.isSatisfiedBy_congr seen,
    if_pos satisfied, Template.render_congr_of_get? seen]

/-- A refreshed composite is rendered from the document with the new values of the
composites declared before it, if that has all its fields.  It agrees with the refreshed
document if the later composites that it refers to have not changed, and refreshing again
changes nothing exactly when all composites agree. -/
structure CompositesFollow (schema : Schema) (document refreshed : Document) : Prop where
  rendered : ∀ before property after template, schema = before ++ property :: after →
    property.composite = some template → refreshed.get? property.name =
      if template.isSatisfiedBy (document.overwrite refreshed (compositeNames before)) then
        some (.string (template.render (document.overwrite refreshed (compositeNames before))))
      else document.get? property.name
  agrees : ∀ before property after template, schema = before ++ property :: after →
    property.composite = some template → template.isSatisfiedBy refreshed = true →
      (∀ name ∈ template.references, name ∈ compositeNames after →
        document.get? name = refreshed.get? name) →
          refreshed.get? property.name = some (.string (template.render refreshed))
  stable : schema.refresh refreshed = refreshed ↔ schema.IsConsistent refreshed
  ordered : schema.RefersBack → schema.IsConsistent refreshed

theorem refreshed_composites_follow {declarations : Declarations}
    (normalized : ofDeclarations declarations = .ok schema) (document : Document) :
    schema.CompositesFollow document (schema.refresh document) := by
  have distinct := (ofDeclarations_isNormal normalized).distinct
  refine ⟨?rendered, ?agrees, refresh_eq_self_iff distinct, ?ordered⟩
  case rendered =>
    intro before property after template split composed
    exact get?_refresh_composite distinct split composed document
  case agrees =>
    intro before property after template split composed satisfied unchanged
    exact refresh_agrees normalized split composed satisfied unchanged
  case ordered =>
    intro ordered property member template composed satisfied
    obtain ⟨before, after, split⟩ := List.append_of_mem member
    refine refresh_agrees normalized split composed satisfied ?_
    intro name referred derived
    exact absurd derived (ordered before property after template split composed name referred)

/-- Shelves with a label that is made of a code.  The label is declared first. -/
def shelves : Declarations :=
  [("label", { type := "string", composite := some "Shelf {code}" }),
    ("code", { type := "string", composite := some "{row}-{place}" }),
    ("row", { type := "string", required := true }),
    ("place", { type := "string", required := true })]

theorem shelf_refreshed :
    ∃ schema, ofDeclarations shelves = .ok schema ∧
      (schema.refresh [("row", .string "B"), ("place", .string "7"),
        ("code", .string "B-7")]).get? "label" = some (.string "Shelf B-7") :=
  ⟨_, rfl, rfl⟩

theorem refreshed_composites_follow_of_shelf :
    ∃ schema, ofDeclarations shelves = .ok schema ∧
      (schema.refresh [("row", .string "B"), ("place", .string "7"),
        ("code", .string "B-7")]).get? "label" = some (.string "Shelf B-7") ∧
      schema.CompositesFollow
        [("row", .string "B"), ("place", .string "7"), ("code", .string "B-7")]
        (schema.refresh
          [("row", .string "B"), ("place", .string "7"), ("code", .string "B-7")]) := by
  obtain ⟨schema, normalized, labelled⟩ := shelf_refreshed
  exact ⟨schema, normalized, labelled, refreshed_composites_follow normalized _⟩

/-- A shelf after it was moved from row A to row B. -/
def movedShelf : Document :=
  [("row", .string "B"), ("place", .string "7"), ("code", .string "A-7"),
    ("label", .string "Shelf A-7")]

/-- Refreshed once, the shelf has its new code and still the label of the old one. -/
theorem moved_shelf_keeps_label :
    ∃ schema property template, ofDeclarations shelves = .ok schema ∧
      schema.get? "label" = some property ∧ property.composite = some template ∧
      template.isSatisfiedBy (schema.refresh movedShelf) = true ∧
      template.render (schema.refresh movedShelf) = "Shelf B-7" ∧
      (schema.refresh movedShelf).get? "label" = some (.string "Shelf A-7") ∧
      (schema.refresh (schema.refresh movedShelf)).get? "label" =
        some (.string "Shelf B-7") :=
  ⟨_, _, _, rfl, rfl, rfl, rfl, rfl, rfl, rfl⟩

end ItemTable.Schema
