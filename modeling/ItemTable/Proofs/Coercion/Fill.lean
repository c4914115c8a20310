import ItemTable.Coercion.Defaults
import ItemTable.Proofs.Entries

/-!
# Filled documents

Filling in defaults changes no field of the document but those that are absent and
those that hold documents with a schema of their own.
-/

namespace ItemTable.Schema

variable {calls later : Calls} {document filled : Document}

/-- What filling does at one property: the document and the calls after it. -/
inductive FillStep (property : Property) (document : Document) (calls : Calls) :
    Document → Calls → Prop
  /-- There is no default for the absent field. -/
  | absent (missing : document.get? property.name = none)
      (undefaulted : property.default = none) : FillStep property document calls document calls
  /-- The absent field gets its default. -/
  | defaulted {default : DefaultValue} {value : Value} {later : Calls}
      (missing : document.get? property.name = none) (declared : property.default = some default)
      (resolves : default.resolve document calls = (.ok value, later)) :
      FillStep property document calls (document.put property.name value) later
  /-- The document inside the field is filled. -/
  | inside {nested : List Property} {fields filledFields : Document} {later : Calls}
      (carries : property.properties = some nested)
      (supplied : document.get? property.name = some (.map fields))
      (fills : fillFields nested fields calls = (.ok filledFields, later)) :
      FillStep property document calls (document.put property.name (.map filledFields)) later
  /-- Any other value stays. -/
  | kept {value : Value} (supplied : document.get? property.name = some value)
      (flat : ∀ nested fields, property.properties = some nested → value ≠ .map fields) :
      FillStep property document calls document calls

theorem fillInside_of_flat {nested : Option (List Property)} {value : Value}
    (flat : ∀ schema fields, nested = some schema → value ≠ .map fields) :
    fillInside nested value calls = (.ok none, calls) := by
  cases nested with
  | none => rfl
  | some schema =>
      cases value with
      | map fields => exact absurd rfl (flat schema fields rfl)
      | _ => rfl

theorem fillField_eq_ok_iff {property : Property} :
    fillField property document calls = (.ok filled, later) ↔
      FillStep property document calls filled later := by
  obtain ⟨traits, nested⟩ := property
  constructor
  · intro fills
    rw [fillField] at fills
    cases found : document.get? traits.name with
    | none =>
        simp only [found] at fills
        cases declared : traits.default with
        | none =>
            simp only [declared] at fills
            cases fills
            exact .absent found declared
        | some default =>
            simp only [declared] at fills
            split at fills
            · next resolves =>
                cases fills
                exact .defaulted found declared resolves
            · cases fills
    | some value =>
        simp only [found] at fills
        by_cases within : ∃ schema fields, nested = some schema ∧ value = .map fields
        · obtain ⟨schema, fields, rfl, rfl⟩ := within
          rw [fillInside] at fills
          cases reached : fillFields schema fields calls with
          | mk outcome after =>
              cases outcome with
              | error error =>
                  simp only [reached] at fills
                  cases fills
              | ok filledFields =>
                  simp only [reached] at fills
                  cases fills
                  exact .inside rfl found reached
        · have flat : ∀ schema fields, nested = some schema → value ≠ .map fields :=
            fun schema fields carries isMap => within ⟨schema, fields, carries, isMap⟩
          simp only [fillInside_of_flat flat] at fills
          cases fills
          exact .kept found flat
  · intro step
    cases step with
    | absent missing undefaulted =>
        simp only at missing undefaulted
        rw [fillField, missing, undefaulted]
    | defaulted missing declared resolves =>
        simp only at missing declared
        rw [fillField, missing, declared]
        simp only [resolves]
    | inside carries supplied fills =>
        simp only at carries supplied
        subst carries
        rw [fillField, supplied]
        simp only [fillInside, fills]
    | kept supplied flat =>
        simp only at supplied
        rw [fillField, supplied]
        simp only [fillInside_of_flat flat]

theorem fillFields_nil_eq_ok_iff :
    fillFields [] document calls = (.ok filled, later) ↔ filled = document ∧ later = calls := by
  simp [fillFields, eq_comm]

theorem fillFields_cons_eq_ok_iff {property : Property} {properties : List Property} :
    fillFields (property :: properties) document calls = (.ok filled, later) ↔
      ∃ middle between, FillStep property document calls middle between ∧
        fillFields properties middle between = (.ok filled, later) := by
  simp only [← fillField_eq_ok_iff]
  rw [fillFields]
  cases reached : fillField property document calls with
  | mk outcome between =>
      cases outcome with
      | error error => simp
      | ok middle => simp [and_assoc]

theorem FillStep.get?_of_ne {property : Property} {name : String}
    (step : FillStep property document calls filled later) (different : name ≠ property.name) :
    filled.get? name = document.get? name := by
  cases step with
  | absent | kept => rfl
  | defaulted | inside => exact Entries.get?_put_of_ne document different _

/-- What filling does to the field of a property. -/
inductive FillsField (property : Property) (document filled : Document) : Prop
  /-- There is no default for the absent field. -/
  | absent (missing : document.get? property.name = none) (undefaulted : property.default = none)
      (same : filled.get? property.name = none)
  /-- The absent field gets its default. -/
  | defaulted {default : DefaultValue} {middle : Document} {value : Value} {before after : Calls}
      (missing : document.get? property.name = none) (declared : property.default = some default)
      (resolves : default.resolve middle before = (.ok value, after))
      (held : filled.get? property.name = some value)
  /-- The document inside the field is filled. -/
  | inside {nested : List Property} {fields filledFields : Document} {before after : Calls}
      (carries : property.properties = some nested)
      (supplied : document.get? property.name = some (.map fields))
      (fills : fillFields nested fields before = (.ok filledFields, after))
      (held : filled.get? property.name = some (.map filledFields))
  /-- Any other value stays. -/
  | kept {value : Value} (supplied : document.get? property.name = some value)
      (flat : ∀ nested fields, property.properties = some nested → value ≠ .map fields)
      (same : filled.get? property.name = some value)

theorem FillsField.congr {property : Property} {document filled other otherFilled : Document}
    (fills : FillsField property document filled)
    (same : other.get? property.name = document.get? property.name)
    (sameFilled : otherFilled.get? property.name = filled.get? property.name) :
    FillsField property other otherFilled := by
  cases fills with
  | absent missing undefaulted sameField =>
      exact .absent (same.trans missing) undefaulted (sameFilled.trans sameField)
  | defaulted missing declared resolves held =>
      exact .defaulted (same.trans missing) declared resolves (sameFilled.trans held)
  | inside carries supplied fills held =>
      exact .inside carries (same.trans supplied) fills (sameFilled.trans held)
  | kept supplied flat sameField =>
      exact .kept (same.trans supplied) flat (sameFilled.trans sameField)

/-- A field is there after filling, unless it was absent and has no default. -/
theorem FillsField.isSome {property : Property} (fills : FillsField property document filled)
    (undefaulted : property.default = none → (document.get? property.name).isSome = true) :
    (filled.get? property.name).isSome = true := by
  cases fills with
  | absent missing declared _ =>
      have present := undefaulted declared
      simp [missing] at present
  | defaulted _ _ _ held => simp [held]
  | inside _ _ _ held => simp [held]
  | kept _ _ same => simp [same]

theorem FillStep.fillsField {property : Property}
    (step : FillStep property document calls filled later) :
    FillsField property document filled := by
  cases step with
  | absent missing undefaulted => exact .absent missing undefaulted missing
  | defaulted missing declared resolves =>
      exact .defaulted missing declared resolves (Entries.get?_put_self document _ _)
  | inside carries supplied fills =>
      exact .inside carries supplied fills (Entries.get?_put_self document _ _)
  | kept supplied flat => exact .kept supplied flat supplied

theorem FillStep.get?_of_some {property : Property} {value : Value}
    (step : FillStep property document calls filled later)
    (supplied : document.get? property.name = some value) (plain : property.properties = none) :
    filled.get? property.name = some value := by
  cases step with
  | absent | kept => exact supplied
  | defaulted missing _ _ =>
      rw [missing] at supplied
      cases supplied
  | inside carries _ _ =>
      rw [plain] at carries
      cases carries

theorem FillStep.nodup {property : Property}
    (step : FillStep property document calls filled later) (distinct : document.names.Nodup) :
    filled.names.Nodup := by
  cases step with
  | absent | kept => exact distinct
  | defaulted | inside => exact Entries.nodup_put distinct

/-- A field that is supplied stays, unless its property has a schema inside. -/
theorem get?_fillFields_of_some {properties : List Property} {name : String} {value : Value}
    (fills : fillFields properties document calls = (.ok filled, later))
    (supplied : document.get? name = some value)
    (plain : ∀ property ∈ properties, property.name = name → property.properties = none) :
    filled.get? name = some value := by
  induction properties generalizing document calls with
  | nil =>
      obtain ⟨rfl, -⟩ := fillFields_nil_eq_ok_iff.mp fills
      exact supplied
  | cons property properties induction =>
      obtain ⟨middle, between, step, fillsRest⟩ := fillFields_cons_eq_ok_iff.mp fills
      apply induction fillsRest
      · by_cases same : property.name = name
        · subst same
          exact step.get?_of_some supplied (plain property List.mem_cons_self rfl)
        · rw [step.get?_of_ne fun equality => same equality.symm]
          exact supplied
      · intro other member
        exact plain other (List.mem_cons_of_mem _ member)

theorem fillFields_append {before after : List Property}
    (fills : fillFields (before ++ after) document calls = (.ok filled, later)) :
    ∃ middle between, fillFields before document calls = (.ok middle, between) ∧
      fillFields after middle between = (.ok filled, later) := by
  induction before generalizing document calls with
  | nil => exact ⟨document, calls, rfl, fills⟩
  | cons property before induction =>
      obtain ⟨reached, between, step, fillsRest⟩ := fillFields_cons_eq_ok_iff.mp fills
      obtain ⟨middle, last, fillsBefore, fillsAfter⟩ := induction fillsRest
      exact ⟨middle, last, fillFields_cons_eq_ok_iff.mpr ⟨_, _, step, fillsBefore⟩, fillsAfter⟩

theorem get?_fillFields_of_not_mem {properties : List Property} {name : String}
    (fills : fillFields properties document calls = (.ok filled, later))
    (absent : name ∉ Schema.names properties) : filled.get? name = document.get? name := by
  induction properties generalizing document calls with
  | nil =>
      obtain ⟨rfl, -⟩ := fillFields_nil_eq_ok_iff.mp fills
      rfl
  | cons property properties induction =>
      rw [names, List.map_cons, List.mem_cons, not_or] at absent
      obtain ⟨middle, between, step, fillsRest⟩ := fillFields_cons_eq_ok_iff.mp fills
      rw [induction fillsRest absent.2]
      exact step.get?_of_ne absent.1

/-- Filling a document keeps its names apart. -/
theorem nodup_fillFields {properties : List Property} (distinct : document.names.Nodup)
    (fills : fillFields properties document calls = (.ok filled, later)) :
    filled.names.Nodup := by
  induction properties generalizing document calls with
  | nil =>
      obtain ⟨rfl, -⟩ := fillFields_nil_eq_ok_iff.mp fills
      exact distinct
  | cons property properties induction =>
      obtain ⟨middle, between, step, fillsRest⟩ := fillFields_cons_eq_ok_iff.mp fills
      exact induction (step.nodup distinct) fillsRest

/-- Every field is filled by itself. -/
theorem fillFields_eq_ok {properties : List Property}
    (distinct : (Schema.names properties).Nodup)
    (fills : fillFields properties document calls = (.ok filled, later)) :
    ∀ property ∈ properties, FillsField property document filled := by
  induction properties generalizing document calls with
  | nil => simp
  | cons first properties induction =>
      rw [names, List.map_cons, List.nodup_cons] at distinct
      obtain ⟨middle, between, step, fillsRest⟩ := fillFields_cons_eq_ok_iff.mp fills
      intro property member
      rcases List.mem_cons.mp member with rfl | later
      · exact step.fillsField.congr rfl (get?_fillFields_of_not_mem fillsRest distinct.1)
      · have other : property.name ≠ first.name := by
          intro same
          apply distinct.1
          rw [← same]
          exact List.mem_map_of_mem later
        exact (induction distinct.2 fillsRest property later).congr
          (step.get?_of_ne other).symm rfl

/-- An absent composite is rendered from the document as it is filled so far. -/
theorem fillFields_composite {before after : List Property} {property : Property}
    {template : Template} (distinct : (Schema.names (before ++ property :: after)).Nodup)
    (defaulted : property.default = some (.composite template))
    (fills : fillFields (before ++ property :: after) document calls = (.ok filled, later))
    (absent : document.get? property.name = none) :
    ∃ middle between, fillFields before document calls = (.ok middle, between) ∧
      filled.get? property.name = some (.string (template.render middle)) ∧
      ∀ name ∈ Schema.names before, filled.get? name = middle.get? name := by
  rw [names, List.map_append, List.map_cons, List.nodup_append, List.nodup_cons] at distinct
  obtain ⟨-, ⟨unseenAfter, -⟩, apart⟩ := distinct
  obtain ⟨middle, between, fillsBefore, fillsRest⟩ := fillFields_append fills
  have stillAbsent : middle.get? property.name = none := by
    rw [get?_fillFields_of_not_mem fillsBefore]
    · exact absent
    · intro seen
      exact apart property.name seen property.name List.mem_cons_self rfl
  refine ⟨middle, between, fillsBefore, ?_, ?_⟩
  · obtain ⟨reached, last, step, fillsAfter⟩ := fillFields_cons_eq_ok_iff.mp fillsRest
    rw [get?_fillFields_of_not_mem fillsAfter unseenAfter]
    cases step with
    | absent _ undefaulted =>
        rw [defaulted] at undefaulted
        cases undefaulted
    | defaulted _ declared resolves =>
        rw [defaulted] at declared
        cases declared
        cases resolves
        exact Entries.get?_put_self middle property.name _
    | inside _ supplied _ | kept supplied _ =>
        rw [stillAbsent] at supplied
        cases supplied
  · intro name inBefore
    apply get?_fillFields_of_not_mem fillsRest
    intro inRest
    exact apart name inBefore name inRest rfl

end ItemTable.Schema
