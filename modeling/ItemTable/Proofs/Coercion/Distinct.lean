import ItemTable.Proofs.Coercion.Hooks
import ItemTable.Proofs.Coercion.Reading

/-!
# Names of written documents

Documents are built by insertion, and a write inserts and removes.  So a written document
holds every name once, at every depth, if the document did and hooks hand out such
values.
-/

namespace ItemTable

/-- A hook that sees documents that hold every name once hands out such documents. -/
def Hook.KeepsDistinct (hook : Hook) : Prop :=
  ∀ value document result, (∀ given ∈ value, given.isDistinct = true) →
    (Value.map document).isDistinct = true → hook value document = .ok (some result) →
      result.isDistinct = true

theorem Value.Holds.isDistinct {value : Value} {document : Document} (held : value.Holds document)
    (distinct : value.isDistinct = true) : (Value.map document).isDistinct = true := by
  cases held with
  | map => exact distinct
  | element member => exact Value.isDistinct_list.mp distinct _ member

namespace Schema

open PropertyTraits (assign)

variable {schema nested : Schema} {property : Property} {stage : WriteStage}
variable {document domain stored result : Document} {value field : Option Value}

/-- The hooks of a stage hand out documents that hold every name once. -/
def KeepsDistinct (schema : Schema) (stage : WriteStage) : Prop :=
  schema.AllProperties fun property =>
    ∀ hook, property.hooks.at stage = some hook → hook.KeepsDistinct

theorem isDistinct_assign {name : String} (distinct : (Value.map document).isDistinct = true)
    (added : ∀ given ∈ value, given.isDistinct = true) :
    (Value.map (assign document name value)).isDistinct = true := by
  cases value with
  | none => exact Value.isDistinct_remove distinct
  | some value => exact Value.isDistinct_put distinct (added value rfl)

theorem isDistinct_runHook {traits : PropertyTraits}
    (keeps : ∀ hook, traits.hooks.at stage = some hook → hook.KeepsDistinct)
    (distinct : (Value.map domain).isDistinct = true)
    (ran : traits.runHook stage domain = .ok value) : ∀ given ∈ value, given.isDistinct = true := by
  have heldDistinct : ∀ given ∈ domain.get? traits.name, given.isDistinct = true :=
    fun given found => Value.isDistinct_of_get? distinct found
  rw [PropertyTraits.runHook] at ran
  split at ran
  · cases ran
    exact heldDistinct
  · next hook hooked =>
      rintro given rfl
      exact keeps hook hooked _ domain given heldDistinct distinct (mapError_eq_ok_iff.mp ran)

theorem isDistinct_afterHook {traits : PropertyTraits}
    (distinct : (Value.map domain).isDistinct = true)
    (added : ∀ given ∈ value, given.isDistinct = true) :
    (Value.map (traits.afterHook stage domain value)).isDistinct = true := by
  rw [PropertyTraits.afterHook]
  split
  · exact isDistinct_assign distinct added
  · exact distinct

theorem isDistinct_coerceInside {coerce : Schema → Document → Except CoercionError Document}
    {carried : Option Schema} {before after : Value}
    (keeps : ∀ schema, carried = some schema → ∀ fields result,
      (Value.map fields).isDistinct = true → coerce schema fields = .ok result →
        (Value.map result).isDistinct = true)
    (distinct : before.isDistinct = true)
    (coerced : coerceInside coerce carried before = .ok after) : after.isDistinct = true := by
  cases carried with
  | none =>
      cases coerced
      exact distinct
  | some schema =>
      cases before with
      | map fields =>
          obtain ⟨result, coercedFields, rfl⟩ := map_eq_ok_iff.mp coerced
          exact keeps schema rfl fields result distinct coercedFields
      | list items =>
          obtain ⟨results, coercedItems, rfl⟩ := map_eq_ok_iff.mp coerced
          rw [Value.isDistinct_list] at distinct ⊢
          intro after member
          obtain ⟨before, inItems, coerces⟩ := exists_of_mem_coerceElements coercedItems member
          cases coerces with
          | document coercedFields =>
              exact keeps schema rfl _ _ (distinct _ inItems) coercedFields
          | other _ => exact distinct after inItems
      | _ =>
          cases coerced
          exact distinct

theorem isDistinct_store {traits : PropertyTraits} {before after : Value}
    (unset : traits.set = none) (distinct : before.isDistinct = true)
    (stores : traits.store before = .ok after) : after.isDistinct = true := by
  by_cases isDate : traits.type = .date
  · rcases (PropertyTraits.store_eq_ok_iff_of_date unset isDate).mp stores with
      ⟨-, rfl⟩ | ⟨instant, -, rfl⟩
    · rfl
    · cases traits.format <;> rfl
  · rw [PropertyTraits.store_of_ne_date unset isDate] at stores
    cases stores
    exact distinct

theorem isDistinct_storeField (unset : property.set = none)
    (keeps : ∀ nested, property.properties = some nested → ∀ fields result,
      (Value.map fields).isDistinct = true → writeFields stage nested fields fields = .ok result →
        (Value.map result).isDistinct = true)
    (distinct : ∀ given ∈ value, given.isDistinct = true)
    (stores : storeField stage property value = .ok field) :
    ∀ given ∈ field, given.isDistinct = true := by
  cases value with
  | none =>
      cases stores
      simp
  | some value =>
      rcases storeField_some_eq_ok.mp stores with
        ⟨-, rfl⟩ | ⟨-, inside, kept, written, storesInside, rfl⟩
      · rintro given ⟨⟩
        rfl
      · rintro given ⟨⟩
        apply isDistinct_store unset _ storesInside
        rw [writeInside_eq] at written
        exact isDistinct_coerceInside keeps (distinct value rfl) written

/-- A write keeps names apart if it does so in each field.  Hooks see the domain document,
so it has to stay distinct as well as the stored one. -/
theorem isDistinct_writeFields_of_each {properties : List Property}
    (keepsHook : ∀ property ∈ properties, ∀ hook, property.hooks.at stage = some hook →
      hook.KeepsDistinct)
    (keepsField : ∀ property ∈ properties, ∀ value field,
      (∀ given ∈ value, given.isDistinct = true) → storeField stage property value = .ok field →
        ∀ given ∈ field, given.isDistinct = true)
    (distinctDomain : (Value.map domain).isDistinct = true)
    (distinctStored : (Value.map stored).isDistinct = true)
    (written : writeFields stage properties domain stored = .ok result) :
    (Value.map result).isDistinct = true := by
  induction properties generalizing domain stored with
  | nil =>
      rw [writeFields] at written
      cases written
      exact distinctStored
  | cons property properties induction =>
      rw [writeFields, bind_eq_ok_iff] at written
      obtain ⟨after, writtenField, writtenRest⟩ := written
      obtain ⟨value, field, ran, stores, rfl⟩ := writeField_eq_ok writtenField
      have distinctValue :=
        isDistinct_runHook (keepsHook property List.mem_cons_self) distinctDomain ran
      exact induction (fun other member => keepsHook other (List.mem_cons_of_mem _ member))
        (fun other member => keepsField other (List.mem_cons_of_mem _ member))
        (isDistinct_afterHook distinctDomain distinctValue)
        (isDistinct_assign distinctStored
          (keepsField property List.mem_cons_self value field distinctValue stores))
        writtenRest

/-- A written document holds every name once if the document does. -/
theorem isDistinct_writeFields (schema : Schema) :
    ∀ {document result : Document}, schema.KeepsDistinct stage →
      (schema.AllProperties fun property => property.set = none) →
      (Value.map document).isDistinct = true →
      writeFields stage schema document document = .ok result →
        (Value.map result).isDistinct = true := by
  induction schema using Schema.induction with
  | step schema induction =>
      intro document result keeps unset distinct written
      refine isDistinct_writeFields_of_each (fun property member => keeps.here member) ?_
        distinct distinct written
      intro property member value field distinctValue stores
      refine isDistinct_storeField (unset.here member) ?_ distinctValue stores
      intro nested carries fields inside distinctFields writes
      exact induction property member nested carries (keeps.of_carries member carries)
        (unset.of_carries member carries) distinctFields writes

/-- The documents that a schema applies to hold every name once. -/
theorem hasDistinctNames_of_isDistinct (distinct : (Value.map document).isDistinct = true) :
    schema.HasDistinctNames document := by
  intro inner fields governs
  induction governs with
  | self => exact (Value.isDistinct_map.mp distinct).1
  | inside _ _ found held _ induction =>
      exact induction (held.isDistinct (Value.isDistinct_of_get? distinct found))

end Schema

end ItemTable
