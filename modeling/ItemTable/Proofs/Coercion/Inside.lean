import ItemTable.Coercion.Read
import ItemTable.Coercion.Write
import ItemTable.Proofs.ErrorPath
import ItemTable.Proofs.Outcome
import ItemTable.Proofs.Schema.Nested
import ItemTable.Proofs.Value
import Mathlib.Data.List.Forall2

/-!
# Coercing the documents inside a value

Writing and reading go into a value in one way: under a schema, they are applied to the
value itself or to the documents among its elements, and everything else stays.  So
what follows for the documents inside is said once, of any function on documents.
-/

namespace ItemTable

/-- What coercion makes of an element of a list. -/
inductive CoercesElement (coerce : Document → Except CoercionError Document) :
    Value → Value → Prop
  | document {fields result : Document} (coerced : coerce fields = .ok result) :
      CoercesElement coerce (.map fields) (.map result)
  | other {item : Value} (flat : ∀ fields, item ≠ .map fields) : CoercesElement coerce item item

section Elements

variable {coerce first second : Document → Except CoercionError Document}
variable {items results : List Value} {position : Nat}

/-- Coerces the element at a position of a list. -/
def coerceElement (coerce : Document → Except CoercionError Document) (position : Nat) :
    Value → Except CoercionError Value
  | .map fields => ((coerce fields).mapError (·.under (Path.element position))).map .map
  | item => .ok item

theorem coerceElement_eq_ok_iff {item result : Value} :
    coerceElement coerce position item = .ok result ↔ CoercesElement coerce item result := by
  unfold coerceElement
  split
  · next fields =>
      rw [map_eq_ok_iff]
      constructor
      · rintro ⟨after, coerced, rfl⟩
        exact .document (mapError_eq_ok_iff.mp coerced)
      · intro coerces
        cases coerces with
        | document coerced => exact ⟨_, mapError_eq_ok_iff.mpr coerced, rfl⟩
        | other flat => exact absurd rfl (flat fields)
  · next flat =>
      constructor
      · rintro ⟨⟩
        exact .other flat
      · intro coerces
        cases coerces with
        | document _ => exact absurd rfl (flat _)
        | other _ => rfl

theorem coerceElements_cons {item : Value} :
    coerceElements coerce position (item :: items) =
      (coerceElement coerce position item >>= fun first =>
        coerceElements coerce (position + 1) items >>= fun rest => .ok (first :: rest)) := by
  cases item <;> rfl

theorem coerceElements_eq_ok_iff :
    coerceElements coerce position items = .ok results ↔
      List.Forall₂ (CoercesElement coerce) items results := by
  induction items generalizing position results with
  | nil =>
      rw [coerceElements, List.forall₂_nil_left_iff, Except.ok.injEq]
      exact eq_comm
  | cons item items induction =>
      simp only [coerceElements_cons, bind_eq_ok_iff, coerceElement_eq_ok_iff, induction,
        Except.ok.injEq, List.forall₂_cons_left_iff]
      constructor
      · rintro ⟨first, coerces, rest, coercesRest, rfl⟩
        exact ⟨first, rest, coerces, coercesRest, rfl⟩
      · rintro ⟨first, rest, coerces, coercesRest, rfl⟩
        exact ⟨first, coerces, rest, coercesRest, rfl⟩

/-- Every result is made of one of the items. -/
theorem exists_of_mem_coerceElements {after : Value}
    (coerced : coerceElements coerce position items = .ok results) (member : after ∈ results) :
    ∃ before ∈ items, CoercesElement coerce before after := by
  rw [coerceElements_eq_ok_iff] at coerced
  induction coerced with
  | nil => cases member
  | cons coerces _ induction =>
      rcases List.mem_cons.mp member with rfl | later
      · exact ⟨_, List.mem_cons_self, coerces⟩
      · obtain ⟨before, inRest, coercesLater⟩ := induction later
        exact ⟨before, List.mem_cons_of_mem _ inRest, coercesLater⟩

/-- Errors of elements are moved under the location of the document. -/
theorem verdict_coerceElements :
    verdict (coerceElements coerce position items) =
      (Value.documentsAmong position items).forM fun held =>
        (verdict (coerce held.2)).mapError (·.under held.1.path) := by
  induction items generalizing position with
  | nil => rfl
  | cons item items induction =>
      rw [coerceElements_cons, verdict_bind_bind, induction]
      cases item with
      | map fields =>
          have segment : Path.element position = Location.path [.element position] :=
            (Location.path_singleton (.element position)).symm
          rw [coerceElement, verdict_map, verdict_mapError, segment]
          rfl
      | _ => rfl

end Elements

namespace Schema

variable {coerce : Schema → Document → Except CoercionError Document}
variable {nested : Option Schema} {value result : Value} {stage : WriteStage}

/-- Applies a function to the documents inside a value under a schema. -/
def coerceInside (coerce : Schema → Document → Except CoercionError Document) :
    Option Schema → Value → Except CoercionError Value
  | some schema, .map fields => (coerce schema fields).map .map
  | some schema, .list items => (coerceElements (coerce schema) 0 items).map .list
  | _, value => .ok value

/-- Coercing the documents inside is coercing each by itself, up to the first that fails. -/
theorem verdict_coerceInside {schema : Schema} :
    verdict (coerceInside coerce (some schema) value) =
      value.documents.forM fun held =>
        (verdict (coerce schema held.2)).mapError (·.under held.1.path) := by
  cases value with
  | map fields =>
      change verdict ((coerce schema fields).map Value.map) =
        ((verdict (coerce schema fields)).mapError (·.under "") >>= fun _ => pure ())
      rw [verdict_map]
      cases coerce schema fields with
      | ok => rfl
      | error failure =>
          exact congrArg Except.error (CoercionError.actsOn.under_empty failure).symm
  | list items => exact (verdict_map _ _).trans verdict_coerceElements
  | _ => rfl

theorem writeInside_eq :
    writeInside stage nested value =
      coerceInside (fun schema fields => writeFields stage schema fields fields) nested value := by
  cases nested with
  | none => cases value <;> rfl
  | some schema => cases value <;> rfl

theorem readElements_eq {schema : Schema} {position : Nat} {items : List Value} :
    readElements schema position items = coerceElements (readFields schema) position items := by
  induction items generalizing position with
  | nil => rw [readElements, coerceElements]
  | cons item items induction =>
      rw [coerceElements_cons, ← induction]
      cases item with
      | map fields =>
          rw [readElements, if_pos rfl, readInside, coerceElement]
          cases readFields schema fields <;> rfl
      | _ => rfl

theorem readInside_eq : readInside nested value = coerceInside readFields nested value := by
  cases nested with
  | none => cases value <;> rfl
  | some schema =>
      cases value with
      | list items =>
          rw [readInside, coerceInside, readElements_eq]
      | _ => rfl

theorem readInside_none : readInside none value = .ok value := by
  cases value <;> rfl

theorem exists_coerceInside_iff :
    (∃ result, coerceInside coerce nested value = .ok result) ↔
      ∀ schema, nested = some schema → ∀ fields, value.Holds fields →
        ∃ result, coerce schema fields = .ok result := by
  cases nested with
  | none => simp [coerceInside]
  | some schema =>
      rw [← verdict_eq_ok_iff, verdict_coerceInside, forM_eq_ok_iff]
      simp only [mapError_eq_ok_iff, verdict_eq_ok_iff, Option.some.injEq, forall_eq',
        Value.holds_iff_exists_documents, Prod.forall]
      exact ⟨fun each fields ⟨start, member⟩ => each start fields member,
        fun each start fields member => each fields ⟨start, member⟩⟩

/-- Every document inside the result is made of one inside the value. -/
theorem exists_of_holds_coerceInside {schema : Schema} {fields : Document}
    (coerced : coerceInside coerce (some schema) value = .ok result) (held : result.Holds fields) :
    ∃ before, value.Holds before ∧ coerce schema before = .ok fields := by
  cases value with
  | map before =>
      obtain ⟨after, coercedFields, rfl⟩ := map_eq_ok_iff.mp coerced
      rw [Value.holds_map_iff] at held
      subst held
      exact ⟨before, .map before, coercedFields⟩
  | list items =>
      obtain ⟨results, coercedItems, rfl⟩ := map_eq_ok_iff.mp coerced
      rw [Value.holds_list_iff] at held
      obtain ⟨before, member, coerces⟩ := exists_of_mem_coerceElements coercedItems held
      cases coerces with
      | document coercedFields => exact ⟨_, .element member, coercedFields⟩
      | other flat => exact absurd rfl (flat fields)
  | _ =>
      cases coerced
      cases held

theorem isNull_coerceInside (coerced : coerceInside coerce nested value = .ok result) :
    result.isNull = value.isNull := by
  unfold coerceInside at coerced
  split at coerced
  · obtain ⟨fields, -, rfl⟩ := map_eq_ok_iff.mp coerced
    rfl
  · obtain ⟨items, -, rfl⟩ := map_eq_ok_iff.mp coerced
    rfl
  · cases coerced
    rfl

end Schema

end ItemTable
