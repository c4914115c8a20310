import ItemTable.Coercion.Write
import ItemTable.Proofs.Entries
import ItemTable.Proofs.Outcome
import ItemTable.Proofs.Schema.Normal
import ItemTable.Proofs.Value

/-!
# Hooks and stored fields

A write runs hooks and stores values in one loop.  When property names are
distinct, the loop does what two passes do: the hooks of the stage run alone on the
domain document, and then every field of the outcome is stored by itself.
-/

namespace ItemTable

namespace PropertyTraits

theorem get?_assign_self (document : Document) (name : String) (value : Option Value) :
    (assign document name value).get? name = value := by
  cases value with
  | none => exact Entries.get?_remove_self document name
  | some value => exact Entries.get?_put_self document name value

theorem get?_assign_of_ne (document : Document) {name other : String} (different : other ≠ name)
    (value : Option Value) : (assign document name value).get? other = document.get? other := by
  cases value with
  | none => exact Entries.get?_remove_of_ne document different
  | some value => exact Entries.get?_put_of_ne document different value

theorem names_assign {document : Document} {name : String} {value : Option Value}
    (same : value.isSome = true ↔ name ∈ document.names) :
    (assign document name value).names = document.names := by
  cases value with
  | none =>
      have absent : name ∉ document.names := fun present => by simpa using same.mpr present
      rw [assign, Entries.remove_of_not_mem absent]
  | some value => exact Entries.names_put_of_mem value (same.mp rfl)

/-- Which names an assignment leaves depends on names only. -/
theorem names_assign_congr {left right : Document} {name : String} {value field : Option Value}
    (same : left.names = right.names) (present : value.isSome = field.isSome) :
    (assign left name value).names = (assign right name field).names := by
  cases value with
  | none =>
      cases field with
      | some _ => cases present
      | none =>
          have names_remove : ∀ entries : Document,
              (entries.remove name).names = entries.names.filter (· ≠ name) := by
            intro entries
            rw [Entries.remove, Entries.names, Entries.names, List.filter_map]
            rfl
          rw [assign, assign, names_remove, names_remove, same]
  | some value =>
      cases field with
      | none => cases present
      | some field =>
          by_cases listed : name ∈ left.names
          · have listedRight : name ∈ right.names := same ▸ listed
            rw [assign, assign, Entries.names_put_of_mem value listed,
              Entries.names_put_of_mem field listedRight, same]
          · have absentRight : name ∉ right.names := same ▸ listed
            rw [assign, assign, Entries.names_put_of_not_mem value listed,
              Entries.names_put_of_not_mem field absentRight, same]

theorem nodup_assign {document : Document} {name : String} {value : Option Value}
    (distinct : document.names.Nodup) : (assign document name value).names.Nodup := by
  cases value with
  | none => exact Entries.nodup_remove distinct
  | some value => exact Entries.nodup_put distinct

variable {traits : PropertyTraits} {stage : WriteStage} {domain : Document}

theorem get?_afterHook_self {value : Option Value}
    (ran : traits.runHook stage domain = .ok value) :
    (traits.afterHook stage domain value).get? traits.name = value := by
  rw [afterHook]
  cases hooked : traits.hooks.at stage with
  | none =>
      rw [runHook, hooked] at ran
      cases ran
      rfl
  | some hook => exact get?_assign_self domain traits.name value

theorem get?_afterHook_of_ne {other : String} (different : other ≠ traits.name)
    (value : Option Value) :
    (traits.afterHook stage domain value).get? other = domain.get? other := by
  rw [afterHook]
  split
  · exact get?_assign_of_ne domain different value
  · rfl

theorem get?_afterHook_of_unhooked (unhooked : traits.hooks.at stage = none) (other : String)
    (value : Option Value) :
    (traits.afterHook stage domain value).get? other = domain.get? other := by
  rw [afterHook, unhooked]
  rfl

end PropertyTraits

namespace Schema

open PropertyTraits (assign get?_assign_self get?_assign_of_ne names_assign names_assign_congr
  nodup_assign get?_afterHook_self get?_afterHook_of_ne get?_afterHook_of_unhooked)

variable {stage : WriteStage}

/-- The hooks of a stage alone, in the order of the schema. -/
def hookPass (stage : WriteStage) : List Property → Document → Except CoercionError Document
  | [], domain => .ok domain
  | property :: rest, domain => do
      let value ← property.runHook stage domain
      hookPass stage rest (property.afterHook stage domain value)

/-- The stored form of the field of a property, after the hooks. -/
def storeField (stage : WriteStage) :
    Property → Option Value → Except CoercionError (Option Value)
  | _, none => .ok none
  | _, some .null => .ok (some .null)
  | ⟨traits, nested⟩, some value =>
      (((writeInside stage nested value).bind traits.store).mapError (·.under traits.name)).map
        some

theorem storeField_of_ne_null {property : Property} {value : Value} (notNull : value ≠ .null) :
    storeField stage property (some value) =
      (((writeInside stage property.properties value).bind property.store).mapError
        (·.under property.name)).map some := by
  obtain ⟨traits, nested⟩ := property
  cases value with
  | null => exact absurd rfl notNull
  | _ => rfl

/-- A value is stored if it is null, or if its documents and then it itself can be. -/
theorem storeField_some_eq_ok {property : Property} {value : Value} {field : Option Value} :
    storeField stage property (some value) = .ok field ↔
      (value = .null ∧ field = some .null) ∨
      (value ≠ .null ∧ ∃ inside stored, writeInside stage property.properties value = .ok inside ∧
        property.store inside = .ok stored ∧ field = some stored) := by
  by_cases null : value = .null
  · subst null
    simp [storeField, eq_comm]
  · rw [storeField_of_ne_null null, map_eq_ok_iff]
    simp only [null, mapError_eq_ok_iff, false_and, ne_eq, not_false_eq_true, true_and, false_or]
    constructor
    · rintro ⟨stored, stores, rfl⟩
      obtain ⟨inside, written, storesInside⟩ := bind_eq_ok_iff.mp stores
      exact ⟨inside, stored, written, storesInside, rfl⟩
    · rintro ⟨inside, stored, written, storesInside, rfl⟩
      exact ⟨stored, bind_eq_ok_iff.mpr ⟨inside, written, storesInside⟩, rfl⟩

/-- A value other than null is stored from a value whose documents are written first. -/
theorem exists_store_of_storeField {property : Property} {value : Option Value} {stored : Value}
    (notNull : stored ≠ .null) (stores : storeField stage property value = .ok (some stored)) :
    ∃ before inside, writeInside stage property.properties before = .ok inside ∧
      property.store inside = .ok stored := by
  cases value with
  | none => cases stores
  | some before =>
      rcases storeField_some_eq_ok.mp stores with
        ⟨-, same⟩ | ⟨-, inside, kept, written, storesInside, same⟩
      · exact absurd (Option.some.inj same) notNull
      · cases same
        exact ⟨before, inside, written, storesInside⟩

/-- A field is written by its hook, and then stored. -/
theorem writeField_eq {property : Property} {domain stored : Document} :
    writeField stage property domain stored =
      (property.runHook stage domain >>= fun value =>
        storeField stage property value >>= fun field =>
          .ok (property.afterHook stage domain value, assign stored property.name field)) := by
  obtain ⟨traits, nested⟩ := property
  rw [writeField]
  refine congrArg (traits.runHook stage domain >>= ·) (funext fun value => ?_)
  split
  · rfl
  · rfl
  · next value notNull =>
      rw [storeField_of_ne_null notNull]
      dsimp only
      cases ((writeInside stage nested value).bind traits.store).mapError (·.under traits.name) <;>
        rfl

theorem writeField_eq_ok {property : Property} {domain stored : Document}
    {after : Document × Document}
    (written : writeField stage property domain stored = .ok after) :
    ∃ value field, property.runHook stage domain = .ok value ∧
      storeField stage property value = .ok field ∧
      after = (property.afterHook stage domain value, assign stored property.name field) := by
  rw [writeField_eq, bind_eq_ok_iff] at written
  obtain ⟨value, ran, written⟩ := written
  obtain ⟨field, stores, built⟩ := bind_eq_ok_iff.mp written
  cases built
  exact ⟨value, field, ran, stores, rfl⟩

/-- A write runs the hooks and stores every field of their outcome. -/
theorem writeFields_eq_ok {properties : List Property} {domain stored result : Document}
    (distinct : (Schema.names properties).Nodup)
    (written : writeFields stage properties domain stored = .ok result) :
    ∃ final, hookPass stage properties domain = .ok final ∧
      (∀ property ∈ properties,
        storeField stage property (final.get? property.name) = .ok (result.get? property.name)) ∧
      (∀ name, name ∉ Schema.names properties → final.get? name = domain.get? name) ∧
      ∀ name, name ∉ Schema.names properties → result.get? name = stored.get? name := by
  induction properties generalizing domain stored with
  | nil =>
      rw [writeFields] at written
      cases written
      exact ⟨domain, rfl, by simp, fun _ _ => rfl, fun _ _ => rfl⟩
  | cons property properties induction =>
      rw [names, List.map_cons, List.nodup_cons] at distinct
      rw [writeFields, bind_eq_ok_iff] at written
      obtain ⟨after, writtenField, writtenRest⟩ := written
      obtain ⟨value, field, ran, stores, rfl⟩ := writeField_eq_ok writtenField
      obtain ⟨final, passed, storesRest, domainRest, storedRest⟩ :=
        induction distinct.2 writtenRest
      have finalHere : final.get? property.name = value := by
        rw [domainRest _ distinct.1]
        exact get?_afterHook_self ran
      have resultHere : result.get? property.name = field := by
        rw [storedRest _ distinct.1]
        exact get?_assign_self stored property.name field
      refine ⟨final, ?_, ?_, ?_, ?_⟩
      · rw [hookPass, ran]
        exact passed
      · intro other member
        rcases List.mem_cons.mp member with rfl | later
        · rw [finalHere, resultHere]
          exact stores
        · exact storesRest other later
      · intro name absent
        rw [names, List.map_cons, List.mem_cons, not_or] at absent
        rw [domainRest name absent.2]
        exact get?_afterHook_of_ne absent.1 value
      · intro name absent
        rw [names, List.map_cons, List.mem_cons, not_or] at absent
        rw [storedRest name absent.2]
        exact get?_assign_of_ne stored absent.1 field

/-- A write holds every name once if what it starts from does. -/
theorem nodup_writeFields {properties : List Property} {domain stored result : Document}
    (distinct : stored.names.Nodup)
    (written : writeFields stage properties domain stored = .ok result) :
    result.names.Nodup := by
  induction properties generalizing domain stored with
  | nil =>
      rw [writeFields] at written
      cases written
      exact distinct
  | cons property properties induction =>
      rw [writeFields, bind_eq_ok_iff] at written
      obtain ⟨after, writtenField, writtenRest⟩ := written
      obtain ⟨value, field, -, -, rfl⟩ := writeField_eq_ok writtenField
      exact induction (nodup_assign distinct) writtenRest

theorem isSome_storeField {property : Property} {value field : Option Value}
    (stores : storeField stage property value = .ok field) : field.isSome = value.isSome := by
  cases value with
  | none =>
      rw [storeField] at stores
      cases stores
      rfl
  | some value =>
      rcases storeField_some_eq_ok.mp stores with ⟨-, rfl⟩ | ⟨-, _, _, -, -, rfl⟩ <;> rfl

theorem hookPass_append {before after : List Property} {domain final : Document}
    (passed : hookPass stage (before ++ after) domain = .ok final) :
    ∃ middle, hookPass stage before domain = .ok middle ∧
      hookPass stage after middle = .ok final := by
  induction before generalizing domain with
  | nil => exact ⟨domain, rfl, passed⟩
  | cons property before induction =>
      rw [List.cons_append, hookPass, bind_eq_ok_iff] at passed
      obtain ⟨value, ran, passedRest⟩ := passed
      obtain ⟨middle, passedBefore, passedAfter⟩ := induction passedRest
      refine ⟨middle, ?_, passedAfter⟩
      rw [hookPass, ran]
      exact passedBefore

/-- Hooks change no field but their own. -/
theorem get?_hookPass_of_unhooked (name : String) {properties : List Property}
    {domain final : Document} (passed : hookPass stage properties domain = .ok final)
    (unhooked : ∀ property ∈ properties, property.name = name →
      property.hooks.at stage = none) : final.get? name = domain.get? name := by
  induction properties generalizing domain with
  | nil =>
      cases passed
      rfl
  | cons property properties induction =>
      rw [hookPass, bind_eq_ok_iff] at passed
      obtain ⟨value, ran, passedRest⟩ := passed
      rw [induction passedRest fun other member => unhooked other (List.mem_cons_of_mem _ member)]
      by_cases same : property.name = name
      · exact get?_afterHook_of_unhooked (unhooked property List.mem_cons_self same) name value
      · exact get?_afterHook_of_ne (fun equality => same equality.symm) value

/-- Properties without hooks leave a document as it is. -/
theorem hookPass_of_unhooked {properties : List Property} (document : Document)
    (unhooked : ∀ property ∈ properties, property.hooks.at stage = none) :
    hookPass stage properties document = .ok document := by
  induction properties with
  | nil => rfl
  | cons property properties induction =>
      rw [List.forall_mem_cons] at unhooked
      rw [hookPass, PropertyTraits.runHook, unhooked.1]
      change hookPass stage properties (property.afterHook stage document _) = .ok document
      rw [PropertyTraits.afterHook, unhooked.1]
      exact induction unhooked.2

/-- One step of the loop leaves both documents with the same names. -/
theorem names_afterHook {property : Property} {domain stored : Document}
    {value field : Option Value} (sameNames : stored.names = domain.names)
    (ran : property.runHook stage domain = .ok value)
    (stores : storeField stage property value = .ok field) :
    (assign stored property.name field).names =
      (property.afterHook stage domain value).names := by
  have present := isSome_storeField stores
  rw [PropertyTraits.afterHook]
  split
  · exact names_assign_congr sameNames present
  · next unhooked =>
      -- Without a hook the domain stays, and the field that is stored is one of its own.
      have own : value = domain.get? property.name := by
        rw [PropertyTraits.runHook, Option.not_isSome_iff_eq_none.mp unhooked] at ran
        exact (Except.ok.inj ran).symm
      rw [names_assign, sameNames]
      rw [present, own, sameNames, Entries.get?_isSome_iff]

theorem names_writeFields {properties : List Property} {domain stored final result : Document}
    (sameNames : stored.names = domain.names)
    (passed : hookPass stage properties domain = .ok final)
    (written : writeFields stage properties domain stored = .ok result) :
    result.names = final.names := by
  induction properties generalizing domain stored with
  | nil =>
      rw [writeFields] at written
      cases written
      cases passed
      exact sameNames
  | cons property properties induction =>
      rw [writeFields, bind_eq_ok_iff] at written
      obtain ⟨after, writtenField, writtenRest⟩ := written
      obtain ⟨value, field, ran, stores, rfl⟩ := writeField_eq_ok writtenField
      rw [hookPass, ran] at passed
      exact induction (names_afterHook sameNames ran stores) passed writtenRest

/-- The loop succeeds if the hooks do and every field that they leave can be stored. -/
theorem exists_writeFields {properties : List Property} {domain stored final : Document}
    (distinct : (Schema.names properties).Nodup)
    (passed : hookPass stage properties domain = .ok final)
    (stores : ∀ property ∈ properties,
      ∃ field, storeField stage property (final.get? property.name) = .ok field) :
    ∃ result, writeFields stage properties domain stored = .ok result := by
  induction properties generalizing domain stored with
  | nil => exact ⟨stored, rfl⟩
  | cons property properties induction =>
      rw [names, List.map_cons, List.nodup_cons] at distinct
      rw [hookPass, bind_eq_ok_iff] at passed
      obtain ⟨value, ran, passedRest⟩ := passed
      -- No later hook has the name, so the field is still what its own hook has left.
      have kept : final.get? property.name = value := by
        rw [get?_hookPass_of_unhooked property.name passedRest fun other member same =>
          absurd (same ▸ List.mem_map_of_mem member) distinct.1]
        exact PropertyTraits.get?_afterHook_self ran
      obtain ⟨field, storesHere⟩ := stores property List.mem_cons_self
      rw [kept] at storesHere
      obtain ⟨result, writtenRest⟩ : ∃ result, writeFields stage properties
          (property.afterHook stage domain value) (assign stored property.name field) =
            .ok result :=
        induction distinct.2 passedRest fun other member =>
          stores other (List.mem_cons_of_mem _ member)
      refine ⟨result, ?_⟩
      rw [writeFields, writeField_eq, ran]
      simpa only [bind, Except.bind, storesHere] using writtenRest

/-- The field of a property is what its hook gives, from the outcome of the hooks before. -/
theorem hookPass_at {before after : List Property} {property : Property}
    {domain final : Document} (distinct : (Schema.names (before ++ property :: after)).Nodup)
    (passed : hookPass stage (before ++ property :: after) domain = .ok final) :
    ∃ middle, hookPass stage before domain = .ok middle ∧
      property.runHook stage middle = .ok (final.get? property.name) := by
  obtain ⟨middle, passedBefore, passedRest⟩ := hookPass_append passed
  rw [hookPass, bind_eq_ok_iff] at passedRest
  obtain ⟨value, ran, passedAfter⟩ := passedRest
  have unseen : property.name ∉ Schema.names after := by
    rw [names, List.map_append, List.map_cons, List.nodup_append] at distinct
    exact (List.nodup_cons.mp distinct.2.1).1
  have kept := get?_hookPass_of_unhooked property.name passedAfter fun other member same =>
    absurd (same ▸ List.mem_map_of_mem member) unseen
  refine ⟨middle, passedBefore, ?_⟩
  rw [kept, get?_afterHook_self ran]
  exact ran

theorem storeField_of_scalar {property : Property} {value stored : Value}
    (plain : property.properties = none) (stores : property.store value = .ok stored) :
    storeField stage property (some value) = .ok (some stored) := by
  rw [storeField_some_eq_ok]
  by_cases null : value = .null
  · subst null
    rw [PropertyTraits.store] at stores
    cases stores
    exact Or.inl ⟨rfl, rfl⟩
  · have written : writeInside stage property.properties value = .ok value := by
      rw [plain]
      cases value <;> rfl
    exact Or.inr ⟨null, value, stored, written, stores, rfl⟩

theorem write_eq_ok {schema : Schema} {document item : Document}
    (distinct : schema.names.Nodup) (written : schema.write stage document = .ok item) :
    ∃ final, hookPass stage schema document = .ok final ∧
      ∀ property ∈ schema,
        storeField stage property (final.get? property.name) = .ok (item.get? property.name) := by
  obtain ⟨final, passed, stores, -⟩ := writeFields_eq_ok distinct written
  exact ⟨final, passed, stores⟩

/-- A create renders a composite from the document that its hook sees, and stores what
it renders. -/
theorem hookPass_composite {schema : Schema} {before after : List Property} {property : Property}
    {template : Template} {filled final item : Document} (normal : schema.IsNormal)
    (split : schema = before ++ property :: after) (composed : property.composite = some template)
    (passed : hookPass .create schema filled = .ok final)
    (stores : ∀ property ∈ schema,
      storeField .create property (final.get? property.name) = .ok (item.get? property.name)) :
    ∃ middle, hookPass .create before filled = .ok middle ∧
      final.get? property.name = some (.string (template.render middle)) ∧
      ∀ stored, property.store (.string (template.render middle)) = .ok stored →
        item.get? property.name = some stored := by
  have member : property ∈ schema := by
    rw [split]
    exact List.mem_append_right before List.mem_cons_self
  have isNormal := normal.normal property member
  obtain ⟨isString, -, hooked⟩ := isNormal.composite template composed
  have distinct := normal.distinct
  rw [split] at distinct passed
  obtain ⟨middle, passedBefore, ran⟩ := hookPass_at distinct passed
  have rendered : final.get? property.name = some (.string (template.render middle)) := by
    rw [PropertyTraits.runHook, StageHooks.at, hooked] at ran
    exact (Except.ok.inj ran).symm
  have scalar : property.properties = none := by
    apply isNormal.scalar
    rw [isString]
    rfl
  refine ⟨middle, passedBefore, rendered, ?_⟩
  intro stored storesText
  have storesHere := stores property member
  rw [rendered, storeField_of_scalar scalar storesText] at storesHere
  exact (Except.ok.inj storesHere).symm

end Schema

end ItemTable
