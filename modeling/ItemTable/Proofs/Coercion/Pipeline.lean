import ItemTable.Proofs.Coercion.Hooks
import ItemTable.Proofs.Coercion.Inside

/-!
# A write as two passes

The loop of a write carries two documents and changes them in different ways.  Yet it
succeeds exactly when two passes do, of which the first runs the hooks of the stage alone
and the second stores every field of what they leave.  Both documents keep the same names
in the same order, which is the invariant of the loop.

The calls of hooks are listed for the loop and for the pass over the hooks.  Those of the
loop come first among those of the pass, so that no hook is told anything of transforms,
formats or stored values.
-/

namespace ItemTable.Schema

variable {stage : WriteStage} {schema other inner : Schema} {properties : List Property}
variable {property : Property} {document domain stored final result : Document}

/-- The stored form of a value of a property: documents inside are written first, then the
`set` transform and the type take the value itself. -/
def storeValue (stage : WriteStage) (property : Property) (value : Value) :
    Except CoercionError Value :=
  if value.isNull then .ok value
  else
    (coerceInside (fun nested fields => write nested stage fields) property.properties value).bind
      property.store

theorem storeField_eq (property : Property) (value : Value) :
    storeField stage property (some value) =
      ((storeValue stage property value).mapError (·.under property.name)).map some := by
  by_cases null : value = .null
  · subst null
    rfl
  · have notNull : value.isNull = false := by
      rw [← Bool.not_eq_true, Value.isNull_iff]
      exact null
    rw [storeField_of_ne_null null, storeValue, notNull, writeInside_eq]
    rfl

theorem exists_storeField_iff {field : Option Value} :
    (∃ after, storeField stage property field = .ok after) ↔
      ∀ value, field = some value → ∃ after, storeValue stage property value = .ok after := by
  cases field with
  | none => exact iff_of_true ⟨none, rfl⟩ (by simp)
  | some value =>
      simp only [storeField_eq, map_eq_ok_iff, mapError_eq_ok_iff, Option.some.injEq, forall_eq']
      constructor
      · rintro ⟨_, after, stores, -⟩
        exact ⟨after, stores⟩
      · rintro ⟨after, stores⟩
        exact ⟨_, after, stores, rfl⟩

/-- A document and its stored form: the same names in the same order, the stored form of
every declared field, and the other fields as they are. -/
structure StoresAs (schema : Schema) (stage : WriteStage) (final result : Document) : Prop where
  names : result.names = final.names
  declared : ∀ property ∈ schema, ∀ value, final.get? property.name = some value →
    ∃ after, storeValue stage property value = .ok after ∧
      result.get? property.name = some after
  undeclared : ∀ name, name ∉ schema.names → result.get? name = final.get? name

theorem exists_write_iff (distinct : schema.names.Nodup) :
    (∃ result, schema.write stage document = .ok result) ↔
      ∃ final, hookPass stage schema document = .ok final ∧
        ∀ property ∈ schema, ∀ value, final.get? property.name = some value →
          ∃ after, storeValue stage property value = .ok after := by
  constructor
  · rintro ⟨result, written⟩
    obtain ⟨final, passed, stores, -⟩ := writeFields_eq_ok distinct written
    exact ⟨final, passed, fun property member =>
      exists_storeField_iff.mp ⟨_, stores property member⟩⟩
  · rintro ⟨final, passed, stores⟩
    exact exists_writeFields distinct passed fun property member =>
      exists_storeField_iff.mpr (stores property member)

theorem storesAs_of_write (distinct : schema.names.Nodup)
    (written : schema.write stage document = .ok result) :
    ∃ final, hookPass stage schema document = .ok final ∧ schema.StoresAs stage final result := by
  obtain ⟨final, passed, stores, domainRest, storedRest⟩ := writeFields_eq_ok distinct written
  refine ⟨final, passed, names_writeFields rfl passed written, ?_, ?_⟩
  · intro property member value found
    have storesHere := stores property member
    rw [found, storeField_eq, map_eq_ok_iff] at storesHere
    obtain ⟨after, storesValue, same⟩ := storesHere
    exact ⟨after, mapError_eq_ok_iff.mp storesValue, same.symm⟩
  · intro name undeclared
    rw [domainRest name undeclared, storedRest name undeclared]

/-- What a hook is called with: the field of its property and the document so far. -/
structure HookCall where
  name : String
  current : Option Value
  seen : Document

/-- The call of the hook of a property on a document, where there is a hook. -/
def hookCall (stage : WriteStage) (property : Property) (domain : Document) : List HookCall :=
  if (property.hooks.at stage).isSome then
    [⟨property.name, domain.get? property.name, domain⟩]
  else []

/-- A hook is run on its call and nothing else, and without a hook the field is left. -/
theorem runHook_eq_hookCall :
    (property.hooks.at stage = none ∧ hookCall stage property domain = [] ∧
      property.runHook stage domain = .ok (domain.get? property.name)) ∨
    ∃ hook call, property.hooks.at stage = some hook ∧ hookCall stage property domain = [call] ∧
      property.runHook stage domain =
        (hook call.current call.seen).mapError (.hook call.name stage.point) := by
  rw [hookCall, PropertyTraits.runHook]
  cases property.hooks.at stage with
  | none => exact Or.inl ⟨rfl, rfl, rfl⟩
  | some hook => exact Or.inr ⟨hook, _, rfl, rfl, rfl⟩

/-- The calls of hooks in the loop of a write, in order, up to the first failure. -/
def writeCalls (stage : WriteStage) : List Property → Document → Document → List HookCall
  | [], _, _ => []
  | property :: rest, domain, stored =>
      hookCall stage property domain ++
        match writeField stage property domain stored with
        | .ok after => writeCalls stage rest after.1 after.2
        | .error _ => []

/-- The calls when the hooks run alone. -/
def passCalls (stage : WriteStage) : List Property → Document → List HookCall
  | [], _ => []
  | property :: rest, domain =>
      hookCall stage property domain ++
        match property.runHook stage domain with
        | .ok value => passCalls stage rest (property.afterHook stage domain value)
        | .error _ => []

/-- Schemas that agree in their names and in the hooks of a stage, and in nothing else. -/
def SharesHooks (stage : WriteStage) (schema other : Schema) : Prop :=
  List.Forall₂ (fun left right : Property =>
    left.name = right.name ∧ left.hooks.at stage = right.hooks.at stage) schema other

theorem SharesHooks.refl (schema : Schema) : SharesHooks stage schema schema :=
  List.forall₂_same.mpr fun _ _ => ⟨rfl, rfl⟩

theorem writeCalls_prefix_passCalls :
    writeCalls stage properties domain stored <+: passCalls stage properties domain := by
  induction properties generalizing domain stored with
  | nil => exact List.nil_prefix
  | cons property properties induction =>
      rw [writeCalls, passCalls, List.prefix_append_right_inj]
      cases written : writeField stage property domain stored with
      | error _ => exact List.nil_prefix
      | ok after =>
          obtain ⟨value, field, ran, -, rfl⟩ := writeField_eq_ok written
          rw [ran]
          exact induction

/-- A write that succeeds has made all the calls. -/
theorem writeCalls_eq_of_written
    (written : writeFields stage properties domain stored = .ok result) :
    writeCalls stage properties domain stored = passCalls stage properties domain := by
  induction properties generalizing domain stored with
  | nil => rfl
  | cons property properties induction =>
      rw [writeFields, bind_eq_ok_iff] at written
      obtain ⟨after, writtenField, writtenRest⟩ := written
      rw [writeCalls, passCalls, writtenField]
      obtain ⟨value, field, ran, -, rfl⟩ := writeField_eq_ok writtenField
      rw [ran]
      exact congrArg _ (induction writtenRest)

theorem SharesHooks.passCalls_eq (shared : SharesHooks stage schema other) :
    passCalls stage other domain = passCalls stage schema domain := by
  induction shared generalizing domain with
  | nil => rfl
  | @cons property rival schema other same _ induction =>
      obtain ⟨named, hooked⟩ := same
      have sameCall : hookCall stage rival domain = hookCall stage property domain := by
        rw [hookCall, hookCall, named, hooked]
      have sameRun : rival.runHook stage domain = property.runHook stage domain := by
        rw [PropertyTraits.runHook, PropertyTraits.runHook, named, hooked]
      have sameAfter : ∀ value, rival.afterHook stage domain value =
          property.afterHook stage domain value := by
        intro value
        rw [PropertyTraits.afterHook, PropertyTraits.afterHook, named, hooked]
      rw [passCalls, passCalls, sameCall, sameRun]
      cases property.runHook stage domain with
      | error _ => rfl
      | ok value =>
          dsimp only
          rw [sameAfter, induction]

/-- At every level, a write succeeds exactly when its hooks do and the fields that they leave
can be stored, and it holds what is stored of these fields.  The calls of its hooks are
the same, as far as they are made, for all schemas with the same names and hooks. -/
theorem write_takes_two_passes {declarations : Declarations}
    (normalized : ofDeclarations declarations = .ok schema) (nests : schema.Nests inner)
    (stage : WriteStage) (document : Document) :
    ((∃ result, inner.write stage document = .ok result) ↔
      ∃ final, hookPass stage inner document = .ok final ∧
        ∀ property ∈ inner, ∀ value, final.get? property.name = some value →
          ∃ after, storeValue stage property value = .ok after) ∧
    (∀ result, inner.write stage document = .ok result →
      ∃ final, hookPass stage inner document = .ok final ∧
        inner.StoresAs stage final result ∧
        writeCalls stage inner document document = passCalls stage inner document) ∧
    ∀ other, SharesHooks stage inner other →
      writeCalls stage other document document <+: passCalls stage inner document := by
  have distinct := (ofDeclarations_isDeeplyNormal normalized inner nests).distinct
  refine ⟨exists_write_iff distinct, ?_, ?_⟩
  · intro result written
    obtain ⟨final, passed, stores⟩ := storesAs_of_write distinct written
    exact ⟨final, passed, stores, writeCalls_eq_of_written written⟩
  · intro other shared
    rw [← shared.passCalls_eq]
    exact writeCalls_prefix_passCalls

/-- Supplies a time where there is none. -/
def supplyTime : Hook := fun current _ =>
  .ok (some (current.getD (.date ⟨60, 5, by decide, by decide⟩)))

/-- Drops the note of a booking whose time is a date. -/
def dropNote : Hook := fun current seen =>
  match seen.get? "at" with
  | some (.date _) => .ok none
  | _ => .ok current

/-- Bookings have a time, a note, and a code that is stored in another form than the label
shows. -/
def bookingDeclarations : Declarations :=
  [("at", { type := "date", hooks := { onCreate := some supplyTime } }),
    ("note", { type := "string", hooks := { onCreate := some dropNote } }),
    ("code", { type := "string", set := some fun _ => .ok (.string "hidden") }),
    ("label", { type := "string", composite := some "{code}@{at}" }),
    ("guests", {
      type := "list"
      properties := some [("born", { type := "date", format := some .number })] })]

/-- A booking with a field that is not declared. -/
def booking : Document :=
  [("label", .null), ("note", .string "window"), ("code", .string "b"), ("paid", .bool true),
    ("guests", .list [.map [("born", .date ⟨120, 7, by decide, by decide⟩)]])]

/-- What the hooks leave of the booking, and what is stored. -/
theorem write_takes_two_passes_of_booking :
    ∃ schema final result, ofDeclarations bookingDeclarations = .ok schema ∧
      hookPass .create schema booking = .ok final ∧
      schema.write .create booking = .ok result ∧
      result = [("label", .string "b@1970-01-01T00:01:00.000Z"), ("code", .string "hidden"),
        ("paid", .bool true), ("guests", .list [.map [("born", .number (.ofInt 120000))]]),
        ("at", .string "1970-01-01T00:01:00.000Z")] ∧
      schema.StoresAs .create final result := by
  have normalized : ofDeclarations bookingDeclarations = .ok _ := rfl
  obtain ⟨final, passed, stores, -⟩ :=
    (write_takes_two_passes normalized (.self _) .create booking).2.1 _ rfl
  exact ⟨_, final, _, rfl, passed, rfl, rfl, stores⟩

end ItemTable.Schema
