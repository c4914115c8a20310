import ItemTable.Proofs.Expression.Assignments
import ItemTable.Proofs.Table.Keys

/-!
# What updates and upserts do to an item

The statement of an update or an upsert is read back from the text of the request and
executed on a stored item.  Neither changes a key attribute, whatever the caller gives
and whatever hooks produce, since key attributes are taken away from what is written.

An update does not see the key attributes among the changes at all: they are taken away
before anything but the search for undeclared fields, which never reports them.

Documents are built by insertion, so they hold every name once, and what is written from
them does so too.  No statement therefore assigns an attribute twice.
-/

namespace ItemTable

namespace Schema

/-- A declared field without a schema inside is never reported as undeclared. -/
theorem unexpectedFields_remove {schema : Schema} {property : Property} {name : String}
    (found : schema.get? name = some property) (flat : property.properties = none)
    (parent : String) (document : Document) :
    unexpectedFields parent schema (document.remove name) =
      unexpectedFields parent schema document := by
  induction document with
  | nil => rfl
  | cons field document induction =>
      obtain ⟨fieldName, value⟩ := field
      rw [Entries.remove] at induction ⊢
      by_cases same : fieldName = name
      · subst same
        have unreported : unexpectedInside (Path.join parent fieldName) property.properties value =
            [] := by
          rw [flat]
          cases value <;> rfl
        rw [List.filter_cons_of_neg (by simp), induction, unexpectedFields, found]
        simp only [unreported, List.nil_append]
      · rw [List.filter_cons_of_pos (by simpa using same), unexpectedFields, unexpectedFields,
          induction]

end Schema

namespace Table

variable {table : Table} {document changes item : Document}

theorem get?_withoutKey (table : Table) (document : Document) (name : String) :
    (table.withoutKey document).get? name =
      if name ∈ table.key.attributes then none else document.get? name :=
  Entries.get?_foldl_remove document table.key.attributes name

theorem nodup_withoutKey (table : Table) (distinct : document.names.Nodup) :
    (table.withoutKey document).names.Nodup :=
  Entries.nodup_foldl_remove table.key.attributes distinct

theorem key_isFlat {title : String} {declarations : Declarations} {key : KeySchema}
    {indexes : List IndexDefinition} {config : Config}
    (defined : define title declarations key indexes config = .ok table) :
    ∀ name ∈ table.key.attributes, ∃ property, table.schema.get? name = some property ∧
      property.properties = none := by
  obtain ⟨normalized, tested⟩ := define_eq_ok defined
  have normal := Schema.ofDeclarations_isNormal normalized
  intro name member
  obtain ⟨property, found, keyType⟩ := Schema.testKey_eq_ok tested name member
  have declared := (Schema.get?_eq_some found).1
  exact ⟨property, found, (normal.normal property declared).scalar
    (AttributeType.isScalar_of_isKeyType keyType)⟩

/-- The search for undeclared fields does not see key attributes. -/
theorem testStrict_withoutKey
    (flat : ∀ name ∈ table.key.attributes, ∃ property, table.schema.get? name = some property ∧
      property.properties = none) (document : Document) :
    table.testStrict (table.withoutKey document) = table.testStrict document := by
  have unreported : Schema.unexpectedFields "" table.schema (table.withoutKey document) =
      Schema.unexpectedFields "" table.schema document := by
    rw [withoutKey]
    generalize table.key.attributes = attributes at flat
    induction attributes generalizing document with
    | nil => rfl
    | cons first attributes induction =>
        obtain ⟨property, found, isFlat⟩ := flat first List.mem_cons_self
        rw [List.foldl_cons,
          induction _ fun name later => flat name (List.mem_cons_of_mem _ later)]
        exact Schema.unexpectedFields_remove found isFlat "" document
  rw [testStrict, testStrict, Schema.testDeclared, Schema.testDeclared, unreported]

/-! ## Updates -/

/-- The assignments of an update are those of the written changes without the key. -/
theorem assignments?_of_update {key : Document} {condition : Option Where}
    {request : UpdateRequest} (updated : table.update key changes condition = .ok request) :
    ∃ stored, table.write .update (table.withoutKey changes) = .ok stored ∧
      request.assignments? = some ((table.withoutKey stored).assignments fun _ => true) := by
  obtain ⟨keyDocument, stored, statement, guard, -, -, -, written, printed, -, rfl⟩ :=
    update_eq_ok updated
  exact ⟨stored, written,
    UpdateRequest.assignments?_withCondition printed table.tableName keyDocument guard⟩

theorem nodup_write {stage : WriteStage} {stored : Document} (distinct : document.names.Nodup)
    (written : table.write stage document = .ok stored) : stored.names.Nodup :=
  Schema.nodup_writeFields distinct (mapError_eq_ok_iff.mp written)

/-- An update overwrites just the written changes other than key attributes, and it is the
same for any two documents that differ in key attributes only. -/
theorem update_keeps_key {title : String} {declarations : Declarations} {key : KeySchema}
    {indexes : List IndexDefinition} {config : Config}
    (defined : define title declarations key indexes config = .ok table) :
    (∀ keyDocument changes condition request, changes.names.Nodup →
      table.update keyDocument changes condition = .ok request →
      ∃ stored, table.write .update (table.withoutKey changes) = .ok stored ∧
        ∀ item, ∃ updated, request.execute? item = some updated ∧
          ∀ name, updated.get? name =
            if name ∈ table.key.attributes then item.get? name
            else (stored.get? name).or (item.get? name)) ∧
    ∀ keyDocument left right condition, table.withoutKey left = table.withoutKey right →
      table.update keyDocument left condition = table.update keyDocument right condition := by
  constructor
  · intro keyDocument changes condition request distinct updated
    obtain ⟨stored, written, assigned⟩ := assignments?_of_update updated
    refine ⟨stored, written, fun item => ?_⟩
    have distinctStored : (table.withoutKey stored).names.Nodup :=
      nodup_withoutKey table (nodup_write (nodup_withoutKey table distinct) written)
    obtain ⟨result, executed, values⟩ :=
      Document.execute?_assignments distinctStored (fun _ => true) item
    refine ⟨result, ?_, fun name => ?_⟩
    · rw [UpdateRequest.execute?, assigned]
      exact executed
    · rw [values, get?_withoutKey]
      split
      · rfl
      · cases stored.get? name <;> rfl
  · intro keyDocument left right condition same
    -- Only the strict test is given the key attributes, so it is compared apart.
    have sameStrict : table.testStrict left = table.testStrict right := by
      rw [← testStrict_withoutKey (key_isFlat defined) left, same,
        testStrict_withoutKey (key_isFlat defined) right]
    rw [update, update, sameStrict, same]

/-- Members of a club, whose hooks count edits and try to move the member. -/
def memberDeclarations : Declarations :=
  [("id", { type := "string", required := true,
            hooks := { onUpdate := some fun _ _ => .ok (some (.string "moved")) } }),
    ("name", { type := "string" }),
    ("edits", { type := "number",
                hooks := { onUpdate := some fun _ _ => .ok (some (.number (.ofInt 1))) } })]

def memberChanges : Document := [("name", .string "Ada"), ("id", .string "other")]

/-- The hook of the key is run, and what it gives is not written. -/
theorem member_updated :
    ∃ table request stored,
      define "Member" memberDeclarations { hash := "id", range := none } []
        { strictFields := true } = .ok table ∧
      table.update [("id", .string "1")] memberChanges none = .ok request ∧
      request.update = some "SET #u1 = :u1, #u2 = :u2" ∧
      table.write .update (table.withoutKey memberChanges) = .ok stored ∧
      stored.get? "id" = some (.string "moved") ∧
      table.withoutKey memberChanges = table.withoutKey [("name", .string "Ada")] :=
  ⟨_, _, _, rfl, rfl, rfl, rfl, rfl, rfl⟩

theorem update_keeps_key_of_member :
    ∃ table request,
      define "Member" memberDeclarations { hash := "id", range := none } []
        { strictFields := true } = .ok table ∧
      memberChanges.names.Nodup ∧
      table.update [("id", .string "1")] memberChanges none = .ok request ∧
      (∃ stored, table.write .update (table.withoutKey memberChanges) = .ok stored ∧
        ∀ item, ∃ updated, request.execute? item = some updated ∧
          ∀ name, updated.get? name =
            if name ∈ table.key.attributes then item.get? name
            else (stored.get? name).or (item.get? name)) ∧
      table.withoutKey memberChanges = table.withoutKey [("name", .string "Ada")] ∧
      table.update [("id", .string "1")] memberChanges none =
        table.update [("id", .string "1")] [("name", .string "Ada")] none := by
  obtain ⟨table, request, -, defined, updated, -, -, -, same⟩ := member_updated
  have distinct : memberChanges.names.Nodup := by decide
  obtain ⟨executes, agrees⟩ := update_keeps_key defined
  exact ⟨table, request, defined, distinct, updated,
    executes _ memberChanges none request distinct updated, same, agrees _ _ _ none same⟩

/-! ## Upserts -/

/-- The attributes that an upsert overwrites: those that the caller supplies, and those
whose property has a hook. -/
def Overwrites (table : Table) (document : Document) (name : String) : Prop :=
  name ∈ document.names ∨
    ∃ property ∈ table.schema, property.name = name ∧ property.hooks.onUpsert.isSome = true

theorem mem_exactFields {name : String} :
    name ∈ table.exactFields document ↔ table.Overwrites document name := by
  simp [exactFields, Overwrites, and_comm, and_left_comm]

/-- What an upsert of a document, which is written as `stored`, makes of an item. -/
structure Merges (table : Table) (document stored item updated : Document) : Prop where
  /-- Key attributes stay. -/
  key : ∀ name ∈ table.key.attributes, updated.get? name = item.get? name
  /-- Attributes that are not written stay. -/
  unwritten : ∀ name, stored.get? name = none → updated.get? name = item.get? name
  /-- What the item has stays, unless the caller or a hook overwrites it. -/
  kept : ∀ name, (item.get? name).isSome = true → ¬ table.Overwrites document name →
    updated.get? name = item.get? name
  /-- Every other attribute gets the value that is written. -/
  set : ∀ name value, name ∉ table.key.attributes → stored.get? name = some value →
    item.get? name = none ∨ table.Overwrites document name → updated.get? name = some value

theorem assignments?_of_upsert {calls later : Calls} {request : UpdateRequest}
    (upserted : table.upsert document calls = (.ok request, later)) :
    ∃ filled stored, table.schema.fill document calls = (.ok filled, later) ∧
      table.write .upsert filled = .ok stored ∧
      request.assignments? = some
        ((table.withoutKey stored).assignments (table.exactFields document).contains) := by
  obtain ⟨key, filled, stored, -, -, fills, -, written, rfl⟩ := upsert_eq_ok upserted
  refine ⟨filled, stored, fills, written, ?_⟩
  cases printed : (table.withoutKey stored).upsertStatement? (table.exactFields document) with
  | none =>
      have empty : table.withoutKey stored = [] := by
        rw [Document.upsertStatement?, Document.setStatement?] at printed
        split at printed
        · next nothing => simpa using nothing
        · cases printed
      rw [empty]
      rfl
  | some statement => exact UpdateRequest.assignments?_withUpdate printed table.tableName key

/-- The four cases of an upsert, from the value that its statement gives every attribute. -/
theorem merges_of_values {stored updated : Document}
    (values : ∀ name, updated.get? name =
      (((table.withoutKey stored).get? name).map
        (Document.setValue (table.exactFields document).contains item name)).or
          (item.get? name)) :
    table.Merges document stored item updated := by
  have exact_iff : ∀ name, (table.exactFields document).contains name = true ↔
      table.Overwrites document name := by
    intro name
    rw [List.contains_eq_mem, decide_eq_true_eq, mem_exactFields]
  constructor
  · intro name inKey
    rw [values, get?_withoutKey, if_pos inKey]
    rfl
  · intro name absent
    rw [values, get?_withoutKey, absent, ite_self]
    rfl
  · intro name present untouched
    obtain ⟨held, found⟩ := Option.isSome_iff_exists.mp present
    have same : ∀ value,
        Document.setValue (table.exactFields document).contains item name value = held := by
      intro value
      rw [Document.setValue, if_neg fun isExact => untouched ((exact_iff name).mp isExact), found]
      rfl
    rw [values, found]
    cases (table.withoutKey stored).get? name with
    | none => rfl
    | some value => rw [Option.map_some, Option.some_or, same]
  · intro name value notKey written overwrites
    rw [values, get?_withoutKey, if_neg notKey, written, Option.map_some, Option.some_or,
      Document.setValue]
    split
    · rfl
    · next inexact =>
        have absent := overwrites.resolve_right fun given => inexact ((exact_iff name).mpr given)
        rw [absent]
        rfl

/-- An upsert overwrites what the caller or a hook gives, and adds what the item lacks. -/
theorem upsert_merges {calls later : Calls} {request : UpdateRequest}
    (distinct : document.names.Nodup)
    (upserted : table.upsert document calls = (.ok request, later)) :
    ∃ filled stored, table.schema.fill document calls = (.ok filled, later) ∧
      table.write .upsert filled = .ok stored ∧
      ∀ item, ∃ updated, request.execute? item = some updated ∧
        table.Merges document stored item updated := by
  obtain ⟨filled, stored, fills, written, assigned⟩ := assignments?_of_upsert upserted
  have distinctStored : (table.withoutKey stored).names.Nodup :=
    nodup_withoutKey table (nodup_write (Schema.nodup_fillFields distinct fills) written)
  refine ⟨filled, stored, fills, written, fun item => ?_⟩
  obtain ⟨updated, executed, values⟩ := Document.execute?_assignments distinctStored
    (table.exactFields document).contains item
  refine ⟨updated, ?_, merges_of_values values⟩
  rw [UpdateRequest.execute?, assigned]
  exact executed

/-- Profiles of visitors, with a default, a hook and a field of neither kind. -/
def profileDeclarations : Declarations :=
  [("id", { type := "string", required := true }),
    ("theme", { type := "string", default := some (.constant (.string "light")) }),
    ("seen", { type := "number",
               hooks := { onUpsert := some fun _ _ => .ok (some (.number (.ofInt 1))) } }),
    ("name", { type := "string" })]

def profile : Document := [("id", .string "1"), ("name", .string "Ada")]

theorem upsert_merges_of_profile :
    ∃ table request,
      define "Profile" profileDeclarations { hash := "id", range := none } [] {} = .ok table ∧
      profile.names.Nodup ∧ table.upsert profile Calls.none = (.ok request, Calls.none) ∧
      request.update = some "SET #u1 = :u1, #u2 = if_not_exists(#u2, :u2), #u3 = :u3" ∧
      ∃ filled stored, table.schema.fill profile Calls.none = (.ok filled, Calls.none) ∧
        table.write .upsert filled = .ok stored ∧
        ∀ item, ∃ updated, request.execute? item = some updated ∧
          table.Merges profile stored item updated :=
  ⟨_, _, rfl, by decide, rfl, rfl, upsert_merges (by decide) rfl⟩

end Table

end ItemTable
