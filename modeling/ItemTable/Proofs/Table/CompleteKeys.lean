import ItemTable.Proofs.Table.KeyQueries
import ItemTable.Proofs.Table.Results
import ItemTable.Proofs.Template

/-!
# Complete keys

The key of a document has the attributes of the table's key and no others, the hash
attribute first.  None of the values that it is taken from is null, but a value is stored
by user code, which may make null of it: a key holds null just where a `set` transform
does so.  A create looks at its item after storing it and refuses such a value; the
operations that take a key do not.
-/

namespace ItemTable

/-- The `set` transform of a property makes null of a value. -/
def PropertyTraits.Erases (traits : PropertyTraits) (value : Value) : Prop :=
  ∃ run, traits.set = some run ∧ run value = .ok .null

namespace PropertyTraits

variable {traits : PropertyTraits} {value stored : Value}

theorem storeType_eq_null_iff {type : AttributeType} {format : DateFormat}
    (stores : storeType type format value = .ok stored) : stored = .null ↔ value = .null := by
  rw [storeType.eq_def] at stores
  split at stores
  · cases value with
    | null =>
        cases stores
        rfl
    | date instant =>
        cases stores
        cases format <;> simp [Instant.toStored]
    | _ => cases stores
  · cases stores
    rfl

/-- A value is stored as null only by user code. -/
theorem store_eq_null_iff (notNull : value ≠ .null) (stores : traits.store value = .ok stored) :
    stored = .null ↔ traits.Erases value := by
  have present : value.isNull = false := by
    cases value <;> first | rfl | exact absurd rfl notNull
  rw [store, present, if_neg Bool.false_ne_true, bind_eq_ok_iff] at stores
  obtain ⟨changed, transformed, typed⟩ := stores
  rw [storeType_eq_null_iff typed]
  cases code : traits.set with
  | none =>
      rw [code, transform] at transformed
      cases transformed
      constructor
      · exact fun isNull => absurd isNull notNull
      · rintro ⟨run, same, -⟩
        rw [code] at same
        cases same
  | some run =>
      rw [code, transform, mapError_eq_ok_iff] at transformed
      constructor
      · rintro rfl
        exact ⟨run, code, transformed⟩
      · rintro ⟨other, same, erased⟩
        rw [code] at same
        cases same
        rw [transformed] at erased
        exact Except.ok.inj erased

end PropertyTraits

/-- The attributes of a key without repetition, hash first. -/
def KeySchema.distinctAttributes (key : KeySchema) : List String :=
  key.hash :: (key.range.filter (· ≠ key.hash)).toList

namespace Table

variable {table : Table} {document key : Document}

/-- The key has the attributes of the table's key, and under each of them the stored form of
the value that the document has for it.  That value is not null. -/
structure IsKeyOf (table : Table) (document key : Document) : Prop where
  names : key.names = table.key.distinctAttributes
  holds : ∀ name ∈ table.key.attributes, ∃ property value stored,
    table.schema.get? name = some property ∧ keyValue? property document = some value ∧
      value ≠ .null ∧ property.store value = .ok stored ∧ key.get? name = some stored ∧
      (stored = .null ↔ property.Erases value)

/-- The keys that operations take from a document: the key by itself, and the keys of
requests for the item that the document describes. -/
inductive GivesKey (table : Table) (document : Document) : Document → Prop
  | key {key : Document} : table.keyOf document = .ok key → GivesKey table document key
  | get {attributes : List String} {request : GetRequest} :
      table.get document attributes = .ok request → GivesKey table document request.key
  | update {changes : Document} {condition : Option Where} {request : UpdateRequest} :
      table.update document changes condition = .ok request →
        GivesKey table document request.key
  | upsert {calls later : Calls} {request : UpdateRequest} :
      table.upsert document calls = (.ok request, later) → GivesKey table document request.key
  | delete {condition : Option Where} {request : DeleteRequest} :
      table.delete document condition = .ok request → GivesKey table document request.key

theorem keyValue?_ne_null {property : Property} {value : Value}
    (supplied : keyValue? property document = some value) : value ≠ .null := by
  rcases keyValue?_eq_some supplied with ⟨-, notNull⟩ | ⟨template, -, rfl⟩
  · exact notNull
  · exact Value.noConfusion

/-- Every attribute takes its place when it is first put. -/
theorem names_keyFrom {attributes : List String} {result : Document}
    (keyed : table.keyFrom document attributes key = .ok result) :
    result.names = attributes.foldl
      (fun names name => if name ∈ names then names else names ++ [name]) key.names := by
  induction attributes generalizing key with
  | nil =>
      cases keyed
      rfl
  | cons first attributes induction =>
      rw [keyFrom] at keyed
      split at keyed
      · cases keyed
      · split at keyed
        · cases keyed
        · rw [bind_eq_ok_iff] at keyed
          obtain ⟨stored, -, keyedRest⟩ := keyed
          rw [induction keyedRest, List.foldl_cons]
          split
          · next present => rw [Entries.names_put_of_mem stored present]
          · next absent => rw [Entries.names_put_of_not_mem stored absent]

theorem names_keyOf (keyed : table.keyOf document = .ok key) :
    key.names = table.key.distinctAttributes := by
  rw [names_keyFrom keyed, KeySchema.attributes, KeySchema.distinctAttributes]
  cases table.key.range with
  | none => rfl
  | some range =>
      by_cases same : range = table.key.hash <;> simp [Entries.names, Option.filter, same]

theorem isKeyOf_of_keyOf (keyed : table.keyOf document = .ok key) :
    table.IsKeyOf document key := by
  refine ⟨names_keyOf keyed, ?_⟩
  intro name member
  obtain ⟨property, value, stored, found, supplied, stores, held⟩ := keyOf_eq_ok keyed member
  have notNull := keyValue?_ne_null supplied
  exact ⟨property, value, stored, found, supplied, notNull, stores, held,
    PropertyTraits.store_eq_null_iff notNull stores⟩

theorem GivesKey.keyOf (gives : table.GivesKey document key) : table.keyOf document = .ok key := by
  cases gives with
  | key keyed => exact keyed
  | get got =>
      obtain ⟨keyDocument, projection, keyed, -, rfl⟩ := get_eq_ok got
      cases projection <;> exact keyed
  | update updated =>
      obtain ⟨keyDocument, stored, statement, guard, keyed, -, -, -, -, -, rfl⟩ :=
        update_eq_ok updated
      exact keyed
  | upsert upserted =>
      obtain ⟨keyDocument, filled, stored, keyed, -, -, -, -, rfl⟩ := upsert_eq_ok upserted
      cases (table.withoutKey stored).upsertStatement? (table.exactFields document) <;>
        exact keyed
  | delete deleted =>
      obtain ⟨keyDocument, filter, keyed, -, rfl⟩ := delete_eq_ok deleted
      cases filter <;> exact keyed

theorem supplies_of_testKeyPresent {schema : KeySchema} {item : Document}
    (tested : testKeyPresent schema item = .ok ()) {name : String}
    (member : name ∈ schema.attributes) : item.supplies name = true := by
  rw [testKeyPresent] at tested
  split at tested
  · cases tested
  · next none => simpa using List.find?_eq_none.mp none name member

theorem created_item_supplies_key {calls later : Calls} {request : PutRequest}
    (created : table.create document calls = (.ok request, later)) :
    ∀ name ∈ table.key.attributes, ∃ value,
      request.item.get? name = some value ∧ value ≠ .null := by
  obtain ⟨filled, item, -, -, -, -, tested, rfl⟩ := create_eq_ok created
  intro name member
  rw [putRequest_item]
  exact Document.supplies_iff.mp (supplies_of_testKeyPresent tested member)

/-- The keys that operations take are complete but for the values that user code erases, and
those of created items are complete. -/
theorem key_holds_null_iff_erased (table : Table) (document : Document) :
    (∀ key, table.GivesKey document key → table.IsKeyOf document key) ∧
      ∀ calls later request, table.create document calls = (.ok request, later) →
        ∀ name ∈ table.key.attributes, ∃ value,
          request.item.get? name = some value ∧ value ≠ .null :=
  ⟨fun _ gives => isKeyOf_of_keyOf gives.keyOf, fun _ _ _ => created_item_supplies_key⟩

/-- The key of a page is rendered and its day is stored as a number.  A page is looked up
and created under both. -/
theorem key_holds_null_iff_erased_of_page :
    ∃ table lookup put,
      define "Page" pageDeclarations { hash := "key", range := some "day" } [] {} = .ok table ∧
      table.get page [] = .ok lookup ∧ table.create page Calls.none = (.ok put, Calls.none) ∧
      lookup.key = [("key", .string "PAGE#home#a/b"), ("day", .number (.ofInt 0))] ∧
      table.IsKeyOf page lookup.key ∧
      ∀ name ∈ table.key.attributes, ∃ value,
        put.item.get? name = some value ∧ value ≠ .null := by
  have built : ∃ table lookup put,
      define "Page" pageDeclarations { hash := "key", range := some "day" } [] {} = .ok table ∧
      table.get page [] = .ok lookup ∧ table.create page Calls.none = (.ok put, Calls.none) ∧
      lookup.key = [("key", .string "PAGE#home#a/b"), ("day", .number (.ofInt 0))] :=
    ⟨_, _, _, rfl, rfl, rfl, rfl⟩
  obtain ⟨table, lookup, put, defined, got, created, same⟩ := built
  obtain ⟨complete, createdComplete⟩ := key_holds_null_iff_erased table page
  exact ⟨table, lookup, put, defined, got, created, same, complete _ (.get got),
    createdComplete _ _ _ created⟩

/-- Users are found by an identifier that user code blanks. -/
def userDeclarations : Declarations :=
  [("id", { type := "string", required := true, set := some fun _ => .ok .null })]

/-- A lookup carries a key that user code has made null, where a create is refused. -/
theorem lookup_carries_null_key :
    ∃ table request,
      define "User" userDeclarations { hash := "id", range := none } [] {} = .ok table ∧
      table.keyOf [("id", .string "a")] = .ok [("id", .null)] ∧
      table.get [("id", .string "a")] [] = .ok request ∧ request.key = [("id", .null)] ∧
      table.create [("id", .string "a")] Calls.none = (.error (.missingKey "id"), Calls.none) :=
  ⟨_, _, rfl, rfl, rfl, rfl, rfl⟩

end Table

end ItemTable
