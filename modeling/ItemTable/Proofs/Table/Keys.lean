import Mathlib.Data.List.Basic
import ItemTable.Proofs.Coercion.Fill
import ItemTable.Proofs.Coercion.Hooks
import ItemTable.Proofs.Schema.Normal
import ItemTable.Proofs.Table.Results
import ItemTable.Proofs.Template

/-!
# Keys of created items

A created item is stored under the key that its document has.  Creating an item and
taking the key of a document go different ways: one fills in defaults, runs hooks
and stores every field, the other renders templates from the document itself.
They meet where the variables of key templates are plain properties, which no
default, hook or template changes when the document supplies them.
-/

namespace ItemTable

theorem AttributeType.isScalar_of_isKeyType {type : AttributeType}
    (keyType : type.isKeyType = true) : type.isScalar = true := by
  cases type <;> first | rfl | cases keyType

namespace Schema

theorem testKeyAttribute_eq_ok {schema : Schema} {index : String} {key : KeySchema}
    {primary : Bool} (tested : schema.testKey index key primary = .ok ()) :
    ∀ name ∈ key.attributes, schema.testKeyAttribute index primary name = .ok () :=
  forM_eq_ok_iff.mp tested

theorem testKey_eq_ok {schema : Schema} {index : String} {key : KeySchema} {primary : Bool}
    (tested : schema.testKey index key primary = .ok ()) :
    ∀ name ∈ key.attributes, ∃ property, schema.get? name = some property ∧
      property.type.isKeyType = true := by
  intro name member
  have testedHere := testKeyAttribute_eq_ok tested name member
  rw [testKeyAttribute] at testedHere
  split at testedHere
  · cases testedHere
  · next property found =>
      split at testedHere
      · cases testedHere
      · next keyType => exact ⟨property, found, by simpa using keyType⟩

end Schema

namespace Table

variable {table : Table}

theorem define_eq_ok {title : String} {declarations : Declarations} {key : KeySchema}
    {indexes : List IndexDefinition} {config : Config}
    (defined : define title declarations key indexes config = .ok table) :
    Schema.ofDeclarations declarations = .ok table.schema ∧
      table.schema.testKey primaryIndex table.key true = .ok () := by
  simp only [define, bind_eq_ok_iff] at defined
  obtain ⟨schema, normalized, ⟨⟩, tested, ⟨⟩, -, built⟩ := defined
  cases built
  exact ⟨normalized, tested⟩

theorem keyValue?_of_plain {property : Property} {document : Document} {value : Value}
    (underived : property.composite = none)
    (supplied : keyValue? property document = some value) :
    document.get? property.name = some value := by
  rw [keyValue?, underived] at supplied
  split at supplied
  · cases supplied
  · next other _ present =>
      cases supplied
      exact present
  · cases supplied

/-- A composite that the document leaves out or nulls is rendered. -/
theorem keyValue?_of_composite {property : Property} {document : Document} {template : Template}
    {value : Value} (composed : property.composite = some template)
    (absent : document.get? property.name = none ∨ document.get? property.name = some .null)
    (supplied : keyValue? property document = some value) :
    template.isSatisfiedBy document = true ∧ value = .string (template.render document) := by
  have rendered : (if template.isSatisfiedBy document then
      some (Value.string (template.render document)) else none) = some value := by
    rw [keyValue?, composed] at supplied
    rcases absent with absent | absent
    · rw [absent] at supplied
      exact supplied
    · rw [absent] at supplied
      exact supplied
  split at rendered
  · next satisfied =>
      cases rendered
      exact ⟨satisfied, rfl⟩
  · cases rendered

/-- What a key holds under an attribute is the stored form of the document's value. -/
theorem keyFrom_eq_ok {document key result : Document} {attributes : List String}
    (keyed : table.keyFrom document attributes key = .ok result) :
    (∀ name ∈ attributes, ∃ property value stored,
      table.schema.get? name = some property ∧ keyValue? property document = some value ∧
        property.store value = .ok stored ∧ result.get? name = some stored) ∧
      ∀ name, name ∉ attributes → result.get? name = key.get? name := by
  induction attributes generalizing key with
  | nil =>
      rw [keyFrom] at keyed
      cases keyed
      exact ⟨by simp, fun _ _ => rfl⟩
  | cons first attributes induction =>
      rw [keyFrom] at keyed
      split at keyed
      · cases keyed
      · next property found =>
          split at keyed
          · cases keyed
          · next value supplied =>
              rw [bind_eq_ok_iff] at keyed
              obtain ⟨stored, stores, keyedRest⟩ := keyed
              rw [mapError_eq_ok_iff] at stores
              obtain ⟨inside, outside⟩ := induction keyedRest
              constructor
              · intro name member
                by_cases later : name ∈ attributes
                · exact inside name later
                · rcases List.mem_cons.mp member with rfl | impossible
                  · refine ⟨property, value, stored, found, supplied, stores, ?_⟩
                    rw [outside name later]
                    exact Entries.get?_put_self key name stored
                  · exact absurd impossible later
              · intro name absent
                rw [List.mem_cons, not_or] at absent
                rw [outside name absent.2]
                exact Entries.get?_put_of_ne key absent.1 stored

theorem keyOf_eq_ok {document key : Document} (keyed : table.keyOf document = .ok key)
    {name : String} (member : name ∈ table.key.attributes) :
    ∃ property value stored, table.schema.get? name = some property ∧
      keyValue? property document = some value ∧ property.store value = .ok stored ∧
        key.get? name = some stored :=
  (keyFrom_eq_ok keyed).1 name member

end Table

/-! ## Creating an item with plain variables -/

/-- A property whose value neither a template nor a hook of a create changes, and which
has no documents inside. -/
structure Property.IsPlain (property : Property) : Prop where
  underived : property.composite = none
  scalar : property.type.isScalar = true
  unhooked : property.hooks.onCreate = none

namespace Schema

variable {schema : Schema} {document filled final item : Document} {calls later : Calls}

/-- A value that the document supplies for a plain property is seen by every hook. -/
theorem get?_hookPass_of_plain {before after : List Property} {middle : Document} {name : String}
    {value : Value} (split : schema = before ++ after) (normal : schema.IsNormal)
    (plain : ∀ property, schema.get? name = some property → property.IsPlain)
    (fills : schema.fill document calls = (.ok filled, later))
    (passed : hookPass .create before filled = .ok middle)
    (supplied : document.get? name = some value) : middle.get? name = some value := by
  have plainHere : ∀ property ∈ schema, property.name = name → property.IsPlain := by
    intro property member same
    apply plain
    rw [← same]
    exact normal.get?_eq member
  have kept : filled.get? name = some value := by
    apply get?_fillFields_of_some fills supplied
    intro property member same
    exact (normal.normal property member).scalar (plainHere property member same).scalar
  rw [← kept]
  apply get?_hookPass_of_unhooked name passed
  intro property member same
  apply (plainHere property ?_ same).unhooked
  rw [split]
  exact List.mem_append_left after member

/-- The stored value of a plain property is that of the document. -/
theorem get?_created_of_plain {name : String} {property : Property} {value stored : Value}
    (normal : schema.IsNormal) (found : schema.get? name = some property)
    (plain : property.IsPlain) (fills : schema.fill document calls = (.ok filled, later))
    (written : schema.write .create filled = .ok item)
    (supplied : document.get? name = some value) (stores : property.store value = .ok stored) :
    item.get? name = some stored := by
  obtain ⟨member, rfl⟩ := get?_eq_some found
  obtain ⟨final, passed, storesAll⟩ := write_eq_ok normal.distinct written
  have seen : final.get? property.name = some value := by
    have whole : schema = schema ++ [] := (List.append_nil schema).symm
    apply get?_hookPass_of_plain whole normal _ fills passed supplied
    intro other foundOther
    rw [found] at foundOther
    cases foundOther
    exact plain
  have storesHere := storesAll property member
  rw [seen, storeField_of_scalar ((normal.normal property member).scalar plain.scalar) stores]
    at storesHere
  exact (Except.ok.inj storesHere).symm

/-- A composite of plain variables is stored as it is rendered from the document. -/
theorem get?_created_of_composite {name : String} {property : Property} {template : Template}
    {stored : Value} (normal : schema.IsNormal) (found : schema.get? name = some property)
    (composed : property.composite = some template)
    (plain : ∀ variableName ∈ template.references, ∀ other,
      schema.get? variableName = some other → other.IsPlain)
    (fills : schema.fill document calls = (.ok filled, later))
    (written : schema.write .create filled = .ok item)
    (satisfied : template.isSatisfiedBy document = true)
    (stores : property.store (.string (template.render document)) = .ok stored) :
    item.get? name = some stored := by
  obtain ⟨member, rfl⟩ := get?_eq_some found
  obtain ⟨final, passed, storesAll⟩ := write_eq_ok normal.distinct written
  obtain ⟨before, after, split⟩ := List.append_of_mem member
  obtain ⟨middle, passedBefore, -, holds⟩ :=
    hookPass_composite normal split composed passed storesAll
  have agree : template.render middle = template.render document := by
    apply Template.render_congr
    intro variableName referred
    apply Template.fieldText_congr
    obtain ⟨value, supplied, -⟩ := Template.isSatisfiedBy_iff.mp satisfied variableName referred
    rw [supplied]
    exact get?_hookPass_of_plain split normal (plain variableName referred) fills passedBefore
      supplied
  apply holds
  rw [agree]
  exact stores

end Schema

namespace Table

variable {table : Table}

/-- Key attributes are plain properties or composites of plain properties. -/
structure HasPlainKey (table : Table) : Prop where
  unhooked : ∀ name ∈ table.key.attributes, ∀ property,
    table.schema.get? name = some property → property.composite = none →
      property.hooks.onCreate = none
  references : ∀ name ∈ table.key.attributes, ∀ property template,
    table.schema.get? name = some property → property.composite = some template →
      ∀ variableName ∈ template.references, ∀ other,
        table.schema.get? variableName = some other → other.IsPlain

/-- The item that a create puts holds the key that its document has. -/
theorem created_item_has_key {title : String} {declarations : Declarations} {key : KeySchema}
    {indexes : List IndexDefinition} {config : Config} {document keyDocument : Document}
    {calls later : Calls} {request : PutRequest}
    (defined : define title declarations key indexes config = .ok table)
    (plainKey : table.HasPlainKey)
    (underived : ∀ name ∈ table.key.attributes, ∀ property,
      table.schema.get? name = some property → property.composite.isSome = true →
        document.get? name = none ∨ document.get? name = some .null)
    (created : table.create document calls = (.ok request, later))
    (keyed : table.keyOf document = .ok keyDocument) :
    ∀ name ∈ table.key.attributes, ∃ value,
      request.item.get? name = some value ∧ keyDocument.get? name = some value := by
  obtain ⟨normalized, tested⟩ := define_eq_ok defined
  have normal := Schema.ofDeclarations_isNormal normalized
  obtain ⟨filled, item, -, fills, -, written, -, built⟩ := create_eq_ok created
  rw [Table.write, mapError_eq_ok_iff] at written
  have itemHere : request.item = item := by
    rw [built, putRequest_item]
  intro name member
  obtain ⟨property, value, stored, found, supplied, stores, keyHolds⟩ :=
    keyOf_eq_ok keyed member
  refine ⟨stored, ?_, keyHolds⟩
  rw [itemHere]
  obtain ⟨propertyMember, named⟩ := Schema.get?_eq_some found
  cases composed : property.composite with
  | none =>
      have scalar : property.type.isScalar = true := by
        obtain ⟨other, foundOther, keyType⟩ := Schema.testKey_eq_ok tested name member
        rw [found] at foundOther
        cases foundOther
        exact AttributeType.isScalar_of_isKeyType keyType
      have inDocument := keyValue?_of_plain composed supplied
      rw [named] at inDocument
      exact Schema.get?_created_of_plain normal found
        ⟨composed, scalar, plainKey.unhooked name member property found composed⟩ fills written
        inDocument stores
  | some template =>
      have isComposite : property.composite.isSome = true := by
        rw [composed]
        rfl
      have absent := underived name member property found isComposite
      rw [← named] at absent
      obtain ⟨satisfied, rfl⟩ := keyValue?_of_composite composed absent supplied
      exact Schema.get?_created_of_composite normal found composed
        (plainKey.references name member property template found composed) fills written satisfied
        stores

/-- Pages are found by site and path together and by the day of a visit.  The key is
declared before what it is rendered from. -/
def pageDeclarations : Declarations :=
  [("key", { type := "string", composite := some "PAGE#{site}#{ path }" }),
    ("site", { type := "string", required := true }),
    ("path", { type := "string", required := true, set := some fun _ => .ok (.string "stored") }),
    ("day", { type := "date", required := true, format := some .number }),
    ("visits", { type := "number",
                 hooks := { onCreate := some fun _ _ => .ok (some (.number (.ofInt 1))) } })]

def page : Document :=
  [("site", .string "home"), ("path", .string "a/b"),
    ("day", .date (.startOf 0 (by decide)))]

/-- A page is created under a key of plain variables. -/
theorem page_created :
    ∃ table request keyDocument,
      define "Page" pageDeclarations { hash := "key", range := some "day" } [] {} = .ok table ∧
      table.HasPlainKey ∧
      (∀ name ∈ table.key.attributes, ∀ property,
        table.schema.get? name = some property → property.composite.isSome = true →
          page.get? name = none ∨ page.get? name = some .null) ∧
      table.create page Calls.none = (.ok request, Calls.none) ∧
      table.keyOf page = .ok keyDocument ∧
      request.item.get? "key" = some (.string "PAGE#home#a/b") := by
  refine ⟨_, _, _, rfl, ?_, ?_, rfl, rfl, rfl⟩
  · constructor
    · intro name member property found composed
      rcases List.mem_pair.mp member with rfl | rfl
      · cases Option.some.inj (show some _ = some property from found)
        cases composed
      · cases Option.some.inj (show some _ = some property from found)
        rfl
    · intro name member property template found composed variableName referred other foundOther
      rcases List.mem_pair.mp member with rfl | rfl
      · cases Option.some.inj (show some _ = some property from found)
        cases composed
        rcases List.mem_pair.mp (show variableName ∈ ["site", "path"] from referred) with rfl | rfl
        · cases Option.some.inj (show some _ = some other from foundOther)
          exact ⟨rfl, rfl, rfl⟩
        · cases Option.some.inj (show some _ = some other from foundOther)
          exact ⟨rfl, rfl, rfl⟩
      · cases Option.some.inj (show some _ = some property from found)
        cases composed
  · intro name member property found composed
    rcases List.mem_pair.mp member with rfl | rfl
    · exact Or.inl rfl
    · cases Option.some.inj (show some _ = some property from found)
      cases composed

theorem created_item_has_key_of_page :
    ∃ table request keyDocument,
      define "Page" pageDeclarations { hash := "key", range := some "day" } [] {} = .ok table ∧
      table.create page Calls.none = (.ok request, Calls.none) ∧
      table.keyOf page = .ok keyDocument ∧
      request.item.get? "key" = some (.string "PAGE#home#a/b") ∧
      ∀ name ∈ table.key.attributes, ∃ value,
        request.item.get? name = some value ∧ keyDocument.get? name = some value := by
  obtain ⟨table, request, keyDocument, defined, plainKey, underived, created, keyed, rendered⟩ :=
    page_created
  exact ⟨table, request, keyDocument, defined, created, keyed, rendered,
    created_item_has_key defined plainKey underived created keyed⟩

end Table

end ItemTable
