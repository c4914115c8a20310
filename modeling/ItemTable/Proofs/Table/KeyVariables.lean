import ItemTable.Proofs.Coercion.Complete
import ItemTable.Proofs.Coercion.Inside
import ItemTable.Proofs.Coercion.Stored
import ItemTable.Proofs.Schema.KeyFaults
import ItemTable.Proofs.Table.Composites
import ItemTable.Proofs.Table.Keys

/-!
# Variables of created keys

A key that is rendered from a template refers to properties that are required, or that
are rendered from templates themselves.  So a created item has a field for every
variable of its key.  A field that is present may still be null, and then its part
of the key is empty: the templates of the key are satisfied by the item exactly when no
plain variable is null after defaults are filled in.
-/

namespace ItemTable

namespace Schema

variable {schema : Schema}

/-- A field that is stored without code of the user is null if it was null before. -/
theorem isNull_storeField {stage : WriteStage} {property : Property} {value : Value}
    {field : Option Value} (unset : property.set = none)
    (stores : storeField stage property (some value) = .ok field) :
    ∃ stored, field = some stored ∧ stored.isNull = value.isNull := by
  rcases storeField_some_eq_ok.mp stores with
    ⟨rfl, rfl⟩ | ⟨-, inside, stored, written, storesInside, rfl⟩
  · exact ⟨.null, rfl, rfl⟩
  · rw [writeInside_eq] at written
    refine ⟨stored, rfl, ?_⟩
    rw [PropertyTraits.isNull_store unset storesInside, isNull_coerceInside written]

/-- A variable of a key template is required or rendered from a template itself. -/
theorem requires_eq_true {key variableName : String}
    (required : schema.requires key variableName = true) :
    ∃ property, schema.get? variableName = some property ∧
      (property.required = true ∨ ∃ template, property.composite = some template) := by
  rw [requires, requiresFrom] at required
  split at required
  · cases required
  · next property found =>
      refine ⟨property, found, ?_⟩
      split at required
      · next isRequired => exact Or.inl isRequired
      · split at required
        · cases required
        · next template composed => exact Or.inr ⟨template, composed⟩

theorem testKey_requires {index : String} {key : KeySchema} {primary : Bool}
    (tested : schema.testKey index key primary = .ok ()) {name : String}
    (member : name ∈ key.attributes) {property : Property}
    (found : schema.get? name = some property) {template : Template}
    (composed : property.composite = some template) :
    ∀ variableName ∈ template.references, schema.requires name variableName = true := by
  have judged := testKeyAttribute_judges index primary (testKey_eq_ok tested name member)
  rw [testKeyAttribute_eq_ok tested name member] at judged
  cases judged with
  | accepts _ required => exact required property template found composed

variable {document filled final item : Document} {calls later : Calls}

/-- A field that no code of the user takes part in is null in the item exactly when it
is null after defaults are filled in. -/
theorem created_plain_field {property : Property} (normal : schema.IsNormal)
    (plain : schema.HasPlainComposites) (unset : property.set = none)
    (member : property ∈ schema) (underived : property.composite = none)
    (present : (filled.get? property.name).isSome = true)
    (passed : hookPass .create schema filled = .ok final)
    (stores : ∀ property ∈ schema,
      storeField .create property (final.get? property.name) = .ok (item.get? property.name)) :
    ∃ value, item.get? property.name = some value ∧
      (value = .null ↔ filled.get? property.name = some .null) := by
  obtain ⟨value, held⟩ := Option.isSome_iff_exists.mp present
  have kept : final.get? property.name = filled.get? property.name := by
    apply get?_hookPass_of_unhooked property.name passed
    intro other otherMember same
    have sameProperty := normal.get?_eq otherMember
    rw [same, normal.get?_eq member] at sameProperty
    cases sameProperty
    exact plain.unhooked property member underived
  have storesHere := stores property member
  rw [kept, held] at storesHere
  obtain ⟨stored, itemHere, sameNull⟩ := isNull_storeField unset storesHere
  refine ⟨stored, itemHere, ?_⟩
  rw [held, Option.some.injEq, ← Value.isNull_iff, ← Value.isNull_iff, sameNull]

/-- A variable of a key has a field in the item, which is null only if the variable is no
composite and is null after defaults are filled in. -/
theorem created_variable {key variableName : String} (normal : schema.IsNormal)
    (plain : schema.HasPlainComposites) (unset : ∀ property ∈ schema, property.set = none)
    (required : schema.requires key variableName = true)
    (tested : schema.testRequired document = .ok ())
    (fills : schema.fill document calls = (.ok filled, later))
    (passed : hookPass .create schema filled = .ok final)
    (stores : ∀ property ∈ schema,
      storeField .create property (final.get? property.name) = .ok (item.get? property.name)) :
    ∃ property value, schema.get? variableName = some property ∧
      item.get? variableName = some value ∧
        (value = .null ↔ property.composite = none ∧ filled.get? variableName = some .null) := by
  obtain ⟨property, found, requiredOrDerived⟩ := requires_eq_true required
  obtain ⟨member, rfl⟩ := get?_eq_some found
  cases composed : property.composite with
  | some template =>
      obtain ⟨before, after, split⟩ := List.append_of_mem member
      obtain ⟨_, -, -, itemHere⟩ := composite_eq normal plain split composed passed stores
      exact ⟨property, _, found, itemHere, by simp [composed]⟩
  | none =>
      have isRequired : property.required = true := by
        rcases requiredOrDerived with isRequired | ⟨template, isComposite⟩
        · exact isRequired
        · rw [composed] at isComposite
          cases isComposite
      have present : (filled.get? property.name).isSome = true := by
        apply (fillFields_eq_ok normal.distinct fills property member).isSome
        exact testRequired_eq_ok.mp tested schema document (.self schema document) property member
          isRequired
      obtain ⟨value, itemHere, nullIff⟩ := created_plain_field normal plain
        (unset property member) member composed present passed stores
      exact ⟨property, value, found, itemHere, by simpa [composed] using nullIff⟩

end Schema

namespace Table

variable {table : Table}

/-- The item that a create puts has a field for every variable of a composite key, and
its key is rendered from a null exactly when a variable that is no composite is null in
the document with its defaults. -/
theorem created_key_is_satisfied_iff {title : String} {declarations : Declarations}
    {key : KeySchema} {indexes : List IndexDefinition} {config : Config} {document : Document}
    {calls later : Calls} {request : PutRequest}
    (defined : define title declarations key indexes config = .ok table)
    (plain : table.schema.HasPlainComposites)
    (unset : ∀ property ∈ table.schema, property.set = none)
    (created : table.create document calls = (.ok request, later)) :
    ∃ filled, table.schema.fill document calls = (.ok filled, later) ∧
      ∀ name ∈ table.key.attributes, ∀ property template,
        table.schema.get? name = some property → property.composite = some template →
          (∀ variableName ∈ template.references,
            (request.item.get? variableName).isSome = true) ∧
          (template.isSatisfiedBy request.item = true ↔
            ∀ variableName ∈ template.references, ∀ other,
              table.schema.get? variableName = some other → other.composite = none →
                filled.get? variableName ≠ some .null) := by
  obtain ⟨normalized, keyTested⟩ := define_eq_ok defined
  have normal := Schema.ofDeclarations_isNormal normalized
  obtain ⟨filled, item, tested, fills, -, written, -, built⟩ := create_eq_ok created
  have itemHere : request.item = item := by
    rw [built, putRequest_item]
  rw [Table.write, mapError_eq_ok_iff] at written
  obtain ⟨final, passed, stores⟩ := Schema.write_eq_ok normal.distinct written
  simp only [testNew, bind_eq_ok_iff, mapError_eq_ok_iff] at tested
  obtain ⟨⟨⟩, -, requiredTested⟩ := tested
  rw [itemHere]
  refine ⟨filled, fills, ?_⟩
  intro name member property template found composed
  have createdVariable := fun variableName referred =>
    Schema.created_variable normal plain unset
      (Schema.testKey_requires keyTested member found composed variableName referred)
      requiredTested fills passed stores
  constructor
  · intro variableName referred
    obtain ⟨_, value, -, held, -⟩ := createdVariable variableName referred
    rw [held]
    rfl
  · rw [Template.isSatisfiedBy_iff]
    constructor
    · intro satisfied variableName referred other foundOther underived isNull
      obtain ⟨declared, value, foundDeclared, held, nullIff⟩ :=
        createdVariable variableName referred
      cases foundDeclared.symm.trans foundOther
      obtain ⟨supplied, heldToo, notNull⟩ := satisfied variableName referred
      cases held.symm.trans heldToo
      exact notNull (nullIff.mpr ⟨underived, isNull⟩)
    · intro notNull variableName referred
      obtain ⟨declared, value, foundDeclared, held, nullIff⟩ :=
        createdVariable variableName referred
      refine ⟨value, held, ?_⟩
      intro isNull
      obtain ⟨underived, nullFilled⟩ := nullIff.mp isNull
      exact notNull variableName referred declared foundDeclared underived nullFilled

/-- Tickets are found by their event and their seat.  The event is made of a city and a
day, and a ticket without a seat has the first one. -/
def ticketDeclarations : Declarations :=
  [("key", { type := "string", composite := some "TICKET#{event}#{seat}" }),
    ("event", { type := "string", composite := some "{city}-{day}" }),
    ("city", {
      type := "string"
      required := true
      validators := [("notNull", .builtin (.bool true))] }),
    ("day", { type := "date", required := true, format := some .number }),
    ("seat", {
      type := "number"
      required := true
      default := some (.constant (.number (.ofInt 1))) })]

def ticket : Document :=
  [("city", .string "Oslo"), ("day", .date (.startOf 172800 (by decide)))]

theorem ticket_created :
    ∃ table request,
      define "Ticket" ticketDeclarations { hash := "key", range := none } [] {} = .ok table ∧
      table.schema.HasPlainComposites ∧
      (∀ property ∈ table.schema, property.set = none) ∧
      table.create ticket Calls.none = (.ok request, Calls.none) ∧
      request.item.get? "key" = some (.string "TICKET#Oslo-1970-01-03T00:00:00.000Z#1") := by
  refine ⟨_, _, rfl, ?_, ?_, rfl, rfl⟩
  · constructor
    · intro property member composed
      simp only [List.mem_cons, List.not_mem_nil, or_false] at member
      rcases member with rfl | rfl | rfl | rfl | rfl
      · cases composed
      · cases composed
      · rfl
      · rfl
      · rfl
    · intro property member composed
      simp only [List.mem_cons, List.not_mem_nil, or_false] at member
      rcases member with rfl | rfl | rfl | rfl | rfl <;> rfl
  · intro property member
    simp only [List.mem_cons, List.not_mem_nil, or_false] at member
    rcases member with rfl | rfl | rfl | rfl | rfl <;> rfl

theorem created_key_is_satisfied_iff_of_ticket :
    ∃ table request,
      define "Ticket" ticketDeclarations { hash := "key", range := none } [] {} = .ok table ∧
      table.create ticket Calls.none = (.ok request, Calls.none) ∧
      request.item.get? "key" = some (.string "TICKET#Oslo-1970-01-03T00:00:00.000Z#1") ∧
      ∃ filled, table.schema.fill ticket Calls.none = (.ok filled, Calls.none) ∧
        ∀ name ∈ table.key.attributes, ∀ property template,
          table.schema.get? name = some property → property.composite = some template →
            (∀ variableName ∈ template.references,
              (request.item.get? variableName).isSome = true) ∧
            (template.isSatisfiedBy request.item = true ↔
              ∀ variableName ∈ template.references, ∀ other,
                table.schema.get? variableName = some other → other.composite = none →
                  filled.get? variableName ≠ some .null) := by
  obtain ⟨table, request, defined, plain, unset, created, rendered⟩ := ticket_created
  exact ⟨table, request, defined, created, rendered,
    created_key_is_satisfied_iff defined plain unset created⟩

/-- Accounts are found by their number. -/
def accountDeclarations : Declarations :=
  [("key", { type := "string", composite := some "ACCOUNT#{id}" }),
    ("id", { type := "string", required := true })]

/-- An account whose number is present and null. -/
def account : Document := [("id", .null)]

/-- A required variable may be null, which a lookup refuses and a create does not. -/
theorem created_key_lacks_variable :
    ∃ table request property template,
      define "Account" accountDeclarations { hash := "key", range := none } [] {} = .ok table ∧
      table.schema.HasPlainComposites ∧
      (∀ property ∈ table.schema, property.set = none) ∧
      table.keyOf account = .error (.missingKey "key") ∧
      table.create account Calls.none = (.ok request, Calls.none) ∧
      table.schema.get? "key" = some property ∧ property.composite = some template ∧
      request.item.get? "key" = some (.string "ACCOUNT#") ∧
      request.item.get? "id" = some .null ∧
      template.isSatisfiedBy request.item = false := by
  refine ⟨_, _, _, _, rfl, ?_, ?_, rfl, rfl, rfl, rfl, rfl, rfl, rfl⟩
  · constructor
    · intro property member composed
      simp only [List.mem_cons, List.not_mem_nil, or_false] at member
      rcases member with rfl | rfl
      · cases composed
      · rfl
    · intro property member composed
      simp only [List.mem_cons, List.not_mem_nil, or_false] at member
      rcases member with rfl | rfl <;> rfl
  · intro property member
    simp only [List.mem_cons, List.not_mem_nil, or_false] at member
    rcases member with rfl | rfl <;> rfl

end Table

end ItemTable
