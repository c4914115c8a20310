import ItemTable.Proofs.Coercion.Fill
import ItemTable.Proofs.Coercion.Hooks
import ItemTable.Proofs.Coercion.Overwrite
import ItemTable.Proofs.Schema.Normal
import ItemTable.Proofs.Table.Results

/-!
# Composites of created items

Without user hooks a create renders every composite twice, when defaults are filled
in and in its create hook, both times in the order of the schema.  The hook sees the
created values of the composites declared before and the filled values of those
declared after.  So a composite agrees with the fields that it is made of when the
composites it refers to are declared before it, or have the same text either way.
-/

namespace ItemTable

namespace Schema

/-- No code of the user takes part in creating composites. -/
structure HasPlainComposites (schema : Schema) : Prop where
  unhooked : ∀ property ∈ schema, property.composite = none → property.hooks.onCreate = none
  unset : ∀ property ∈ schema, property.composite.isSome = true → property.set = none

theorem store_string {property : Property} {text : String} (isString : property.type = .string)
    (unset : property.set = none) :
    property.store (.string text) = .ok (.string text) := by
  rw [PropertyTraits.store, unset, isString]
  rfl

variable {schema : Schema} {before after : List Property} {property : Property}
variable {template : Template} {filled final item : Document}

/-- What the create hook of a composite renders is what is stored. -/
theorem composite_eq (normal : schema.IsNormal) (plain : schema.HasPlainComposites)
    (split : schema = before ++ property :: after) (composed : property.composite = some template)
    (passed : hookPass .create schema filled = .ok final)
    (stores : ∀ property ∈ schema,
      storeField .create property (final.get? property.name) = .ok (item.get? property.name)) :
    ∃ middle, hookPass .create before filled = .ok middle ∧
      final.get? property.name = some (.string (template.render middle)) ∧
      item.get? property.name = some (.string (template.render middle)) := by
  have member : property ∈ schema := by
    rw [split]
    exact List.mem_append_right before List.mem_cons_self
  obtain ⟨isString, -, -⟩ := (normal.normal property member).composite template composed
  have unset : property.set = none := by
    apply plain.unset property member
    rw [composed]
    rfl
  obtain ⟨middle, passedBefore, rendered, holds⟩ :=
    hookPass_composite normal split composed passed stores
  exact ⟨middle, passedBefore, rendered, holds _ (store_string isString unset)⟩

/-- The document that a create hook sees holds the created values of the composites
declared before, and the filled values of all other fields. -/
theorem get?_hookPass_before (normal : schema.IsNormal) (plain : schema.HasPlainComposites)
    (split : schema = before ++ after) (passed : hookPass .create schema filled = .ok final)
    (stores : ∀ property ∈ schema,
      storeField .create property (final.get? property.name) = .ok (item.get? property.name))
    {middle : Document} (passedBefore : hookPass .create before filled = .ok middle)
    (name : String) :
    middle.get? name = (filled.overwrite item (compositeNames before)).get? name := by
  rw [Document.get?_overwrite]
  by_cases derived : name ∈ compositeNames before
  · rw [if_pos derived]
    obtain ⟨property, member, isComposite, rfl⟩ := mem_compositeNames.mp derived
    obtain ⟨template, composed⟩ := Option.isSome_iff_exists.mp isComposite
    obtain ⟨first, second, parts⟩ := List.append_of_mem member
    have whole : schema = first ++ property :: (second ++ after) := by
      rw [split, parts]
      simp
    obtain ⟨_, -, finalHere, itemHere⟩ :=
      composite_eq normal plain whole composed passed stores
    have unseen : ∀ other ∈ after, other.name ≠ property.name := by
      have distinct := normal.distinct
      rw [split, names, List.map_append, List.nodup_append] at distinct
      intro other later same
      exact distinct.2.2 property.name (List.mem_map_of_mem member) other.name
        (List.mem_map_of_mem later) same.symm
    rw [split] at passed
    obtain ⟨reached, passedFirst, passedAfter⟩ := hookPass_append passed
    rw [passedBefore] at passedFirst
    cases passedFirst
    have kept := get?_hookPass_of_unhooked property.name passedAfter
      fun other later same => absurd same (unseen other later)
    rw [← kept, finalHere, itemHere]
  · rw [if_neg derived]
    apply get?_hookPass_of_unhooked name passedBefore
    intro property member same
    have inSchema : property ∈ schema := by
      rw [split]
      exact List.mem_append_left after member
    apply plain.unhooked property inSchema
    cases composed : property.composite with
    | none => rfl
    | some template =>
        exfalso
        apply derived
        exact mem_compositeNames.mpr ⟨property, member, by rw [composed]; rfl, same⟩

/-- A composite that the document leaves out is settled if everything that it refers to
is in place when its default is filled in. -/
inductive Settles (schema : Schema) (document : Document) : String → Prop
  | composite {before after : List Property} {property : Property} {template : Template}
      (split : schema = before ++ property :: after)
      (composed : property.composite = some template)
      (absent : document.get? property.name = none)
      (declared : ∀ name ∈ template.references, name ∈ compositeNames schema →
        name ∈ compositeNames before)
      (settled : ∀ name ∈ template.references, name ∈ compositeNames schema →
        Settles schema document name)
      (known : ∀ name ∈ template.references, name ∉ compositeNames schema →
        name ∈ Schema.names before ∨ ∃ value, document.get? name = some value ∧
          ∀ other ∈ schema, other.name = name → other.type.isScalar = true) :
      Settles schema document property.name

theorem item_composite_eq (normal : schema.IsNormal) (plain : schema.HasPlainComposites)
    (split : schema = before ++ property :: after) (composed : property.composite = some template)
    (passed : hookPass .create schema filled = .ok final)
    (stores : ∀ property ∈ schema,
      storeField .create property (final.get? property.name) = .ok (item.get? property.name)) :
    item.get? property.name =
      some (.string (template.render (filled.overwrite item (compositeNames before)))) := by
  obtain ⟨middle, passedBefore, -, itemHolds⟩ :=
    composite_eq normal plain split composed passed stores
  have seen := get?_hookPass_before normal plain split passed stores passedBefore
  have same : template.render middle =
      template.render (filled.overwrite item (compositeNames before)) := by
    apply Template.render_congr
    intro name _
    exact Template.fieldText_congr (seen name)
  rw [itemHolds, same]

/-- The create hook of a settled composite renders the same as its default. -/
theorem Settles.get?_eq {document : Document} {calls later : Calls} {name : String}
    (settles : schema.Settles document name) (normal : schema.IsNormal)
    (plain : schema.HasPlainComposites)
    (fills : schema.fill document calls = (.ok filled, later))
    (passed : hookPass .create schema filled = .ok final)
    (stores : ∀ property ∈ schema,
      storeField .create property (final.get? property.name) = .ok (item.get? property.name)) :
    filled.get? name = item.get? name := by
  induction settles with
  | @composite before after property template split composed absent declared _ known induction =>
      obtain ⟨middle, passedBefore, -, itemHere⟩ :=
        composite_eq normal plain split composed passed stores
      have seen := get?_hookPass_before normal plain split passed stores passedBefore
      have member : property ∈ schema := by
        rw [split]
        exact List.mem_append_right before List.mem_cons_self
      have defaulted := ((normal.normal property member).composite template composed).2.1
      have distinct := normal.distinct
      have fillsWhole := fills
      rw [split] at distinct fillsWhole
      obtain ⟨reached, between, fillsBefore, filledHere, filledBefore⟩ :=
        fillFields_composite distinct defaulted fillsWhole absent
      rw [filledHere, itemHere]
      have agree : template.render reached = template.render middle := by
        apply Template.render_congr
        intro name referred
        apply Template.fieldText_congr
        rw [seen, Document.get?_overwrite]
        by_cases derived : name ∈ compositeNames schema
        · have inBefore := declared name referred derived
          rw [if_pos inBefore, ← filledBefore name (compositeNames_subset inBefore)]
          exact induction name referred derived
        · have notBefore : name ∉ compositeNames before := by
            intro inBefore
            apply derived
            rw [split]
            exact compositeNames_append inBefore
          rw [if_neg notBefore]
          rcases known name referred derived with inBefore | ⟨value, supplied, scalar⟩
          · exact (filledBefore name inBefore).symm
          · have whole : ∀ other ∈ schema, other.name = name → other.properties = none := by
              intro other inSchema same
              exact (normal.normal other inSchema).scalar (scalar other inSchema same)
            rw [get?_fillFields_of_some fills supplied whole]
            apply get?_fillFields_of_some fillsBefore supplied
            intro other inBefore same
            apply whole other _ same
            rw [split]
            exact List.mem_append_left _ inBefore
      rw [agree]

end Schema

namespace Table

variable {table : Table}

/-- A created composite is rendered from the filled document with the created values of
the composites declared before it.  It agrees with the created values of all composites
if those declared after it read the same as they are filled, as settled ones do. -/
structure CompositesAgree (schema : Schema) (document filled item : Document) : Prop where
  rendered : ∀ before property after template, schema = before ++ property :: after →
    property.composite = some template → item.get? property.name =
      some (.string (template.render (filled.overwrite item (Schema.compositeNames before))))
  agrees : ∀ before property after template, schema = before ++ property :: after →
    property.composite = some template →
      (∀ name ∈ template.references, name ∈ Schema.compositeNames after →
        Template.fieldText filled name = Template.fieldText item name) →
          item.get? property.name =
            some (.string (template.render (filled.overwrite item schema.compositeNames)))
  settled : ∀ name, schema.Settles document name → filled.get? name = item.get? name

theorem created_composites_agree {declarations : Declarations} {document : Document}
    {calls later : Calls} {request : PutRequest}
    (normalized : Schema.ofDeclarations declarations = .ok table.schema)
    (plain : table.schema.HasPlainComposites)
    (created : table.create document calls = (.ok request, later)) :
    ∃ filled, table.schema.fill document calls = (.ok filled, later) ∧
      CompositesAgree table.schema document filled request.item := by
  have normal := Schema.ofDeclarations_isNormal normalized
  obtain ⟨filled, item, -, fills, -, written, -, built⟩ := create_eq_ok created
  have itemHere : request.item = item := by
    rw [built, putRequest_item]
  rw [Table.write, mapError_eq_ok_iff] at written
  obtain ⟨final, passed, stores⟩ := Schema.write_eq_ok normal.distinct written
  rw [itemHere]
  refine ⟨filled, fills, ?_, ?_, ?_⟩
  · intro before property after template split composed
    exact Schema.item_composite_eq normal plain split composed passed stores
  · intro before property after template split composed sameText
    have member : property ∈ table.schema := by
      rw [split]
      exact List.mem_append_right before List.mem_cons_self
    have irreflexive :=
      Schema.not_mem_references_of_ofDeclarations normalized member composed
    rw [Schema.item_composite_eq normal plain split composed passed stores,
      Schema.render_overwrite_before split irreflexive sameText]
  · intro name settles
    exact settles.get?_eq normal plain fills passed stores

/-- Rooms with a title that is made of a code, which is made of an area and a number.
The title comes first, and still it has the whole code. -/
def roomDeclarations : Declarations :=
  [("title", { type := "string", composite := some "Room {code}" }),
    ("code", { type := "string", composite := some "{area}-{number}" }),
    ("area", { type := "string", required := true }),
    ("number", { type := "string", required := true })]

def room : Document := [("area", .string "N"), ("number", .string "7")]

theorem room_created :
    ∃ table request,
      define "Room" roomDeclarations { hash := "number", range := none } [] {} = .ok table ∧
      Schema.ofDeclarations roomDeclarations = .ok table.schema ∧
      table.schema.HasPlainComposites ∧
      table.create room Calls.none = (.ok request, Calls.none) ∧
      request.item.get? "title" = some (.string "Room N-7") := by
  refine ⟨_, _, rfl, rfl, ?_, rfl, rfl⟩
  constructor
  · intro property member composed
    simp only [List.mem_cons, List.not_mem_nil, or_false] at member
    rcases member with rfl | rfl | rfl | rfl
    · cases composed
    · cases composed
    · rfl
    · rfl
  · intro property member composed
    simp only [List.mem_cons, List.not_mem_nil, or_false] at member
    rcases member with rfl | rfl | rfl | rfl <;> rfl

theorem created_composites_agree_of_room :
    ∃ table request,
      define "Room" roomDeclarations { hash := "number", range := none } [] {} = .ok table ∧
      table.create room Calls.none = (.ok request, Calls.none) ∧
      request.item.get? "title" = some (.string "Room N-7") ∧
      ∃ filled, table.schema.fill room Calls.none = (.ok filled, Calls.none) ∧
        CompositesAgree table.schema room filled request.item := by
  obtain ⟨table, request, defined, normalized, plain, created, titled⟩ := room_created
  exact ⟨table, request, defined, created, titled,
    created_composites_agree normalized plain created⟩

/-- Three composites, each declared before the one that it refers to. -/
def chainDeclarations : Declarations :=
  [("long", { type := "string", composite := some "long {middle}" }),
    ("middle", { type := "string", composite := some "middle {short}" }),
    ("short", { type := "string", composite := some "short {id}" }),
    ("id", { type := "string", required := true })]

def chain : Document := [("id", .string "1")]

/-- Two passes do not reach the first of the three composites. -/
theorem created_composites_disagree :
    ∃ table request filled property template,
      define "Chain" chainDeclarations { hash := "id", range := none } [] {} = .ok table ∧
      Schema.ofDeclarations chainDeclarations = .ok table.schema ∧
      table.schema.HasPlainComposites ∧
      table.create chain Calls.none = (.ok request, Calls.none) ∧
      table.schema.fill chain Calls.none = (.ok filled, Calls.none) ∧
      table.schema.get? "long" = some property ∧ property.composite = some template ∧
      request.item.get? "long" = some (.string "long middle ") ∧
      template.render (filled.overwrite request.item table.schema.compositeNames) =
        "long middle short 1" := by
  refine ⟨_, _, _, _, _, rfl, rfl, ?_, rfl, rfl, rfl, rfl, rfl, rfl⟩
  constructor
  · intro property member composed
    simp only [List.mem_cons, List.not_mem_nil, or_false] at member
    rcases member with rfl | rfl | rfl | rfl
    · cases composed
    · cases composed
    · cases composed
    · rfl
  · intro property member composed
    simp only [List.mem_cons, List.not_mem_nil, or_false] at member
    rcases member with rfl | rfl | rfl | rfl <;> rfl

end Table

end ItemTable
