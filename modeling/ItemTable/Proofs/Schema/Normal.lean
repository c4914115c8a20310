import ItemTable.Proofs.Schema.Levels

/-!
# Normal schemas

What normalization promises of every level of a schema: names are distinct and
without points, only structural properties have a schema inside, and a composite
is a string whose template is both its default and its create hook.
-/

namespace ItemTable

/-- A property as normalization leaves it. -/
structure Property.IsNormal (property : Property) : Prop where
  scalar : property.type.isScalar = true → property.properties = none
  composite : ∀ template, property.composite = some template →
    property.type = .string ∧ property.default = some (.composite template) ∧
      property.hooks.onCreate = some template.toHook

theorem Property.IsNormal.flat_of_date {property : Property} (normal : property.IsNormal)
    (isDate : property.type = .date) : property.properties = none := by
  apply normal.scalar
  rw [isDate]
  rfl

/-- Among things of distinct names, each is found by its name. -/
theorem find?_eq_of_nodup {α : Type} (name : α → String) {things : List α} {thing : α}
    (distinct : (things.map name).Nodup) (member : thing ∈ things) :
    things.find? (fun other => name other = name thing) = some thing := by
  induction things with
  | nil => cases member
  | cons first things induction =>
      rw [List.map_cons, List.nodup_cons] at distinct
      rcases List.mem_cons.mp member with rfl | later
      · simp
      · have other : name first ≠ name thing := by
          intro same
          apply distinct.1
          rw [same]
          exact List.mem_map_of_mem later
        simpa [List.find?_cons, other] using induction distinct.2 later

namespace Schema

/-- The properties of one level, as normalization leaves them. -/
structure IsNormal (schema : Schema) : Prop where
  distinct : schema.names.Nodup
  normal : ∀ property ∈ schema, property.IsNormal

variable {schema : Schema}

theorem get?_eq_some {name : String} {property : Property}
    (found : schema.get? name = some property) : property ∈ schema ∧ property.name = name := by
  constructor
  · exact List.mem_of_find?_eq_some found
  · simpa using List.find?_some found

theorem not_mem_names_of_get? {name : String} (undeclared : schema.get? name = none) :
    name ∉ schema.names := by
  intro listed
  obtain ⟨property, member, rfl⟩ := List.mem_map.mp listed
  simpa using List.find?_eq_none.mp undeclared property member

theorem get?_eq_none_iff {name : String} : schema.get? name = none ↔ name ∉ schema.names := by
  refine ⟨not_mem_names_of_get?, ?_⟩
  intro unlisted
  refine List.find?_eq_none.mpr ?_
  intro property member named
  rw [decide_eq_true_eq] at named
  exact unlisted (named ▸ List.mem_map_of_mem member)

theorem IsNormal.get?_eq (normal : schema.IsNormal) {property : Property}
    (member : property ∈ schema) : schema.get? property.name = some property :=
  find?_eq_of_nodup (fun property : Property => property.name) normal.distinct member

end Schema

namespace Declaration

theorem compositeTemplate_eq_some {path : String} {top : Bool} {type : AttributeType}
    {traits : DeclaredTraits} {template : Template}
    (declared : compositeTemplate path top type traits = .ok (some template)) :
    type = .string := by
  unfold compositeTemplate at declared
  split at declared
  · cases declared
  · split at declared
    · cases declared
    · split at declared
      · cases declared
      · next isString => simpa using isString

theorem normalize_isNormal {name path : String} {top : Bool} {declaration : Declaration}
    {property : Property} (normalized : normalize name path top declaration = .ok property) :
    property.name = name ∧ property.IsNormal := by
  obtain ⟨type, -, inside, normal⟩ := normalize_eq_ok_iff.mp normalized
  obtain ⟨traits, properties⟩ := property
  simp only [Declaration.normalTraits, bind_eq_ok_iff] at normal
  obtain ⟨allowed, -, ⟨⟩, -, composite, declared, built⟩ := normal
  cases built
  refine ⟨rfl, ?_, ?_⟩
  · intro scalar
    cases nested : declaration.properties with
    | none =>
        rw [nested, normalizeInside] at inside
        cases inside
        rfl
    | some declarations =>
        rw [nested, normalizeInside_some, if_pos scalar] at inside
        cases inside
  · intro template isComposite
    cases isComposite
    exact ⟨compositeTemplate_eq_some declared, rfl, rfl⟩

theorem names_eq_of_normalized {parent : String} {top : Bool} {seen : List String}
    {declarations : Declarations} {properties : List Property}
    (normalized : normalizeAll parent top seen declarations = .ok properties) :
    Schema.names properties = Entries.names declarations := by
  obtain ⟨each, -⟩ := normalizeAll_eq_ok_iff.mp normalized
  clear normalized
  induction each with
  | nil => rfl
  | cons first _ induction =>
      rw [Schema.names, List.map_cons, (normalize_isNormal first).1, Entries.names, List.map_cons]
      exact congrArg _ induction

theorem normalizeAll_isNormal {parent : String} {top : Bool} {seen : List String}
    {declarations : Declarations} {properties : List Property}
    (normalized : normalizeAll parent top seen declarations = .ok properties) :
    Schema.IsNormal properties := by
  constructor
  · rw [names_eq_of_normalized normalized]
    exact (normalizeAll_eq_ok_iff.mp normalized).2.2
  · intro property member
    obtain ⟨entry, -, normalizedProperty⟩ := exists_declaration_of_mem normalized member
    exact (normalize_isNormal normalizedProperty).2

end Declaration

namespace Schema

theorem normalizeAll_of_ofDeclarations {declarations : Declarations} {schema : Schema}
    (normalized : ofDeclarations declarations = .ok schema) :
    Declaration.normalizeAll "" true [] declarations = .ok schema := by
  simp only [ofDeclarations, ofLevel, bind_eq_ok_iff] at normalized
  obtain ⟨whole, ⟨properties, normalizedAll, ⟨⟩, -, same⟩, built⟩ := normalized
  cases same
  split at built
  · cases built
  · cases built
    exact normalizedAll

theorem ofDeclarations_isNormal {declarations : Declarations} {schema : Schema}
    (normalized : ofDeclarations declarations = .ok schema) : schema.IsNormal :=
  Declaration.normalizeAll_isNormal (normalizeAll_of_ofDeclarations normalized)

/-- No template of a normal schema refers to its own property. -/
theorem not_mem_references_of_ofDeclarations {declarations : Declarations} {schema : Schema}
    (normalized : ofDeclarations declarations = .ok schema) {property : Property}
    (member : property ∈ schema) {template : Template}
    (composed : property.composite = some template) : property.name ∉ template.references := by
  simp only [ofDeclarations, bind_eq_ok_iff] at normalized
  obtain ⟨whole, -, built⟩ := normalized
  split at built
  · cases built
  · next acyclic =>
      cases built
      intro refersToItself
      have untraced := List.findSome?_eq_none_iff.mp acyclic property member
      rw [cycleFrom?, composed] at untraced
      cases traced : cycleVariable? schema (schema.length + 1) [property.name] template with
      | some name => simp [traced] at untraced
      | none =>
          rw [cycleVariable?] at traced
          have unclosed := List.findSome?_eq_none_iff.mp traced property.name refersToItself
          simp at unclosed

end Schema

end ItemTable
