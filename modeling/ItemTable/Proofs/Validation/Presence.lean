import ItemTable.Proofs.Schema.Places
import ItemTable.Validation.Presence
import Mathlib.Tactic.Choose

/-!
# Reports of missing and undeclared fields

The two checks that report all places at once list exactly the locations of missing and of
undeclared fields, at every depth: missing fields in the order of the schemas, undeclared
fields in the order of the document.  Paths are built on the way down, and are the paths of
the locations because paths are joined associatively.
-/

namespace ItemTable

section Reports

variable {parent : String} {names : Location → List String} {paths : List String}
variable {holds other : Location → Prop} {value : Value}

/-- Paths, seen from where `parent` starts, of the locations that satisfy a condition, in
depth-first order. -/
def Reports (parent : String) (names : Location → List String) (paths : List String)
    (holds : Location → Prop) : Prop :=
  ∃ locations, Location.Enumerates id names locations holds ∧
    paths = locations.map fun location => Path.join parent location.path

namespace Reports

theorem congr (reports : Reports parent names paths holds)
    (same : ∀ location, holds location ↔ other location) : Reports parent names paths other := by
  obtain ⟨locations, enumerates, listed⟩ := reports
  exact ⟨locations, enumerates.congr same, listed⟩

theorem nil (none : ∀ location, ¬ holds location) : Reports parent names [] holds :=
  ⟨[], .nil none, rfl⟩

theorem here : Reports parent names [parent] fun location => location = [] := by
  refine ⟨[[]], ⟨List.pairwise_singleton _ _, fun location => List.mem_singleton⟩, ?_⟩
  rw [List.map_singleton, Location.path, Path.join_empty]

theorem flatMap {ι : Type} {items : List ι} {list : ι → List String} {holds : ι → Location → Prop}
    (each : ∀ item ∈ items, Reports parent names (list item) (holds item))
    (apart : items.Pairwise fun item later => ∀ first second, holds item first →
      holds later second → Location.Before names first second) :
    Reports parent names (items.flatMap list) fun location =>
      ∃ item ∈ items, holds item location := by
  choose! locations enumerates listed using each
  refine ⟨items.flatMap locations, .flatMap enumerates apart, ?_⟩
  rw [List.map_flatMap]
  exact List.flatMap_congr listed

theorem under {start : Location}
    (reports : Reports (Path.join parent start.path) (fun rest => names (start ++ rest)) paths
      holds) :
    Reports parent names paths fun location =>
      ∃ rest, holds rest ∧ location = start ++ rest := by
  obtain ⟨locations, enumerates, rfl⟩ := reports
  refine ⟨locations.map (start ++ ·), enumerates.under fun _ => rfl, ?_⟩
  rw [List.map_map]
  refine List.map_congr_left fun location _ => ?_
  rw [Function.comp_apply, Location.path_append, Path.join_assoc]

theorem field {name : String}
    (reports : Reports (Path.join parent name) (fun rest => names (.field name :: rest)) paths
      holds) :
    Reports parent names paths fun location =>
      ∃ rest, holds rest ∧ location = .field name :: rest := by
  have segment : Path.join parent (Location.path [.field name]) = Path.join parent name := by
    rw [Location.path_singleton]
    rfl
  rw [← segment] at reports
  exact reports.under

/-- The reports of the documents of a value, one after another. -/
theorem documents (find : String → Document → List String) (holds : Document → Location → Prop)
    (each : ∀ start fields, (start, fields) ∈ value.documents → ∀ parent,
      Reports parent (fun rest => names (start ++ rest)) (find parent fields) (holds fields)) :
    Reports parent names
      (value.documents.flatMap fun held => find (Path.join parent held.1.path) held.2)
      fun location => ∃ held ∈ value.documents, ∃ rest, holds held.2 rest ∧
        location = held.1 ++ rest := by
  apply flatMap
  · rintro ⟨start, fields⟩ member
    exact (each start fields member _).under
  · have apart := value.pairwise_documents names
    refine apart.imp ?_
    rintro first second before _ _ ⟨rest, -, rfl⟩ ⟨otherRest, -, rfl⟩
    exact before rest otherRest

end Reports

end Reports

namespace Schema

variable {schema nested : Schema} {document : Document} {parent path : String} {value : Value}

theorem findInElements_eq (find : String → Document → List String) {position : Nat}
    {items : List Value} :
    findInElements find path position items =
      (Value.documentsAmong position items).flatMap fun held =>
        find (Path.join path held.1.path) held.2 := by
  induction items generalizing position with
  | nil => rfl
  | cons item items induction =>
      cases item with
      | map fields =>
          rw [findInElements, induction, Value.documentsAmong, List.flatMap_cons,
            Location.path_singleton, Step.segment, Path.join_element]
      | _ => exact induction

theorem missingInside_eq :
    missingInside path (some nested) value =
      value.documents.flatMap fun held =>
        missingFields (Path.join path held.1.path) nested held.2 := by
  cases value with
  | map fields =>
      rw [missingInside, Value.documents, List.flatMap_singleton, Location.path, Path.join_empty]
  | list items => exact findInElements_eq fun path fields => missingFields path nested fields
  | _ => rfl

theorem unexpectedElements_eq {position : Nat} {items : List Value} :
    unexpectedElements path nested position items =
      findInElements (fun path fields => unexpectedFields path nested fields) path position
        items := by
  induction items generalizing position with
  | nil => rfl
  | cons item items induction =>
      cases item with
      | map fields =>
          rw [unexpectedElements, findInElements, induction]
          rfl
      | _ => exact induction

theorem unexpectedInside_none : unexpectedInside path none value = [] := by
  cases value <;> rfl

theorem unexpectedInside_eq :
    unexpectedInside path (some nested) value =
      value.documents.flatMap fun held =>
        unexpectedFields (Path.join path held.1.path) nested held.2 := by
  cases value with
  | map fields =>
      rw [unexpectedInside, Value.documents, List.flatMap_singleton, Location.path,
        Path.join_empty]
  | list items =>
      rw [unexpectedInside, unexpectedElements_eq]
      exact findInElements_eq _
  | _ => rfl

/-- Whether a schema requires a name, without a default, that a document does not hold. -/
def IsMissing (schema : Schema) (document : Document) (name : String) : Prop :=
  ∃ property ∈ schema, property.name = name ∧ property.required = true ∧
    property.default = none ∧ document.get? name = none

/-- Whether a document holds a name that a schema does not declare. -/
def IsUndeclared (schema : Schema) (document : Document) (name : String) : Prop :=
  name ∈ document.names ∧ name ∉ schema.names

section Missing

theorem missingFields_eq :
    missingFields parent schema document =
      schema.flatMap fun property => missingField parent property document := by
  induction schema with
  | nil => rfl
  | cons property schema induction => rw [missingFields, induction, List.flatMap_cons]

theorem missingField_eq (property : Property) :
    missingField parent property document =
      match document.get? property.name with
      | none =>
          if property.required && property.default.isNone then
            [Path.join parent property.name] else []
      | some value => missingInside (Path.join parent property.name) property.properties value := by
  obtain ⟨traits, nested⟩ := property
  unfold missingField
  rfl

theorem reports_missingInside
    (inside : ∀ parent fields, Reports parent nested.namesAt (missingFields parent nested fields)
      (nested.FoundAt fields IsMissing)) :
    Reports parent nested.namesAt (missingInside parent (some nested) value) fun location =>
      ∃ held ∈ value.documents, ∃ rest, nested.FoundAt held.2 IsMissing rest ∧
        location = held.1 ++ rest := by
  rw [missingInside_eq]
  apply Reports.documents (fun path fields => missingFields path nested fields)
    fun fields => nested.FoundAt fields IsMissing
  intro start fields holds parent
  rw [namesAt_documents holds]
  exact inside parent fields

/-- Where a property is missing, or something is missing inside it, seen from the property. -/
def MissesAt (property : Property) (document : Document) (location : Location) : Prop :=
  (property.required = true ∧ property.default = none ∧ document.get? property.name = none ∧
    location = []) ∨ FoundInside property document IsMissing location

theorem reports_missingField {property : Property} (normal : schema.IsNormal)
    (member : property ∈ schema)
    (inside : ∀ nested, property.properties = some nested → ∀ parent fields,
      Reports parent (namesAt nested) (missingFields parent nested fields)
        (FoundAt nested fields IsMissing)) :
    Reports parent schema.namesAt (missingField parent property document) fun location =>
      ∃ rest, MissesAt property document rest ∧ location = .field property.name :: rest := by
  apply Reports.field
  rw [missingField_eq]
  cases held : document.get? property.name with
  | none =>
      have misses_iff : ∀ location, MissesAt property document location ↔
          (property.required = true ∧ property.default = none) ∧ location = [] := by
        intro location
        simp [MissesAt, FoundInside, held, and_assoc]
      dsimp only
      split
      · next lacks =>
          rw [Bool.and_eq_true, Option.isNone_iff_eq_none] at lacks
          refine Reports.here.congr fun location => ?_
          rw [misses_iff, and_iff_right lacks]
      · next suits =>
          rw [Bool.and_eq_true, Option.isNone_iff_eq_none] at suits
          refine .nil fun location misses => ?_
          exact suits ((misses_iff location).mp misses).1
  | some value =>
      cases carries : property.properties with
      | none =>
          refine .nil fun location misses => ?_
          simp [MissesAt, FoundInside, held, carries] at misses
      | some nested =>
          rw [namesAt_field normal member carries]
          refine (reports_missingInside (inside nested carries)).congr fun location => ?_
          simp [MissesAt, FoundInside, held, carries]

theorem foundAt_missing_iff {location : Location} :
    schema.FoundAt document IsMissing location ↔
      ∃ property ∈ schema, ∃ rest, MissesAt property document rest ∧
        location = .field property.name :: rest := by
  rw [foundAt_iff]
  constructor
  · rintro (⟨_, ⟨property, member, rfl, required, defaultless, absent⟩, rfl⟩ |
      ⟨property, member, rest, found, rfl⟩)
    · exact ⟨property, member, [], Or.inl ⟨required, defaultless, absent, rfl⟩, rfl⟩
    · exact ⟨property, member, rest, Or.inr found, rfl⟩
  · rintro ⟨property, member, rest, ⟨required, defaultless, absent, rfl⟩ | found, rfl⟩
    · exact Or.inl ⟨_, ⟨property, member, rfl, required, defaultless, absent⟩, rfl⟩
    · exact Or.inr ⟨property, member, rest, found, rfl⟩

theorem reports_missingFields (schema : Schema) : schema.IsDeeplyNormal → ∀ parent document,
    Reports parent schema.namesAt (missingFields parent schema document)
      (schema.FoundAt document IsMissing) := by
  induction schema using Schema.induction with
  | step schema induction =>
      intro normal parent document
      rw [missingFields_eq]
      refine (Reports.flatMap (fun property member =>
        reports_missingField (normal _ (.self _)) member ?_) ?_).congr fun location =>
          foundAt_missing_iff.symm
      · intro nested carries
        exact induction property member nested carries (normal.of_carries member carries)
      · have ordered : schema.namesAt [] = schema.map fun property => property.name := rfl
        refine (Location.pairwise_fields ordered).imp ?_
        rintro property later before _ _ ⟨rest, -, rfl⟩ ⟨otherRest, -, rfl⟩
        exact before rest otherRest

end Missing

section Unexpected

variable {name : String}

/-- The paths of undeclared fields at and inside one field. -/
def unexpectedField (parent : String) (schema : Schema) (name : String) (value : Value) :
    List String :=
  match schema.get? name with
  | none => [Path.join parent name]
  | some property => unexpectedInside (Path.join parent name) property.properties value

theorem unexpectedFields_eq :
    unexpectedFields parent schema document =
      document.flatMap fun entry => unexpectedField parent schema entry.1 entry.2 := by
  induction document with
  | nil => rfl
  | cons entry document induction =>
      rw [unexpectedFields, induction, List.flatMap_cons]
      rfl

theorem reports_unexpectedInside (distinct : value.isDistinct = true)
    (inside : ∀ parent fields, (Value.map fields).isDistinct = true →
      Reports parent (Value.map fields).namesAt (unexpectedFields parent nested fields)
        (nested.FoundAt fields IsUndeclared)) :
    Reports parent value.namesAt (unexpectedInside parent (some nested) value) fun location =>
      ∃ held ∈ value.documents, ∃ rest, nested.FoundAt held.2 IsUndeclared rest ∧
        location = held.1 ++ rest := by
  rw [unexpectedInside_eq]
  apply Reports.documents (fun path fields => unexpectedFields path nested fields)
    fun fields => nested.FoundAt fields IsUndeclared
  intro start fields holds parent
  rw [Value.namesAt_documents holds]
  exact inside parent fields (Value.isDistinct_of_documents distinct holds)

/-- Where a field is undeclared, or something is undeclared inside it, seen from the field. -/
def StraysAt (schema : Schema) (document : Document) (name : String) (location : Location) :
    Prop :=
  match schema.get? name with
  | none => location = []
  | some property => FoundInside property document IsUndeclared location

theorem reports_unexpectedField (distinct : (Value.map document).isDistinct = true)
    (member : (name, value) ∈ document)
    (inside : ∀ property ∈ schema, ∀ nested, property.properties = some nested →
      ∀ parent fields, (Value.map fields).isDistinct = true →
        Reports parent (Value.map fields).namesAt (unexpectedFields parent nested fields)
          (FoundAt nested fields IsUndeclared)) :
    Reports parent (Value.map document).namesAt (unexpectedField parent schema name value)
      fun location => ∃ rest, StraysAt schema document name rest ∧
        location = .field name :: rest := by
  apply Reports.field
  have found := Entries.get?_of_mem (Value.isDistinct_map.mp distinct).1 member
  rw [Value.namesAt_field found, unexpectedField]
  cases declared : schema.get? name with
  | none =>
      refine Reports.here.congr fun location => ?_
      rw [StraysAt, declared]
  | some property =>
      obtain ⟨listed, rfl⟩ := get?_eq_some declared
      dsimp only
      cases carries : property.properties with
      | none =>
          rw [unexpectedInside_none]
          refine .nil fun location strays => ?_
          simp [StraysAt, declared, FoundInside, carries] at strays
      | some nested =>
          refine (reports_unexpectedInside (Value.isDistinct_of_get? distinct found)
            (inside property listed nested carries)).congr fun location => ?_
          simp [StraysAt, declared, FoundInside, found, carries]

theorem foundAt_undeclared_iff (normal : schema.IsNormal) {location : Location} :
    schema.FoundAt document IsUndeclared location ↔
      ∃ entry ∈ document, ∃ rest, StraysAt schema document entry.1 rest ∧
        location = .field entry.1 :: rest := by
  rw [foundAt_iff]
  constructor
  · rintro (⟨name, ⟨held, undeclared⟩, rfl⟩ | ⟨property, member, rest, found, rfl⟩)
    · obtain ⟨entry, member, rfl⟩ := List.mem_map.mp held
      refine ⟨entry, member, [], ?_, rfl⟩
      rw [StraysAt, get?_eq_none_iff.mpr undeclared]
    · obtain ⟨nested, value, carries, held, inside⟩ := found
      refine ⟨(property.name, value), Entries.mem_of_get? held, rest, ?_, rfl⟩
      rw [StraysAt, normal.get?_eq member]
      exact ⟨nested, value, carries, held, inside⟩
  · rintro ⟨⟨name, value⟩, member, rest, strays, rfl⟩
    rw [StraysAt] at strays
    cases declared : schema.get? name with
    | none =>
        rw [declared] at strays
        cases strays
        exact Or.inl ⟨name, ⟨List.mem_map_of_mem member, not_mem_names_of_get? declared⟩, rfl⟩
    | some property =>
        rw [declared] at strays
        obtain ⟨listed, rfl⟩ := get?_eq_some declared
        exact Or.inr ⟨property, listed, rest, strays, rfl⟩

theorem reports_unexpectedFields (schema : Schema) : schema.IsDeeplyNormal →
    ∀ parent document, (Value.map document).isDistinct = true →
      Reports parent (Value.map document).namesAt (unexpectedFields parent schema document)
        (schema.FoundAt document IsUndeclared) := by
  induction schema using Schema.induction with
  | step schema induction =>
      intro normal parent document distinct
      rw [unexpectedFields_eq]
      refine (Reports.flatMap (fun entry member =>
        reports_unexpectedField distinct member ?_) ?_).congr fun location =>
          (foundAt_undeclared_iff (normal _ (.self _))).symm
      · intro property listed nested carries
        exact induction property listed nested carries (normal.of_carries listed carries)
      · have ordered : (Value.map document).namesAt [] = document.map Prod.fst := rfl
        refine (Location.pairwise_fields ordered).imp ?_
        rintro entry later before _ _ ⟨rest, -, rfl⟩ ⟨otherRest, -, rfl⟩
        exact before rest otherRest

end Unexpected

/-- The outcome of a check that reports all locations that satisfy a condition by their paths,
each location once and in depth-first order.  Distinct locations may share a path, where a name
is empty or written like a position as in `l[0]`. -/
def ReportsAll (names : Location → List String) (holds : Location → Prop)
    (report : List String → ValidationError) (outcome : Except ValidationError Unit) : Prop :=
  ∃ locations, Location.Enumerates id names locations holds ∧ locations.Nodup ∧
    (outcome = .ok () ↔ ∀ location, ¬ holds location) ∧
    ∀ error, outcome = .error error ↔
      locations ≠ [] ∧ error = report (locations.map Location.path)

theorem reportsAll_of_reports {names : Location → List String} {paths : List String}
    {holds : Location → Prop} {outcome : Except ValidationError Unit}
    (reports : Reports "" names paths holds) (distinct : ∀ location, (names location).Nodup)
    (report : List String → ValidationError)
    (decided : outcome = if paths = [] then .ok () else .error (report paths)) :
    ReportsAll names holds report outcome := by
  obtain ⟨locations, enumerates, rfl⟩ := reports
  simp only [Path.empty_join, List.map_eq_nil_iff] at decided
  refine ⟨locations, enumerates, enumerates.nodup distinct, ?_⟩
  simp only [← enumerates.complete, ← List.eq_nil_iff_forall_not_mem]
  rw [decided]
  by_cases none : locations = []
  · simp [none]
  · simp [none, eq_comm]

/-- A document is refused for missing fields with the paths of all required properties without
a default that it lacks, at every depth and in the order of the schemas.  It is refused for
undeclared fields with the paths of all names that no property declares, at every depth and in
its own order. -/
theorem reports_offending_locations {declarations : Declarations} {schema : Schema}
    (normalized : ofDeclarations declarations = .ok schema) (document : Document) :
    ReportsAll schema.namesAt (schema.FoundAt document IsMissing) .missingRequired
      (schema.testRequired document) ∧
    ((Value.map document).isDistinct = true →
      ReportsAll (Value.map document).namesAt (schema.FoundAt document IsUndeclared)
        .unexpectedFields (schema.testDeclared document)) := by
  have normal := ofDeclarations_isDeeplyNormal normalized
  constructor
  · refine reportsAll_of_reports (reports_missingFields schema normal "" document)
      (namesAt_nodup normal) _ ?_
    rw [testRequired]
    cases missingFields "" schema document <;> simp
  · intro distinct
    refine reportsAll_of_reports (reports_unexpectedFields schema normal "" document distinct)
      (Value.namesAt_nodup distinct) _ ?_
    rw [testDeclared]
    cases unexpectedFields "" schema document <;> simp

/-- Orders have a number, a buyer and lines with an article each. -/
def orderDeclarations : Declarations :=
  [("number", { type := "string", required := true }),
    ("lines", {
      type := "list", required := true
      properties := some [("article", { type := "string", required := true }),
        ("count", { type := "number", required := true, default := some (.constant .null) })] }),
    ("buyer", {
      type := "object"
      properties := some [("name", { type := "string", required := true })] })]

/-- An order without a number, with a line that has no article, and with a gift note. -/
def giftOrder : Document :=
  [("buyer", .map [("title", .string "Dr"), ("name", .string "Ada")]), ("note", .null),
    ("lines", .list [.map [("article", .string "pen")], .string "pen", .map [("gift", .null)]])]

theorem reports_offending_locations_of_order :
    ∃ schema, ofDeclarations orderDeclarations = .ok schema ∧
      ReportsAll schema.namesAt (schema.FoundAt giftOrder IsMissing) .missingRequired
        (.error (.missingRequired ["number", "lines[2].article"])) ∧
      ReportsAll (Value.map giftOrder).namesAt (schema.FoundAt giftOrder IsUndeclared)
        .unexpectedFields
        (.error (.unexpectedFields ["buyer.title", "note", "lines[2].gift"])) := by
  have accepted : ∃ schema, ofDeclarations orderDeclarations = .ok schema ∧
      schema.testRequired giftOrder = .error (.missingRequired ["number", "lines[2].article"]) ∧
      schema.testDeclared giftOrder =
        .error (.unexpectedFields ["buyer.title", "note", "lines[2].gift"]) :=
    ⟨_, rfl, rfl, rfl⟩
  obtain ⟨schema, normalized, lacks, strays⟩ := accepted
  obtain ⟨missing, undeclared⟩ := reports_offending_locations normalized giftOrder
  rw [lacks] at missing
  rw [strays] at undeclared
  exact ⟨schema, normalized, missing, undeclared (by decide)⟩

end Schema

end ItemTable
