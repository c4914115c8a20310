import ItemTable.Proofs.Request.Fragments
import ItemTable.Proofs.Table.Results

/-!
# Placeholders of requests

The expressions of a request are put together from fragments: a condition from the
existence of the item and a filter, a query from its key condition, a filter and a
projection, and so on.  In every request, just the placeholders of the expressions
are bound, and each stands for what its own fragment binds it to.
-/

namespace ItemTable

/-! ## Expressions and fragments of requests -/

def PutRequest.expressions (request : PutRequest) : List String :=
  request.condition.toList

def UpdateRequest.expressions (request : UpdateRequest) : List String :=
  request.update.toList ++ request.condition.toList

def DeleteRequest.expressions (request : DeleteRequest) : List String :=
  request.condition.toList

def GetRequest.expressions (request : GetRequest) : List String :=
  request.projection.toList

/-- A get has no values to bind. -/
def GetRequest.bindings (request : GetRequest) : Bindings :=
  { names := request.names }

def QueryRequest.expressions (request : QueryRequest) : List String :=
  request.keyCondition :: (request.filter.toList ++ request.projection.toList)

def ScanRequest.expressions (request : ScanRequest) : List String :=
  request.filter.toList ++ request.projection.toList

namespace Table

/-- The fragments of a create. -/
def createFragments (table : Table) : List Fragment :=
  if table.config.createCondition then [table.key.createCondition] else []

/-- The fragments of an update: its statement, that the item exists, and the filter. -/
def updateFragments (table : Table) (changes : Document) (condition : Option Where) :
    Except TableError (List Fragment) := do
  let stored ← table.write .update (table.withoutKey changes)
  let filter ← table.filter condition
  return (table.withoutKey stored).updateStatement?.toList ++
    table.key.existsCondition :: filter.toList

/-- The fragments of an upsert. -/
def upsertFragments (table : Table) (document : Document) (calls : Calls) :
    Except TableError (List Fragment) := do
  let filled ← (table.schema.fill document calls).1.mapError .coercion
  let stored ← table.write .upsert filled
  return ((table.withoutKey stored).upsertStatement? (table.exactFields document)).toList

/-- The fragments of a delete. -/
def deleteFragments (table : Table) (condition : Option Where) :
    Except TableError (List Fragment) :=
  (table.filter condition).map Option.toList

/-- The fragments of a get. -/
def getFragments (table : Table) (attributes : List String) :
    Except TableError (List Fragment) :=
  (table.projection attributes).map Option.toList

/-- The fragments of a query: its key condition, the filter and the projection. -/
def queryFragments (table : Table) (query : Query) : Except TableError (List Fragment) := do
  let condition ← (query.key.keyCondition table.schema).mapError .compile
  let filter ← table.filter query.filter
  let projection ← table.projection query.attributes
  return condition.toList ++ filter.toList ++ projection.toList

/-- The fragments of a scan. -/
def scanFragments (table : Table) (scan : Scan) : Except TableError (List Fragment) := do
  let filter ← table.filter scan.filter
  let projection ← table.projection scan.attributes
  return filter.toList ++ projection.toList

/-! ## Letters of fragments -/

variable {table : Table}

theorem filter_isLettered {document : Option Where} {filter : Fragment}
    (compiled : table.filter document = .ok (some filter)) : filter.IsLettered 'f' := by
  cases document with
  | none => cases compiled
  | some document =>
      rw [Table.filter, mapError_eq_ok_iff] at compiled
      exact Where.filter_isLettered compiled

theorem filter_letters {document : Option Where} {filter : Option Fragment}
    (compiled : table.filter document = .ok filter) :
    List.Forall₂ Fragment.IsLettered filter.toList (filter.toList.map fun _ => 'f') := by
  cases filter with
  | none => exact .nil
  | some fragment => exact .cons (filter_isLettered compiled) .nil

theorem projection_letters {attributes : List String} {projection : Option Fragment}
    (compiled : table.projection attributes = .ok projection) :
    List.Forall₂ Fragment.IsLettered projection.toList
      (projection.toList.map fun _ => 'p') := by
  cases projection with
  | none => exact .nil
  | some fragment =>
      rw [Table.projection, mapError_eq_ok_iff] at compiled
      exact .cons (Schema.projection_isLettered compiled) .nil

theorem setStatement_letters (document : Document) (isExact : String → Bool) :
    List.Forall₂ Fragment.IsLettered (document.setStatement? isExact).toList
      ((document.setStatement? isExact).toList.map fun _ => 'u') := by
  cases printed : document.setStatement? isExact with
  | none => exact .nil
  | some fragment => exact .cons (Document.setStatement?_isLettered printed) .nil

/-! ## Builders -/

theorem create_resolves {document : Document} {calls later : Calls} {request : PutRequest}
    (created : table.create document calls = (.ok request, later)) :
    request.bindings.Resolves request.expressions table.createFragments := by
  obtain ⟨filled, item, -, -, -, -, -, rfl⟩ := create_eq_ok created
  rw [putRequest, createFragments]
  split
  · have lettered : (table.key.existence "attribute_not_exists").IsLettered '_' :=
      KeySchema.existence_isLettered (by decide) table.key
    exact Bindings.absorbAll_resolves (.cons lettered .nil) (by decide)
  · exact Bindings.absorbAll_resolves .nil (by decide)

theorem update_resolves {key changes : Document} {condition : Option Where}
    {request : UpdateRequest} (updated : table.update key changes condition = .ok request) :
    ∃ fragments, table.updateFragments changes condition = .ok fragments ∧
      request.bindings.Resolves request.expressions fragments := by
  obtain ⟨keyDocument, stored, statement, guard, -, -, -, written, printed, guarded, rfl⟩ :=
    update_eq_ok updated
  obtain ⟨filter, compiled, rfl⟩ := updateGuard_eq_ok guarded
  have setting := Document.setStatement?_isLettered printed
  have present : table.key.existsCondition.IsLettered '_' :=
    KeySchema.existence_isLettered (by decide) table.key
  refine ⟨statement :: table.key.existsCondition :: filter.toList, ?_, ?_⟩
  · rw [updateFragments, written, compiled]
    simp [printed, bind, Except.bind, pure, Except.pure]
  · cases filter with
    | none => exact Bindings.absorbAll_resolves (.cons setting (.cons present .nil)) (by decide)
    | some filter =>
        have filtering := filter_isLettered compiled
        refine Bindings.resolves_of_letters
          (.cons setting (.cons present (.cons filtering .nil))) (by decide) ?_ ?_ ?_
        · intro sigil member
          have plain : sigil ≠ '(' ∧ sigil ≠ ')' := by
            rcases List.mem_pair.mp member with rfl | rfl <;> decide
          have absent : sigil ∉ Piece.andSeparator := by
            rcases List.mem_pair.mp member with rfl | rfl <;> decide
          have joined := Fragment.and_occurrences plain absent table.key.existsCondition filter
          simp only [UpdateRequest.expressions, UpdateRequest.withUpdate,
            UpdateRequest.withCondition, Option.map_some, Option.getD_some, Option.toList_some,
            List.singleton_append, List.flatMap_cons, List.flatMap_nil, List.append_nil, joined]
        · intro placeholder
          have joined := (Fragment.get?_and present.closed filtering.closed placeholder).1
          simp only [Option.map_some, Option.getD_some, UpdateRequest.withUpdate,
            UpdateRequest.withCondition, Bindings.get?_absorb_names, Bindings.absorbAll,
            List.foldl_cons, List.foldl_nil, Option.or_assoc]
          exact congrArg _ (congrArg _ joined)
        · intro placeholder
          have joined := (Fragment.get?_and present.closed filtering.closed placeholder).2
          simp only [Option.map_some, Option.getD_some, UpdateRequest.withUpdate,
            UpdateRequest.withCondition, Bindings.get?_absorb_values, Bindings.absorbAll,
            List.foldl_cons, List.foldl_nil, Option.or_assoc]
          exact congrArg _ (congrArg _ joined)

theorem upsert_resolves {document : Document} {calls later : Calls} {request : UpdateRequest}
    (upserted : table.upsert document calls = (.ok request, later)) :
    ∃ fragments, table.upsertFragments document calls = .ok fragments ∧
      request.bindings.Resolves request.expressions fragments := by
  obtain ⟨key, filled, stored, -, -, fills, -, written, rfl⟩ := upsert_eq_ok upserted
  refine ⟨((table.withoutKey stored).upsertStatement? (table.exactFields document)).toList,
    ?_, ?_⟩
  · rw [upsertFragments, fills]
    simp [written, Except.mapError, bind, Except.bind, pure, Except.pure]
  · have lettered := setStatement_letters (table.withoutKey stored)
      (table.exactFields document).contains
    rw [Document.upsertStatement?]
    cases printed : (table.withoutKey stored).setStatement?
        (table.exactFields document).contains with
    | none => exact Bindings.absorbAll_resolves .nil (by decide)
    | some statement =>
        rw [printed] at lettered
        exact Bindings.absorbAll_resolves lettered (by simp)

theorem delete_resolves {key : Document} {condition : Option Where} {request : DeleteRequest}
    (deleted : table.delete key condition = .ok request) :
    ∃ fragments, table.deleteFragments condition = .ok fragments ∧
      request.bindings.Resolves request.expressions fragments := by
  obtain ⟨keyDocument, filter, -, compiled, rfl⟩ := delete_eq_ok deleted
  refine ⟨filter.toList, by rw [deleteFragments, compiled]; rfl, ?_⟩
  have lettered := filter_letters compiled
  cases filter with
  | none => exact Bindings.absorbAll_resolves .nil (by decide)
  | some filter => exact Bindings.absorbAll_resolves lettered (by simp)

theorem get_resolves {key : Document} {attributes : List String} {request : GetRequest}
    (got : table.get key attributes = .ok request) :
    ∃ fragments, table.getFragments attributes = .ok fragments ∧
      request.bindings.Resolves request.expressions fragments := by
  obtain ⟨keyDocument, projection, -, compiled, rfl⟩ := get_eq_ok got
  refine ⟨projection.toList, by rw [getFragments, compiled]; rfl, ?_⟩
  have lettered := projection_letters compiled
  cases projection with
  | none => exact Bindings.absorbAll_resolves .nil (by decide)
  | some projection =>
      have values : projection.values = [] := by
        rw [Table.projection, mapError_eq_ok_iff] at compiled
        exact Schema.projection_values compiled
      refine Bindings.resolves_of_letters lettered (by simp) (fun _ _ => rfl)
        (fun _ => rfl) ?_
      intro placeholder
      rw [Bindings.absorbAll_values, Entries.get?_foldl_bindAll]
      simp [values, GetRequest.bindings, Entries.get?]

theorem query_resolves {query : Query} {request : QueryRequest}
    (built : table.query query = .ok request) :
    ∃ fragments, table.queryFragments query = .ok fragments ∧
      request.bindings.Resolves request.expressions fragments := by
  obtain ⟨index, key, fragment, filter, projection, -, keyed, filtered, projected, rfl⟩ :=
    query_eq_ok built
  obtain ⟨-, compiled⟩ := keyFragment_eq_ok keyed
  refine ⟨fragment :: (filter.toList ++ projection.toList), ?_, ?_⟩
  · rw [queryFragments, compiled, filtered, projected]
    rfl
  · have keyLetters := Where.keyCondition_isLettered compiled
    have filterLetters := filter_letters filtered
    have projectionLetters := projection_letters projected
    have letters := List.Forall₂.cons keyLetters (List.rel_append filterLetters projectionLetters)
    cases filter <;> cases projection <;>
      exact Bindings.absorbAll_resolves letters (by simp)

theorem scan_resolves {scan : Scan} {request : ScanRequest}
    (built : table.scan scan = .ok request) :
    ∃ fragments, table.scanFragments scan = .ok fragments ∧
      request.bindings.Resolves request.expressions fragments := by
  obtain ⟨index, filter, projection, filtered, projected, rfl⟩ := scan_eq_ok built
  refine ⟨filter.toList ++ projection.toList, ?_, ?_⟩
  · rw [scanFragments, filtered, projected]
    rfl
  · have filterLetters := filter_letters filtered
    have projectionLetters := projection_letters projected
    have letters := List.rel_append filterLetters projectionLetters
    cases filter <;> cases projection <;>
      exact Bindings.absorbAll_resolves letters (by simp)

/-- In every request that a table builds, the placeholders of the expressions are just
those that are bound, and each stands for what its own fragment binds it to. -/
theorem requests_resolve_placeholders (table : Table) :
    (∀ document calls request later, table.create document calls = (.ok request, later) →
      request.bindings.Resolves request.expressions table.createFragments) ∧
    (∀ key changes condition request, table.update key changes condition = .ok request →
      ∃ fragments, table.updateFragments changes condition = .ok fragments ∧
        request.bindings.Resolves request.expressions fragments) ∧
    (∀ document calls request later, table.upsert document calls = (.ok request, later) →
      ∃ fragments, table.upsertFragments document calls = .ok fragments ∧
        request.bindings.Resolves request.expressions fragments) ∧
    (∀ key condition request, table.delete key condition = .ok request →
      ∃ fragments, table.deleteFragments condition = .ok fragments ∧
        request.bindings.Resolves request.expressions fragments) ∧
    (∀ key attributes request, table.get key attributes = .ok request →
      ∃ fragments, table.getFragments attributes = .ok fragments ∧
        request.bindings.Resolves request.expressions fragments) ∧
    (∀ query request, table.query query = .ok request →
      ∃ fragments, table.queryFragments query = .ok fragments ∧
        request.bindings.Resolves request.expressions fragments) ∧
    (∀ scan request, table.scan scan = .ok request →
      ∃ fragments, table.scanFragments scan = .ok fragments ∧
        request.bindings.Resolves request.expressions fragments) :=
  ⟨fun _ _ _ _ created => create_resolves created,
    fun _ _ _ _ updated => update_resolves updated,
    fun _ _ _ _ upserted => upsert_resolves upserted,
    fun _ _ _ deleted => delete_resolves deleted,
    fun _ _ _ got => get_resolves got,
    fun _ _ built => query_resolves built,
    fun _ _ built => scan_resolves built⟩

/-- Visits to the pages of a site. -/
def visits : Except SchemaError Table :=
  define "Visit"
    [("page", { type := "string", required := true }),
      ("visitor", { type := "string", required := true }),
      ("count", { type := "number" })]
    { hash := "page", range := some "visitor" } [] {}

/-- A visit, which also names its own key. -/
def visit : Document :=
  [("page", .string "home"), ("visitor", .string "ada"), ("count", .number (.ofInt 2))]

/-- Several visits, but not many. -/
def severalVisits : Where :=
  [.condition "count" (.operators [(.gt, .number (.ofInt 1)), (.lt, .number (.ofInt 9))])]

/-- The visits of one page, with all that a query may ask for. -/
def homeVisits : Query :=
  { key := [.condition "page" (.bare (.string "home"))]
    filter := some severalVisits
    attributes := ["visitor"] }

theorem requests_resolve_placeholders_of_visits :
    ∃ table created updated upserted deleted got queried scanned,
      visits = .ok table ∧
      (table.create visit Calls.none = (.ok created, Calls.none) ∧
        created.bindings.Resolves created.expressions table.createFragments) ∧
      (table.update visit visit (some severalVisits) = .ok updated ∧
        ∃ fragments, table.updateFragments visit (some severalVisits) = .ok fragments ∧
          updated.bindings.Resolves updated.expressions fragments) ∧
      (table.upsert visit Calls.none = (.ok upserted, Calls.none) ∧
        ∃ fragments, table.upsertFragments visit Calls.none = .ok fragments ∧
          upserted.bindings.Resolves upserted.expressions fragments) ∧
      (table.delete visit (some severalVisits) = .ok deleted ∧
        ∃ fragments, table.deleteFragments (some severalVisits) = .ok fragments ∧
          deleted.bindings.Resolves deleted.expressions fragments) ∧
      (table.get visit ["count"] = .ok got ∧
        ∃ fragments, table.getFragments ["count"] = .ok fragments ∧
          got.bindings.Resolves got.expressions fragments) ∧
      (table.query homeVisits = .ok queried ∧
        ∃ fragments, table.queryFragments homeVisits = .ok fragments ∧
          queried.bindings.Resolves queried.expressions fragments) ∧
      (table.scan { filter := some severalVisits } = .ok scanned ∧
        ∃ fragments, table.scanFragments { filter := some severalVisits } = .ok fragments ∧
          scanned.bindings.Resolves scanned.expressions fragments) := by
  refine ⟨_, _, _, _, _, _, _, _, rfl, ⟨rfl, ?_⟩, ⟨rfl, ?_⟩, ⟨rfl, ?_⟩, ⟨rfl, ?_⟩, ⟨rfl, ?_⟩,
    ⟨rfl, ?_⟩, ⟨rfl, ?_⟩⟩
  · exact (requests_resolve_placeholders _).1 visit Calls.none _ Calls.none rfl
  · exact (requests_resolve_placeholders _).2.1 visit visit (some severalVisits) _ rfl
  · exact (requests_resolve_placeholders _).2.2.1 visit Calls.none _ Calls.none rfl
  · exact (requests_resolve_placeholders _).2.2.2.1 visit (some severalVisits) _ rfl
  · exact (requests_resolve_placeholders _).2.2.2.2.1 visit ["count"] _ rfl
  · exact (requests_resolve_placeholders _).2.2.2.2.2.1 homeVisits _ rfl
  · exact (requests_resolve_placeholders _).2.2.2.2.2.2 { filter := some severalVisits } _ rfl

end Table

end ItemTable
