import ItemTable.Proofs.Outcome
import ItemTable.Table.Read

/-!
# Requests that are built

When an operation on a table gives a request, all its tests have passed, and the
request is made of the results of its steps.
-/

namespace ItemTable.Table

variable {table : Table}

/-- The put of an item, under the condition that the table is configured to have. -/
def putRequest (table : Table) (item : Document) : PutRequest :=
  let request : PutRequest := { tableName := table.tableName, item }
  if table.config.createCondition then request.withCondition table.key.createCondition
  else request

@[simp] theorem putRequest_item (table : Table) (item : Document) :
    (table.putRequest item).item = item := by
  rw [putRequest]
  split <;> rfl

theorem putFilled_eq_ok {filled : Document} {request : PutRequest}
    (put : table.putFilled filled = .ok request) :
    ∃ item, table.validate filled = .ok () ∧ table.write .create filled = .ok item ∧
      testKeyPresent table.key item = .ok () ∧ request = table.putRequest item := by
  simp only [putFilled, bind_eq_ok_iff] at put
  obtain ⟨⟨⟩, valid, item, written, ⟨⟩, keyed, built⟩ := put
  cases built
  exact ⟨item, valid, written, keyed, rfl⟩

theorem create_eq_ok {document : Document} {calls later : Calls} {request : PutRequest}
    (created : table.create document calls = (.ok request, later)) :
    ∃ filled item, table.testNew document = .ok () ∧
      table.schema.fill document calls = (.ok filled, later) ∧
      table.validate filled = .ok () ∧ table.write .create filled = .ok item ∧
      testKeyPresent table.key item = .ok () ∧ request = table.putRequest item := by
  rw [create] at created
  split at created
  · cases created
  · next tested =>
      split at created
      · cases created
      · next filled after fills =>
          simp only [Prod.mk.injEq] at created
          obtain ⟨put, rfl⟩ := created
          obtain ⟨item, valid, written, keyed, built⟩ := putFilled_eq_ok put
          exact ⟨filled, item, tested, fills, valid, written, keyed, built⟩

theorem updateGuard_eq_ok {condition : Option Where} {guard : Fragment}
    (guarded : table.updateGuard condition = .ok guard) :
    ∃ filter, table.filter condition = .ok filter ∧
      guard = (filter.map table.key.existsCondition.and).getD table.key.existsCondition := by
  simp only [updateGuard, bind_eq_ok_iff] at guarded
  obtain ⟨filter, compiled, built⟩ := guarded
  cases filter <;> cases built <;> exact ⟨_, compiled, rfl⟩

theorem update_eq_ok {key changes : Document} {condition : Option Where}
    {request : UpdateRequest} (updated : table.update key changes condition = .ok request) :
    ∃ keyDocument stored statement guard, table.keyOf key = .ok keyDocument ∧
      table.testStrict changes = .ok () ∧ table.validate (table.withoutKey changes) = .ok () ∧
      table.write .update (table.withoutKey changes) = .ok stored ∧
      (table.withoutKey stored).updateStatement? = some statement ∧
      table.updateGuard condition = .ok guard ∧
      request = (UpdateRequest.withUpdate { tableName := table.tableName, key := keyDocument }
        statement).withCondition guard := by
  simp only [update, bind_eq_ok_iff] at updated
  obtain ⟨keyDocument, keyed, ⟨⟩, strict, ⟨⟩, valid, stored, written, built⟩ := updated
  split at built
  · cases built
  · next statement printed =>
      simp only [bind_eq_ok_iff] at built
      obtain ⟨guard, guarded, built⟩ := built
      cases built
      exact ⟨keyDocument, stored, statement, guard, keyed, strict, valid, written, printed,
        guarded, rfl⟩

theorem upsert_eq_ok {document : Document} {calls later : Calls} {request : UpdateRequest}
    (upserted : table.upsert document calls = (.ok request, later)) :
    ∃ key filled stored, table.keyOf document = .ok key ∧
      table.testStrict document = .ok () ∧
      table.schema.fill document calls = (.ok filled, later) ∧
      table.validate filled = .ok () ∧ table.write .upsert filled = .ok stored ∧
      request =
        (((table.withoutKey stored).upsertStatement? (table.exactFields document)).map
          (UpdateRequest.withUpdate { tableName := table.tableName, key })).getD
            { tableName := table.tableName, key } := by
  rw [upsert] at upserted
  split at upserted
  · cases upserted
  · next key tested =>
      simp only [upsertKey, bind_eq_ok_iff] at tested
      obtain ⟨key, keyed, ⟨⟩, strict, same⟩ := tested
      cases same
      split at upserted
      · cases upserted
      · next filled after fills =>
          simp only [Prod.mk.injEq] at upserted
          obtain ⟨put, rfl⟩ := upserted
          simp only [upsertFilled, bind_eq_ok_iff] at put
          obtain ⟨⟨⟩, valid, stored, written, built⟩ := put
          refine ⟨key, filled, stored, keyed, strict, fills, valid, written, ?_⟩
          cases printed : (table.withoutKey stored).upsertStatement?
              (table.exactFields document) <;>
            rw [printed] at built <;> cases built <;> rfl

theorem delete_eq_ok {key : Document} {condition : Option Where} {request : DeleteRequest}
    (deleted : table.delete key condition = .ok request) :
    ∃ keyDocument filter, table.keyOf key = .ok keyDocument ∧
      table.filter condition = .ok filter ∧
      request = (filter.map
        (DeleteRequest.withCondition { tableName := table.tableName, key := keyDocument })).getD
          { tableName := table.tableName, key := keyDocument } := by
  simp only [delete, bind_eq_ok_iff] at deleted
  obtain ⟨keyDocument, keyed, filter, compiled, built⟩ := deleted
  refine ⟨keyDocument, filter, keyed, compiled, ?_⟩
  cases filter <;> cases built <;> rfl

theorem get_eq_ok {key : Document} {attributes : List String} {request : GetRequest}
    (got : table.get key attributes = .ok request) :
    ∃ keyDocument projection, table.keyOf key = .ok keyDocument ∧
      table.projection attributes = .ok projection ∧
      request = (projection.map
        (GetRequest.withProjection { tableName := table.tableName, key := keyDocument })).getD
          { tableName := table.tableName, key := keyDocument } := by
  simp only [get, bind_eq_ok_iff] at got
  obtain ⟨keyDocument, keyed, projection, compiled, built⟩ := got
  refine ⟨keyDocument, projection, keyed, compiled, ?_⟩
  cases projection <;> cases built <;> rfl

theorem keyFragment_eq_ok {key : KeySchema} {index : String} {document : Where}
    {fragment : Fragment} (compiled : table.keyFragment key index document = .ok fragment) :
    testKeyClauses key index false document = .ok true ∧
      document.keyCondition table.schema = .ok (some fragment) := by
  rw [keyFragment, bind_eq_ok_iff] at compiled
  obtain ⟨tested, clauses, rest⟩ := compiled
  cases tested with
  | false => cases rest
  | true =>
      obtain ⟨condition, printed, built⟩ := bind_eq_ok_iff.mp rest
      cases condition with
      | none => cases built
      | some other =>
          cases built
          exact ⟨clauses, printed⟩

theorem query_eq_ok {query : Query} {request : QueryRequest}
    (built : table.query query = .ok request) :
    ∃ index key fragment filter projection,
      table.resolveIndex query = .ok (index, key) ∧
      table.keyFragment key (index.getD primaryIndex) query.key = .ok fragment ∧
      table.filter query.filter = .ok filter ∧
      table.projection query.attributes = .ok projection ∧
      request =
        let request : QueryRequest :=
          { QueryRequest.ofKeyCondition table.tableName fragment with
            index, limit := query.limit, forward := query.forward }
        let request := (filter.map request.withFilter).getD request
        (projection.map request.withProjection).getD request := by
  simp only [Table.query, bind_eq_ok_iff, mapError_eq_ok_iff] at built
  obtain ⟨⟨index, key⟩, resolved, fragment, keyed, filter, filtered, projection, projected,
    built⟩ := built
  cases built
  exact ⟨index, key, fragment, filter, projection, resolved, keyed, filtered, projected, rfl⟩

theorem scan_eq_ok {scan : Scan} {request : ScanRequest}
    (built : table.scan scan = .ok request) :
    ∃ index filter projection, table.filter scan.filter = .ok filter ∧
      table.projection scan.attributes = .ok projection ∧
      request =
        let request : ScanRequest :=
          { tableName := table.tableName, index, limit := scan.limit }
        let request := (filter.map request.withFilter).getD request
        (projection.map request.withProjection).getD request := by
  unfold Table.scan at built
  cases named : scan.index with
  | none =>
      simp only [named, bind_eq_ok_iff] at built
      obtain ⟨index, -, filter, filtered, projection, projected, built⟩ := built
      cases built
      exact ⟨index, filter, projection, filtered, projected, rfl⟩
  | some name =>
      simp only [named, bind_eq_ok_iff] at built
      obtain ⟨index, -, filter, filtered, projection, projected, built⟩ := built
      cases built
      exact ⟨index, filter, projection, filtered, projected, rfl⟩

end ItemTable.Table
