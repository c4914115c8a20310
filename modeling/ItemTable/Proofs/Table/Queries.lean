import Mathlib.Data.List.Nodup
import ItemTable.Proofs.Expression.Comparisons
import ItemTable.Proofs.Schema.Normal
import ItemTable.Proofs.Table.Results

/-!
# Key conditions of queries

The key condition of a query is read back from the text of the request as a list of
comparisons, one for each clause and in the order of the clauses.  All of them are on
attributes of the key of the index that the request names.

Only the last comparison on the hash attribute has to be an equality, so the condition
is one that the store accepts exactly when no attribute is compared twice.
-/

namespace ItemTable

/-- The comparisons that the key condition of a request is a conjunction of. -/
def QueryRequest.keyComparisons? (request : QueryRequest) : Option (List AttributeComparison) :=
  request.bindings.comparisons? request.keyCondition

/-- The comparisons of a key condition, which is never on inequality. -/
theorem Formula.keyComparison_eq_ok {name : String} {condition : Condition}
    {comparison : Comparison} {operand : Value}
    (compares : keyComparison name condition = .ok (comparison, operand)) :
    comparison ≠ .ne ∧ Table.isEquality condition = decide (comparison = .eq) := by
  unfold keyComparison at compares
  split at compares
  · cases compares
    exact ⟨by simp, rfl⟩
  · next operator value =>
      cases operator <;> cases compares <;> exact ⟨by simp, rfl⟩
  · cases compares

namespace Table

variable {table : Table} {query : Query} {request : QueryRequest}

/-! ## The index of a query -/

/-- The key of the index with a name; without a name it is the key of the table. -/
def keyOfIndex? (table : Table) : Option String → Option KeySchema
  | none => some table.key
  | some name => (table.indexes.find? fun index => index.name = name).map (·.key)

theorem testIndexes_eq_ok {schema : Schema} {key : KeySchema} {seen : List String}
    {indexes : List IndexDefinition} (tested : testIndexes schema key seen indexes = .ok ()) :
    (indexes.map (·.name)).Nodup ∧ ∀ index ∈ indexes, index.name ∉ seen := by
  induction indexes generalizing seen with
  | nil => simp
  | cons first indexes induction =>
      rw [testIndexes] at tested
      split at tested
      · cases tested
      · next fresh =>
          split at tested
          · cases tested
          · rw [bind_eq_ok_iff] at tested
            obtain ⟨⟨⟩, -, testedRest⟩ := tested
            obtain ⟨distinct, unseen⟩ := induction testedRest
            constructor
            · rw [List.map_cons, List.nodup_cons]
              refine ⟨?_, distinct⟩
              intro repeated
              obtain ⟨index, member, same⟩ := List.mem_map.mp repeated
              exact unseen index member (same ▸ List.mem_cons_self)
            · intro index member
              rcases List.mem_cons.mp member with rfl | later
              · exact fun inSeen => fresh (Or.inr inSeen)
              · exact fun inSeen => unseen index later (List.mem_cons_of_mem _ inSeen)

theorem define_distinct_indexes {title : String} {declarations : Declarations}
    {key : KeySchema} {indexes : List IndexDefinition} {config : Config}
    (defined : define title declarations key indexes config = .ok table) :
    (table.indexes.map (·.name)).Nodup := by
  simp only [define, bind_eq_ok_iff] at defined
  obtain ⟨schema, -, ⟨⟩, -, ⟨⟩, tested, built⟩ := defined
  cases built
  exact (testIndexes_eq_ok tested).1

/-- The key that a query is tested against is that of the index in its request. -/
theorem resolveIndex_eq_ok (distinct : (table.indexes.map (·.name)).Nodup)
    {index : Option String} {key : KeySchema}
    (resolved : table.resolveIndex query = .ok (index, key)) :
    table.keyOfIndex? index = some key := by
  have found : ∀ definition ∈ table.indexes,
      table.keyOfIndex? (some definition.name) = some definition.key := by
    intro definition member
    rw [keyOfIndex?, find?_eq_of_nodup (fun index : IndexDefinition => index.name) distinct member,
      Option.map_some]
  rw [resolveIndex] at resolved
  split at resolved
  · next name named =>
      obtain ⟨definition, isNamed, same⟩ := map_eq_ok_iff.mp resolved
      cases same
      rw [namedIndex] at isNamed
      split at isNamed
      · next other search =>
          cases isNamed
          exact found definition (List.mem_of_find?_eq_some search)
      · cases isNamed
  · dsimp only at resolved
    split at resolved
    · cases resolved
      rfl
    · split at resolved
      · next definition search =>
          cases resolved
          exact found definition (List.mem_of_find?_eq_some search)
      · cases resolved

/-! ## The clauses of a key condition -/

def hashEquality? (key : KeySchema) : Clause → Option Bool
  | .group _ _ => none
  | .condition name condition => if name = key.hash then some (isEquality condition) else none

/-- Whether the last clause on the hash attribute is an equality, or `tested` without one. -/
def lastEquality (key : KeySchema) (tested : Bool) (clauses : List Clause) : Bool :=
  (clauses.filterMap (hashEquality? key)).getLast?.getD tested

theorem lastEquality_condition (key : KeySchema) (tested : Bool) (name : String)
    (condition : Condition) (clauses : List Clause) :
    lastEquality key tested (.condition name condition :: clauses) =
      lastEquality key (if name = key.hash then isEquality condition else tested) clauses := by
  rw [lastEquality, lastEquality, List.filterMap_cons, hashEquality?]
  split
  · next other => rw [if_neg (by simpa using other)]
  · next equality onHash =>
      obtain ⟨isHash, same⟩ := Option.ite_none_right_eq_some.mp onHash
      cases same
      rw [if_pos isHash, List.getLast?_cons]
      rfl

/-- Clauses pass if all of them are on the key; the last one on the hash attribute counts. -/
theorem testKeyClauses_eq_ok_iff {key : KeySchema} {index : String} {tested result : Bool}
    {clauses : List Clause} :
    testKeyClauses key index tested clauses = .ok result ↔
      (∀ name ∈ Where.attributeNames clauses, name ∈ key.attributes) ∧
        lastEquality key tested clauses = result := by
  induction clauses generalizing tested with
  | nil => simp [testKeyClauses, Where.attributeNames, lastEquality]
  | cons clause clauses induction =>
      cases clause with
      | group operator documents =>
          rw [testKeyClauses, induction]
          simp [Where.attributeNames, lastEquality, hashEquality?]
      | condition name condition =>
          have names : Where.attributeNames (.condition name condition :: clauses) =
              name :: Where.attributeNames clauses := rfl
          rw [testKeyClauses, names, lastEquality_condition]
          by_cases keyed : name ∈ key.attributes
          · have contained : key.contains name = true := by
              simpa [KeySchema.contains] using keyed
            simp only [contained, Bool.not_true, Bool.false_eq_true, if_false, induction,
              List.mem_cons, forall_eq_or_imp, keyed, true_and]
          · have excluded : key.contains name = false := by
              simpa [KeySchema.contains] using keyed
            simp [excluded, keyed]

theorem hashEquality?_compares {schema : Schema} {key : KeySchema} {clauses : List Clause}
    {comparisons : List AttributeComparison}
    (asks : List.Forall₂ (Clause.Compares schema) clauses comparisons) :
    clauses.filterMap (hashEquality? key) =
      (comparisons.filter fun comparison => comparison.name = key.hash).map
        fun comparison => decide (comparison.comparison = .eq) := by
  induction asks with
  | nil => rfl
  | cons head tail induction =>
      cases head with
      | @condition name condition _ comparison _ _ found compares stores =>
          have equality := (Formula.keyComparison_eq_ok compares).2
          by_cases onHash : name = key.hash
          · simp [hashEquality?, onHash, equality, induction]
          · simp [hashEquality?, onHash, induction]

/-- If the last clause on the hash attribute is an equality, then so is the last comparison. -/
theorem exists_last_equality {schema : Schema} {key : KeySchema} {clauses : List Clause}
    {comparisons : List AttributeComparison}
    (asks : List.Forall₂ (Clause.Compares schema) clauses comparisons)
    (isLast : lastEquality key false clauses = true) :
    ∃ operand, (comparisons.filter fun comparison => comparison.name = key.hash).getLast? =
      some { name := key.hash, comparison := .eq, operand } := by
  rw [lastEquality, hashEquality?_compares asks, List.getLast?_map] at isLast
  cases found : (comparisons.filter fun comparison => comparison.name = key.hash).getLast? with
  | none =>
      rw [found] at isLast
      cases isLast
  | some comparison =>
      rw [found] at isLast
      have onHash := (List.mem_filter.mp (List.mem_of_getLast? found)).2
      obtain ⟨name, symbol, operand⟩ := comparison
      simp only [decide_eq_true_eq, Option.map_some, Option.getD_some] at onHash isLast
      subst onHash isLast
      exact ⟨operand, rfl⟩

theorem compares_ne {schema : Schema} {clauses : List Clause}
    {comparisons : List AttributeComparison}
    (asks : List.Forall₂ (Clause.Compares schema) clauses comparisons) :
    ∀ comparison ∈ comparisons, comparison.comparison ≠ .ne := by
  intro comparison member
  obtain ⟨clause, -, asksHere⟩ := Where.exists_clause_of_mem asks member
  cases asksHere with
  | condition found compares stores => exact (Formula.keyComparison_eq_ok compares).1

theorem keyComparisons?_of_query (built : table.query query = .ok request) :
    ∃ key comparisons, table.resolveIndex query = .ok (request.index, key) ∧
      testKeyClauses key (request.index.getD primaryIndex) false query.key = .ok true ∧
      List.Forall₂ (Clause.Compares table.schema) query.key comparisons ∧
      request.keyComparisons? = some comparisons := by
  obtain ⟨index, key, fragment, filter, projection, resolved, compiled, -, -, built⟩ :=
    query_eq_ok built
  obtain ⟨tested, printed⟩ := keyFragment_eq_ok compiled
  obtain ⟨comparisons, asks, reads⟩ := Where.keyCondition_eq_ok printed
  have extended := Bindings.extends_absorb (Where.keyCondition_isLettered printed).closed
  have sameIndex : request.index = index := by
    cases filter <;> cases projection <;> rw [built] <;> rfl
  refine ⟨key, comparisons, ?_, ?_, asks, ?_⟩
  · rw [sameIndex]
    exact resolved
  · rw [sameIndex]
    exact tested
  · rw [built]
    -- A filter and a projection only add bindings, under which the condition reads the same.
    cases filter <;> cases projection
    · exact reads _ extended
    · exact reads _ (extended.absorb _)
    · exact reads _ (extended.absorb _)
    · exact reads _ ((extended.absorb _).absorb _)

/-- One equality on the hash attribute, at most one comparison on the range attribute, and
no comparison on any other attribute. -/
structure IsKeyCondition (key : KeySchema) (comparisons : List AttributeComparison) : Prop where
  hash : ∃ operand, (comparisons.filter fun comparison => comparison.name = key.hash) =
    [{ name := key.hash, comparison := .eq, operand }]
  range : ∀ range, key.range = some range →
    (comparisons.filter fun comparison => comparison.name = range).length ≤ 1
  ordered : ∀ comparison ∈ comparisons, comparison.comparison ≠ .ne
  keyed : ∀ comparison ∈ comparisons, comparison.name ∈ key.attributes

namespace IsKeyCondition

variable {key : KeySchema} {comparisons : List AttributeComparison}

theorem count_le_one (isKey : IsKeyCondition key comparisons) (name : String) :
    (comparisons.filter fun comparison => comparison.name = name).length ≤ 1 := by
  by_cases onHash : name = key.hash
  · obtain ⟨operand, single⟩ := isKey.hash
    rw [onHash, single]
    exact Nat.le_refl 1
  · by_cases onRange : key.range = some name
    · exact isKey.range name onRange
    · have absent : (comparisons.filter fun comparison => comparison.name = name) = [] := by
        rw [List.filter_eq_nil_iff]
        intro comparison member
        have keyed := isKey.keyed comparison member
        simp only [KeySchema.attributes, List.mem_cons, Option.mem_toList] at keyed
        simp only [decide_eq_true_eq]
        rintro rfl
        exact keyed.elim onHash onRange
      rw [absent]
      exact Nat.zero_le 1

end IsKeyCondition

theorem length_filter_name (comparisons : List AttributeComparison) (name : String) :
    (comparisons.filter fun comparison => comparison.name = name).length =
      (comparisons.map (·.name)).count name := by
  rw [List.count_eq_countP, List.countP_map, List.countP_eq_length_filter]
  refine congrArg List.length (List.filter_congr fun comparison _ => ?_)
  simp [Function.comp_apply, beq_eq_decide]

/-- Comparisons on a key, the last of which on the hash attribute is an equality, are a key
condition exactly when no attribute is compared twice. -/
theorem isKeyCondition_iff {key : KeySchema} {comparisons : List AttributeComparison}
    {operand : Value} (ordered : ∀ comparison ∈ comparisons, comparison.comparison ≠ .ne)
    (keyed : ∀ comparison ∈ comparisons, comparison.name ∈ key.attributes)
    (last : (comparisons.filter fun comparison => comparison.name = key.hash).getLast? =
      some { name := key.hash, comparison := .eq, operand }) :
    IsKeyCondition key comparisons ↔ (comparisons.map (·.name)).Nodup := by
  constructor
  · intro isKey
    rw [List.nodup_iff_count_le_one]
    intro name
    rw [← length_filter_name]
    exact isKey.count_le_one name
  · intro distinct
    have single : ∀ name,
        (comparisons.filter fun comparison => comparison.name = name).length ≤ 1 := by
      intro name
      rw [length_filter_name]
      exact List.nodup_iff_count_le_one.mp distinct name
    refine ⟨⟨operand, ?_⟩, fun range _ => single range, ordered, keyed⟩
    have short := single key.hash
    cases onHash : comparisons.filter fun comparison => comparison.name = key.hash with
    | nil =>
        rw [onHash] at last
        cases last
    | cons first others =>
        rw [onHash] at last short
        cases others with
        | nil => exact congrArg (fun comparison => [comparison]) (Option.some.inj last)
        | cons next others => simp at short

/-- A query compares each attribute that its clauses name, in their order, and the last
comparison on the hash attribute is an equality.  This is a key condition exactly when the
clauses name no attribute twice. -/
theorem query_compares_key {title : String} {declarations : Declarations} {key : KeySchema}
    {indexes : List IndexDefinition} {config : Config}
    (defined : define title declarations key indexes config = .ok table)
    (built : table.query query = .ok request) :
    ∃ indexKey comparisons, table.keyOfIndex? request.index = some indexKey ∧
      request.keyComparisons? = some comparisons ∧
      comparisons.map (·.name) = query.key.attributeNames ∧
      (∀ comparison ∈ comparisons,
        comparison.name ∈ indexKey.attributes ∧ comparison.comparison ≠ .ne) ∧
      (∃ operand,
        (comparisons.filter fun comparison => comparison.name = indexKey.hash).getLast? =
          some { name := indexKey.hash, comparison := .eq, operand }) ∧
      (IsKeyCondition indexKey comparisons ↔ query.key.attributeNames.Nodup) := by
  obtain ⟨indexKey, comparisons, resolved, tested, asks, reads⟩ := keyComparisons?_of_query built
  obtain ⟨keyedNames, isLast⟩ := testKeyClauses_eq_ok_iff.mp tested
  have sameNames := Where.attributeNames_of_compares asks
  have ordered := compares_ne asks
  have keyed : ∀ comparison ∈ comparisons, comparison.name ∈ indexKey.attributes := by
    intro comparison member
    apply keyedNames
    rw [sameNames]
    exact List.mem_map_of_mem member
  obtain ⟨operand, last⟩ := exists_last_equality asks isLast
  refine ⟨indexKey, comparisons, resolveIndex_eq_ok (define_distinct_indexes defined) resolved,
    reads, sameNames.symm, fun comparison member => ⟨keyed comparison member,
      ordered comparison member⟩, ⟨operand, last⟩, ?_⟩
  rw [sameNames]
  exact isKeyCondition_iff ordered keyed last

/-- Orders of a customer, also indexed by their day. -/
def orderDeclarations : Declarations :=
  [("customer", { type := "string", required := true }),
    ("number", { type := "number", required := true }),
    ("day", { type := "date" })]

/-- The later orders of one customer. -/
def laterOrders : Query :=
  { key := [.condition "number" (.operators [(.gt, .number (.ofInt 7))]),
      .condition "customer" (.bare (.string "a"))] }

theorem query_compares_key_of_orders :
    ∃ table request,
      define "Order" orderDeclarations { hash := "customer", range := some "number" }
        [{ name := "days", kind := .globalIndex, key := { hash := "day", range := none } }] {} =
          .ok table ∧
      table.query laterOrders = .ok request ∧
      ∃ indexKey comparisons, table.keyOfIndex? request.index = some indexKey ∧
        request.keyComparisons? = some comparisons ∧
        comparisons.map (·.name) = laterOrders.key.attributeNames ∧
        (∀ comparison ∈ comparisons,
          comparison.name ∈ indexKey.attributes ∧ comparison.comparison ≠ .ne) ∧
        (∃ operand,
          (comparisons.filter fun comparison => comparison.name = indexKey.hash).getLast? =
            some { name := indexKey.hash, comparison := .eq, operand }) ∧
        (IsKeyCondition indexKey comparisons ↔ laterOrders.key.attributeNames.Nodup) := by
  have run : ∃ table request,
      define "Order" orderDeclarations { hash := "customer", range := some "number" }
        [{ name := "days", kind := .globalIndex, key := { hash := "day", range := none } }] {} =
          .ok table ∧
      table.query laterOrders = .ok request := ⟨_, _, rfl, rfl⟩
  obtain ⟨table, request, defined, built⟩ := run
  exact ⟨table, request, defined, built, query_compares_key defined built⟩

/-- Of two clauses on the hash attribute only the last has to be an equality, so a query
may compare it twice.  The same clauses in the other order are refused. -/
theorem repeated_hash_is_queried :
    ∃ table request indexKey comparisons,
      define "Order" [("id", { type := "string", required := true })]
        { hash := "id", range := none } [] {} = .ok table ∧
      table.query { key := [.condition "id" (.operators [(.lt, .string "b")]),
        .condition "id" (.bare (.string "a"))] } = .ok request ∧
      request.keyCondition = "#k1 < :k1 AND #k2 = :k2" ∧
      table.keyOfIndex? request.index = some indexKey ∧
      request.keyComparisons? = some comparisons ∧
      ¬ IsKeyCondition indexKey comparisons ∧
      table.query { key := [.condition "id" (.bare (.string "a")),
        .condition "id" (.operators [(.lt, .string "b")])] } =
          .error (.compile (.missingHashCondition "id")) := by
  refine ⟨_, _, { hash := "id", range := none },
    [{ name := "id", comparison := .lt, operand := .string "b" },
      { name := "id", comparison := .eq, operand := .string "a" }], rfl, rfl, rfl, rfl, rfl, ?_, rfl⟩
  intro isKey
  obtain ⟨operand, single⟩ := isKey.hash
  cases single

end Table

end ItemTable
