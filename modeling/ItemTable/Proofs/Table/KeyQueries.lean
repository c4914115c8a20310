import ItemTable.Proofs.Table.Keys
import ItemTable.Proofs.Table.Queries
import ItemTable.Proofs.Validation.Valid

/-!
# Querying the key of a document

A query with an equality for every key attribute compares the very values that the key of
the document holds: both store a value of the document by the same property, and a value
that a property of a key admits is one that can be compared.

The exception is bytes.  Keys may hold them, but the operand of a comparison may not, so
a query for a key with bytes is refused.
-/

namespace ItemTable

/-- A value of a key type is bytes, or it is one that can be compared. -/
theorem AttributeType.admits_of_isKeyType {type : AttributeType} {value : Value}
    (keyType : type.isKeyType = true) (admits : type.admits value = true) :
    if type = .binary then ∃ bytes, value = .binary bytes
    else (∃ text, value = .string text) ∨ (∃ number, value = .number number) ∨
      ∃ instant, value = .date instant := by
  cases type <;> cases value <;> simp [isKeyType, AttributeType.admits] at keyType admits ⊢

/-- A value of a key type is compared in its stored form, unless it is bytes. -/
theorem Property.storeOperand_of_admits {property : Property} {value stored : Value}
    (keyType : property.type.isKeyType = true) (admits : property.type.admits value = true)
    (stores : property.store value = .ok stored) (name : String) :
    property.storeOperand name value =
      if property.type = .binary then .error (.invalidValueType name "binary")
      else .ok stored := by
  have kinds := AttributeType.admits_of_isKeyType keyType admits
  split at kinds
  · next isBinary =>
      obtain ⟨bytes, rfl⟩ := kinds
      rw [if_pos isBinary]
      rfl
  · next notBinary =>
      rw [if_neg notBinary]
      rcases kinds with ⟨text, rfl⟩ | ⟨number, rfl⟩ | ⟨instant, rfl⟩ <;>
        rw [storeOperand, stores] <;> rfl

namespace Table

variable {table : Table} {document keyDocument : Document} {conditions : Where}

/-- One equality for each key attribute, with the value that a document has for it. -/
structure AsksForKey (table : Table) (document : Document) (conditions : Where) : Prop where
  distinct : conditions.attributeNames.Nodup
  names : ∀ name, name ∈ conditions.attributeNames ↔ name ∈ table.key.attributes
  equalities : ∀ clause ∈ conditions, ∃ name property value,
    table.schema.get? name = some property ∧ keyValue? property document = some value ∧
      (clause = .condition name (.bare value) ∨
        clause = .condition name (.operators [(.eq, value)]))

def HasBinaryKey (table : Table) : Prop :=
  ∃ name ∈ table.key.attributes, ∃ property,
    table.schema.get? name = some property ∧ property.type = .binary

/-- A clause compares a key attribute with what a key holds, unless that is bytes. -/
def ComparesKey (table : Table) (keyDocument : Document) (clause : Clause) : Prop :=
  ∃ property condition stored, clause = .condition property.name condition ∧
    property.name ∈ table.key.attributes ∧ table.schema.get? property.name = some property ∧
    keyDocument.get? property.name = some stored ∧
    Formula.ofKeyClause table.schema clause =
      if property.type = .binary then .error (.invalidValueType property.name "binary")
      else .ok (AttributeComparison.formula
        { name := property.name, comparison := .eq, operand := stored })

theorem keyValue?_eq_some {property : Property} {value : Value}
    (supplied : keyValue? property document = some value) :
    (document.get? property.name = some value ∧ value ≠ .null) ∨
      ∃ template, property.composite = some template ∧
        value = .string (template.render document) := by
  by_cases absent : document.get? property.name = none ∨ document.get? property.name = some .null
  · cases composed : property.composite with
    | none =>
        have present := keyValue?_of_plain composed supplied
        rw [keyValue?, composed] at supplied
        rcases absent with missing | null
        · rw [missing] at present
          cases present
        · rw [null] at supplied
          cases supplied
    | some template =>
        exact Or.inr ⟨template, rfl, (keyValue?_of_composite composed absent supplied).2⟩
  · rw [not_or] at absent
    rw [keyValue?] at supplied
    split at supplied
    · next null => exact absurd null absent.2
    · next given notNull present =>
        cases supplied
        exact Or.inl ⟨present, notNull⟩
    · next missing => exact absurd missing absent.1

/-- The value that a valid document has for a property is of the property's type. -/
theorem admits_keyValue {property : Property} {value : Value} (normal : table.schema.IsNormal)
    (valid : table.validate document = .ok ()) (member : property ∈ table.schema)
    (supplied : keyValue? property document = some value) :
    property.type.admits value = true := by
  rcases keyValue?_eq_some supplied with ⟨present, notNull⟩ | ⟨template, composed, rfl⟩
  · exact Schema.admits_of_validateFields normal (mapError_eq_ok_iff.mp valid) member present notNull
  · rw [((normal.normal property member).composite template composed).1]
    rfl

theorem storeOperand_key {property : Property} {value : Value} {index : String}
    (normal : table.schema.IsNormal)
    (tested : table.schema.testKey index table.key true = .ok ())
    (valid : table.validate document = .ok ()) (keyed : table.keyOf document = .ok keyDocument)
    (member : property.name ∈ table.key.attributes)
    (found : table.schema.get? property.name = some property)
    (supplied : keyValue? property document = some value) :
    ∃ stored, keyDocument.get? property.name = some stored ∧
      property.storeOperand property.name value =
        if property.type = .binary then .error (.invalidValueType property.name "binary")
        else .ok stored := by
  obtain ⟨same, given, stored, foundSame, gives, stores, held⟩ := keyOf_eq_ok keyed member
  rw [found] at foundSame
  cases foundSame
  rw [supplied] at gives
  cases gives
  obtain ⟨other, foundOther, keyType⟩ := Schema.testKey_eq_ok tested property.name member
  rw [found] at foundOther
  cases foundOther
  have admits := admits_keyValue normal valid (Schema.get?_eq_some found).1 supplied
  exact ⟨stored, held, Property.storeOperand_of_admits keyType admits stores property.name⟩

namespace AsksForKey

theorem mem_attributes (asks : table.AsksForKey document conditions) {name : String}
    {condition : Condition} (member : .condition name condition ∈ conditions) :
    name ∈ table.key.attributes :=
  (asks.names name).mp (Where.mem_attributeNames.mpr ⟨condition, member⟩)

theorem nonempty (asks : table.AsksForKey document conditions) : conditions ≠ [] := by
  obtain ⟨condition, member⟩ :=
    Where.mem_attributeNames.mp ((asks.names table.key.hash).mpr List.mem_cons_self)
  exact List.ne_nil_of_mem member

/-- Every clause is an equality on a key attribute, so the clauses pass. -/
theorem testKeyClauses_eq (asks : table.AsksForKey document conditions) :
    testKeyClauses table.key primaryIndex false conditions = .ok true := by
  rw [testKeyClauses_eq_ok_iff]
  refine ⟨fun name member => (asks.names name).mp member, ?_⟩
  have equal : ∀ equality ∈ conditions.filterMap (hashEquality? table.key), equality = true := by
    intro equality member
    obtain ⟨clause, inConditions, same⟩ := List.mem_filterMap.mp member
    obtain ⟨name, property, value, -, -, rfl | rfl⟩ := asks.equalities clause inConditions
    · exact (Option.some.inj (Option.ite_none_right_eq_some.mp same).2).symm
    · exact (Option.some.inj (Option.ite_none_right_eq_some.mp same).2).symm
  have hashTested : ∃ equality, equality ∈ conditions.filterMap (hashEquality? table.key) := by
    obtain ⟨condition, member⟩ :=
      Where.mem_attributeNames.mp ((asks.names table.key.hash).mpr List.mem_cons_self)
    exact ⟨isEquality condition, List.mem_filterMap.mpr ⟨_, member, if_pos rfl⟩⟩
  obtain ⟨equality, member⟩ := hashTested
  have last := List.getLast?_eq_some_getLast (List.ne_nil_of_mem member)
  rw [lastEquality, last, Option.getD_some]
  exact equal _ (List.getLast_mem _)

theorem resolveIndex_eq (asks : table.AsksForKey document conditions) (limit : Option Nat)
    (forward : Option Bool) :
    table.resolveIndex { key := conditions, limit, forward } = .ok (none, table.key) := by
  have tested : conditions.attributeNames.contains table.key.hash = true := by
    rw [List.contains_eq_mem, decide_eq_true_eq, asks.names]
    exact List.mem_cons_self
  rw [resolveIndex]
  simp only [tested, if_true]

theorem query_eq (asks : table.AsksForKey document conditions) (limit : Option Nat)
    (forward : Option Bool) (condition : Except CompileError Fragment)
    (compiled : conditions.keyCondition table.schema = condition.map some) :
    table.query { key := conditions, limit, forward } =
      (condition.map fun fragment =>
        { QueryRequest.ofKeyCondition table.tableName fragment with
          limit, forward }).mapError .compile := by
  have keyed : table.keyFragment table.key primaryIndex conditions = condition := by
    rw [keyFragment, asks.testKeyClauses_eq, compiled]
    cases condition <;> rfl
  rw [query, asks.resolveIndex_eq]
  simp only [Except.mapError, bind, Except.bind, Option.getD_none, keyed]
  cases condition <;> rfl

theorem comparesKey (asks : table.AsksForKey document conditions)
    (normal : table.schema.IsNormal)
    (tested : table.schema.testKey primaryIndex table.key true = .ok ())
    (valid : table.validate document = .ok ()) (keyed : table.keyOf document = .ok keyDocument) :
    ∀ clause ∈ conditions, table.ComparesKey keyDocument clause := by
  intro clause member
  obtain ⟨name, property, value, found, supplied, isEquality⟩ := asks.equalities clause member
  have named := (Schema.get?_eq_some found).2
  subst named
  obtain ⟨condition, rfl, compares⟩ : ∃ condition, clause = .condition property.name condition ∧
      Formula.keyComparison property.name condition = .ok (.eq, value) := by
    rcases isEquality with rfl | rfl
    · exact ⟨_, rfl, rfl⟩
    · exact ⟨_, rfl, rfl⟩
  have inKey := asks.mem_attributes member
  obtain ⟨stored, held, stores⟩ :=
    storeOperand_key normal tested valid keyed inKey found supplied
  refine ⟨property, condition, stored, rfl, inKey, found, held, ?_⟩
  rw [Formula.ofKeyClause, found]
  simp only [compares, bind, Except.bind, stores]
  by_cases isBinary : property.type = .binary
  · rw [if_pos isBinary, if_pos isBinary]
  · rw [if_neg isBinary, if_neg isBinary]
    rfl

/-- A query for a key without bytes compares each attribute with what the key holds. -/
theorem exists_query (asks : table.AsksForKey document conditions)
    (compares : ∀ clause ∈ conditions, table.ComparesKey keyDocument clause)
    (notBinary : ¬ table.HasBinaryKey) (limit : Option Nat) (forward : Option Bool) :
    ∃ request comparisons,
      table.query { key := conditions, limit, forward } = .ok request ∧ request.index = none ∧
      request.keyComparisons? = some comparisons ∧
      comparisons.map (·.name) = conditions.attributeNames ∧
      ∀ comparison ∈ comparisons, comparison.comparison = .eq ∧
        keyDocument.get? comparison.name = some comparison.operand := by
  have formulas : ∀ clause ∈ conditions, ∃ comparison : AttributeComparison,
      Formula.ofKeyClause table.schema clause = .ok comparison.formula ∧
        comparison.comparison = .eq ∧
        keyDocument.get? comparison.name = some comparison.operand := by
    intro clause member
    obtain ⟨property, condition, stored, -, inKey, found, held, compiled⟩ :=
      compares clause member
    rw [if_neg fun isBinary => notBinary ⟨_, inKey, property, found, isBinary⟩] at compiled
    exact ⟨_, compiled, rfl, held⟩
  have each : ∀ clause ∈ conditions,
      ∃ comparison, clause.Compares table.schema comparison := by
    intro clause member
    obtain ⟨comparison, compiled, -⟩ := formulas clause member
    obtain ⟨other, asksHere, -⟩ := Formula.ofKeyClause_eq_ok_iff.mp compiled
    exact ⟨other, asksHere⟩
  obtain ⟨planned, asksAll⟩ := Where.exists_compares each
  obtain ⟨fragment, compiled⟩ := Where.exists_keyCondition asks.nonempty asksAll
  have built := asks.query_eq limit forward (.ok fragment) compiled
  obtain ⟨-, comparisons, -, -, asked, reads⟩ := keyComparisons?_of_query built
  refine ⟨_, comparisons, built, rfl, reads, (Where.attributeNames_of_compares asked).symm, ?_⟩
  intro comparison member
  obtain ⟨clause, inConditions, asksHere⟩ := Where.exists_clause_of_mem asked member
  have compiledHere := Formula.ofKeyClause_eq_ok_iff.mpr ⟨comparison, asksHere, rfl⟩
  obtain ⟨other, compiledOther, isEquality, held⟩ := formulas clause inConditions
  rw [compiledHere] at compiledOther
  rw [AttributeComparison.formula_injective (Except.ok.inj compiledOther)]
  exact ⟨isEquality, held⟩

/-- A query for a key with bytes is refused. -/
theorem query_refused (asks : table.AsksForKey document conditions)
    (compares : ∀ clause ∈ conditions, table.ComparesKey keyDocument clause)
    (isBinary : table.HasBinaryKey) (limit : Option Nat) (forward : Option Bool) :
    ∃ name ∈ table.key.attributes, ∃ property,
      table.schema.get? name = some property ∧ property.type = .binary ∧
      table.query { key := conditions, limit, forward } =
        .error (.compile (.invalidValueType name "binary")) := by
  let refused : CompileError → Prop := fun error =>
    ∃ name ∈ table.key.attributes, ∃ property, table.schema.get? name = some property ∧
      property.type = .binary ∧ error = .invalidValueType name "binary"
  have each : ∀ clause ∈ conditions,
      (∃ formula, Formula.ofKeyClause table.schema clause = .ok formula) ∨
        ∃ error, refused error ∧ Formula.ofKeyClause table.schema clause = .error error := by
    intro clause member
    obtain ⟨property, condition, stored, -, inKey, found, -, compiled⟩ := compares clause member
    split at compiled
    · next binary => exact Or.inr ⟨_, ⟨_, inKey, property, found, binary, rfl⟩, compiled⟩
    · exact Or.inl ⟨_, compiled⟩
  obtain ⟨name, inKey, property, found, binary⟩ := isBinary
  obtain ⟨condition, binaryClause⟩ := Where.mem_attributeNames.mp ((asks.names name).mpr inKey)
  have fails : Formula.ofKeyClause table.schema (.condition name condition) =
      .error (.invalidValueType name "binary") := by
    obtain ⟨other, otherCondition, stored, same, -, foundOther, -, compiled⟩ :=
      compares _ binaryClause
    obtain ⟨rfl, -⟩ := Clause.condition.inj same
    rw [found] at foundOther
    cases foundOther
    rw [if_pos binary] at compiled
    exact compiled
  -- Both key attributes may be bytes, and then the clause that comes first is refused.
  obtain ⟨error, ⟨first, firstInKey, firstProperty, firstFound, firstBinary, rfl⟩, failed⟩ :=
    Formula.ofKeyClauses_refused each binaryClause fails
  refine ⟨first, firstInKey, firstProperty, firstFound, firstBinary, ?_⟩
  refine asks.query_eq limit forward (.error _) ?_
  rw [Where.keyCondition, failed]
  rfl

end AsksForKey

/-- The key of a valid document can be queried, and the query compares its attributes with
just what the key holds.  A key with bytes is refused. -/
theorem key_is_queried {title : String} {declarations : Declarations} {key : KeySchema}
    {indexes : List IndexDefinition} {config : Config}
    (defined : define title declarations key indexes config = .ok table)
    (valid : table.validate document = .ok ()) (keyed : table.keyOf document = .ok keyDocument)
    (asks : table.AsksForKey document conditions) (limit : Option Nat) (forward : Option Bool) :
    (¬ table.HasBinaryKey → ∃ request comparisons,
      table.query { key := conditions, limit, forward } = .ok request ∧ request.index = none ∧
      request.keyComparisons? = some comparisons ∧
      comparisons.map (·.name) = conditions.attributeNames ∧
      ∀ comparison ∈ comparisons, comparison.comparison = .eq ∧
        keyDocument.get? comparison.name = some comparison.operand) ∧
    (table.HasBinaryKey → ∃ name ∈ table.key.attributes, ∃ property,
      table.schema.get? name = some property ∧ property.type = .binary ∧
      table.query { key := conditions, limit, forward } =
        .error (.compile (.invalidValueType name "binary"))) := by
  obtain ⟨normalized, tested⟩ := define_eq_ok defined
  have normal := Schema.ofDeclarations_isNormal normalized
  have compares := asks.comparesKey normal tested valid keyed
  exact ⟨fun notBinary => asks.exists_query compares notBinary limit forward,
    fun isBinary => asks.query_refused compares isBinary limit forward⟩

/-- The equalities for the key of a page, which is rendered, and its day. -/
def pageKey : Where :=
  [.condition "day" (.operators [(.eq, (page.get? "day").getD .null)]),
    .condition "key" (.bare (.string "PAGE#home#a/b"))]

theorem page_asks :
    ∃ table keyDocument,
      define "Page" pageDeclarations { hash := "key", range := some "day" } [] {} = .ok table ∧
      table.validate page = .ok () ∧ table.keyOf page = .ok keyDocument ∧
      table.AsksForKey page pageKey ∧ ¬ table.HasBinaryKey := by
  refine ⟨_, _, rfl, rfl, rfl, ⟨by decide, ?_, ?_⟩, ?_⟩
  · intro name
    have inOrder : pageKey.attributeNames = ["day", "key"] := rfl
    have key : KeySchema.attributes { hash := "key", range := some "day" } = ["key", "day"] := rfl
    rw [inOrder, key]
    simp [or_comm]
  · intro clause member
    rcases List.mem_pair.mp member with rfl | rfl
    · exact ⟨"day", _, _, rfl, rfl, Or.inr rfl⟩
    · exact ⟨"key", _, _, rfl, rfl, Or.inl rfl⟩
  · rintro ⟨name, member, property, found, isBinary⟩
    rcases List.mem_pair.mp member with rfl | rfl
    · cases Option.some.inj (show some _ = some property from found)
      cases isBinary
    · cases Option.some.inj (show some _ = some property from found)
      cases isBinary

theorem key_is_queried_of_page :
    ∃ table keyDocument,
      define "Page" pageDeclarations { hash := "key", range := some "day" } [] {} = .ok table ∧
      table.validate page = .ok () ∧ table.keyOf page = .ok keyDocument ∧
      table.AsksForKey page pageKey ∧
      ∃ request comparisons,
        table.query { key := pageKey, limit := some 1, forward := none } = .ok request ∧
        request.index = none ∧ request.keyComparisons? = some comparisons ∧
        comparisons.map (·.name) = pageKey.attributeNames ∧
        ∀ comparison ∈ comparisons, comparison.comparison = .eq ∧
          keyDocument.get? comparison.name = some comparison.operand := by
  obtain ⟨table, keyDocument, defined, valid, keyed, asks, notBinary⟩ := page_asks
  exact ⟨table, keyDocument, defined, valid, keyed, asks,
    (key_is_queried defined valid keyed asks (some 1) none).1 notBinary⟩

/-- A key of bytes can be taken from a valid document, but not queried. -/
theorem binary_key_is_not_queried :
    ∃ table keyDocument,
      define "Blob" [("id", { type := "binary", required := true })]
        { hash := "id", range := none } [] {} = .ok table ∧
      (∀ property ∈ table.schema, property.set = none) ∧
      table.validate [("id", .binary [1, 2])] = .ok () ∧
      table.keyOf [("id", .binary [1, 2])] = .ok keyDocument ∧
      table.AsksForKey [("id", .binary [1, 2])] [.condition "id" (.bare (.binary [1, 2]))] ∧
      table.query { key := [.condition "id" (.bare (.binary [1, 2]))] } =
        .error (.compile (.invalidValueType "id" "binary")) := by
  refine ⟨_, _, rfl, ?_, rfl, rfl, ⟨by decide, fun name => Iff.rfl, ?_⟩, rfl⟩
  · intro property member
    rw [List.mem_singleton.mp member]
  · intro clause member
    rw [List.mem_singleton.mp member]
    exact ⟨"id", _, _, rfl, rfl, Or.inl rfl⟩

end Table

end ItemTable
