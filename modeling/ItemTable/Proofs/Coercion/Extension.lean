import ItemTable.Proofs.Coercion.Fill
import ItemTable.Proofs.Schema.Nested

/-!
# Extended documents

Filling only extends a document.  Its fields come first, in their order, and keep their
values but for what is added inside of documents that have a schema of their own.  Behind
them come its gaps, in the order of the schema.
-/

namespace ItemTable.Schema

/-- The properties with a default that a document has no field for. -/
def gaps (schema : Schema) (document : Document) : List Property :=
  schema.filter fun property =>
    property.default.isSome && (document.get? property.name).isNone

mutual

/-- A document that has the fields of another, and behind them fields for its gaps. -/
inductive Extends : Schema → Document → Document → Prop
  | intro {schema : Schema} {document kept added : Document}
      (keeps : KeepsFields schema document kept)
      (adds : added.names = Schema.names (schema.gaps document)) :
      Extends schema document (kept ++ added)

/-- Fields in the order of others, under the same names and with the same values, except
that documents inside may be extended. -/
inductive KeepsFields : Schema → Document → Document → Prop
  | nil {schema : Schema} : KeepsFields schema [] []
  | cons {schema : Schema} {name : String} {value kept : Value} {fields keptFields : Document}
      (first : KeepsValue schema name value kept)
      (rest : KeepsFields schema fields keptFields) :
      KeepsFields schema ((name, value) :: fields) ((name, kept) :: keptFields)

/-- The same value, or an extension of the document that a property has inside. -/
inductive KeepsValue : Schema → String → Value → Value → Prop
  | same {schema : Schema} {name : String} {value : Value} : KeepsValue schema name value value
  | inside {schema nested : Schema} {property : Property} {fields extended : Document}
      (member : property ∈ schema) (carries : property.properties = some nested)
      (extension : Extends nested fields extended) :
      KeepsValue schema property.name (.map fields) (.map extended)

end

variable {schema : Schema} {calls later : Calls} {document kept added filled : Document}

theorem KeepsFields.refl (schema : Schema) (document : Document) :
    KeepsFields schema document document := by
  induction document with
  | nil => exact .nil
  | cons field document induction => exact .cons .same induction

theorem KeepsFields.names_eq (keeps : KeepsFields schema document kept) :
    kept.names = document.names := by
  induction document generalizing kept with
  | nil =>
      cases keeps
      rfl
  | cons field document induction =>
      cases keeps with
      | cons first rest => exact congrArg (_ :: ·) (induction rest)

/-- Values are kept if one of them is replaced by another that keeps it. -/
theorem KeepsFields.put (keeps : KeepsFields schema document kept) {name : String}
    {value next : Value} (supplied : document.get? name = some value)
    (keepsValue : KeepsValue schema name value next) :
    KeepsFields schema document (kept.put name next) := by
  induction document generalizing kept with
  | nil => cases supplied
  | cons field document induction =>
      cases keeps with
      | @cons _ key old keptOld _ keptFields first rest =>
          rw [Entries.get?] at supplied
          rw [Entries.put]
          split
          · next same =>
              subst same
              rw [if_pos rfl] at supplied
              cases supplied
              exact .cons keepsValue rest
          · next other =>
              rw [if_neg other] at supplied
              exact .cons first (induction rest supplied)

theorem gaps_cons (property : Property) (properties : List Property) (document : Document) :
    gaps (property :: properties) document =
      gaps [property] document ++ gaps properties document :=
  List.filter_append [property] properties

/-- One step adds a field for the property if it is a gap, and keeps all others. -/
theorem FillStep.extends_of_nested {property : Property}
    (nestedExtends : ∀ nested, property.properties = some nested →
      ∀ {fields filledFields : Document} {calls later : Calls},
        fillFields nested fields calls = (.ok filledFields, later) →
          Extends nested fields filledFields)
    (member : property ∈ schema) (keeps : KeepsFields schema document kept)
    (untouched : (kept ++ added).get? property.name = document.get? property.name)
    (step : FillStep property (kept ++ added) calls filled later) :
    ∃ keptNext addedNext, filled = keptNext ++ (added ++ addedNext) ∧
      KeepsFields schema document keptNext ∧
      Entries.names addedNext = Schema.names (gaps [property] document) := by
  cases step with
  | absent missing undefaulted =>
      refine ⟨kept, [], by simp, keeps, ?_⟩
      simp [gaps, undefaulted, Entries.names, names]
  | @defaulted default value _ missing declared resolves =>
      refine ⟨kept, [(property.name, value)], ?_, keeps, ?_⟩
      · rw [Entries.put_of_not_mem value (Entries.get?_eq_none_iff.mp missing),
          List.append_assoc]
      · rw [untouched] at missing
        simp [gaps, declared, missing, Entries.names, names]
  | @inside nested fields filledFields _ carries supplied fills =>
      rw [untouched] at supplied
      refine ⟨kept.put property.name (.map filledFields), [], ?_, ?_, ?_⟩
      · rw [List.append_nil]
        apply Entries.put_append_of_mem
        rw [keeps.names_eq, ← Entries.get?_isSome_iff, supplied]
        rfl
      · exact keeps.put supplied (.inside member carries (nestedExtends nested carries fills))
      · simp [gaps, supplied, Entries.names, names]
  | kept supplied flat =>
      rw [untouched] at supplied
      refine ⟨kept, [], by simp, keeps, ?_⟩
      simp [gaps, supplied, Entries.names, names]

/-- Filling the rest of a schema adds fields for the gaps that are left. -/
theorem fillFields_extends_of_nested
    (nestedExtends : ∀ property ∈ schema, ∀ nested, property.properties = some nested →
      ∀ {fields filledFields : Document} {calls later : Calls},
        fillFields nested fields calls = (.ok filledFields, later) →
          Extends nested fields filledFields)
    {properties : List Property} (within : ∀ property ∈ properties, property ∈ schema)
    (distinct : (Schema.names properties).Nodup) (keeps : KeepsFields schema document kept)
    (untouched : ∀ property ∈ properties,
      (kept ++ added).get? property.name = document.get? property.name)
    (fills : fillFields properties (kept ++ added) calls = (.ok filled, later)) :
    ∃ keptLast addedLast, filled = keptLast ++ (added ++ addedLast) ∧
      KeepsFields schema document keptLast ∧
      Entries.names addedLast = Schema.names (gaps properties document) := by
  -- The pass has reached `kept ++ added`: the fields of the document, then what was added for
  -- the properties before.  Those still to come see their fields as the document has them.
  induction properties generalizing kept added calls with
  | nil =>
      obtain ⟨rfl, -⟩ := fillFields_nil_eq_ok_iff.mp fills
      exact ⟨kept, [], by simp, keeps, rfl⟩
  | cons property properties induction =>
      rw [names, List.map_cons, List.nodup_cons] at distinct
      obtain ⟨middle, between, step, fillsRest⟩ := fillFields_cons_eq_ok_iff.mp fills
      have member := within property List.mem_cons_self
      have untouchedRest : ∀ other ∈ properties,
          middle.get? other.name = document.get? other.name := by
        intro other later
        have different : other.name ≠ property.name := by
          intro same
          exact distinct.1 (same ▸ List.mem_map_of_mem later)
        rw [step.get?_of_ne different, untouched other (List.mem_cons_of_mem _ later)]
      obtain ⟨keptNext, addedNext, rfl, keepsNext, addsNext⟩ :=
        step.extends_of_nested (nestedExtends property member) member keeps
          (untouched property List.mem_cons_self)
      obtain ⟨keptLast, addedLast, rfl, keepsLast, addsLast⟩ :=
        induction (fun other later => within other (List.mem_cons_of_mem _ later)) distinct.2
          keepsNext untouchedRest fillsRest
      refine ⟨keptLast, addedNext ++ addedLast, by simp, keepsLast, ?_⟩
      rw [gaps_cons, Entries.names, List.map_append, names, List.map_append]
      exact congrArg₂ (· ++ ·) addsNext addsLast

theorem fillFields_extends (schema : Schema) :
    ∀ {document filled : Document} {calls later : Calls}, schema.IsDeeplyNormal →
      fillFields schema document calls = (.ok filled, later) →
        schema.Extends document filled := by
  induction schema using Schema.induction with
  | step schema induction =>
      intro document filled calls later normal fills
      have start : fillFields schema (document ++ []) calls = (.ok filled, later) := by
        rw [List.append_nil]
        exact fills
      obtain ⟨kept, added, rfl, keeps, adds⟩ := fillFields_extends_of_nested
        (fun property member nested carries _ _ _ _ fillsInside =>
          induction property member nested carries (normal.of_carries member carries) fillsInside)
        (fun _ member => member) (normal schema (.self schema)).distinct
        (KeepsFields.refl schema document) (by simp) start
      exact .intro keeps adds

/-- Filling extends a document and changes nothing else. -/
theorem filled_extends_document {declarations : Declarations}
    (normalized : ofDeclarations declarations = .ok schema)
    (fills : schema.fill document calls = (.ok filled, later)) :
    schema.Extends document filled :=
  fillFields_extends schema (ofDeclarations_isDeeplyNormal normalized) fills

/-- Orders have a state with a phase, a status and a code. -/
def stateOfOrder : Declarations :=
  [("phase", { type := "string", default := some (.constant (.string "open")) }),
    ("note", { type := "string", default := some (.constant (.string "none")) })]

def codedOrders : Declarations :=
  [("code", { type := "string", composite := some "{id}-{status}" }),
    ("status", { type := "string", default := some (.constant (.string "new")) }),
    ("state", { type := "object", properties := some stateOfOrder }),
    ("id", { type := "string", required := true })]

/-- An order with a null, and with a field that is not declared. -/
def codedOrder : Document :=
  [("gift", .bool true), ("state", .map [("note", .null)]), ("id", .string "7")]

theorem codedOrder_filled :
    ∃ schema filled, ofDeclarations codedOrders = .ok schema ∧
      schema.fill codedOrder Calls.none = (.ok filled, Calls.none) ∧
      filled.names = ["gift", "state", "id", "code", "status"] ∧
      filled.get? "state" = some (.map [("note", .null), ("phase", .string "open")]) :=
  ⟨_, _, rfl, rfl, rfl, rfl⟩

theorem filled_extends_document_of_codedOrder :
    ∃ schema filled, ofDeclarations codedOrders = .ok schema ∧
      schema.fill codedOrder Calls.none = (.ok filled, Calls.none) ∧
      filled.names = ["gift", "state", "id", "code", "status"] ∧
      filled.get? "state" = some (.map [("note", .null), ("phase", .string "open")]) ∧
      schema.Extends codedOrder filled := by
  obtain ⟨schema, filled, normalized, fills, named, held⟩ := codedOrder_filled
  exact ⟨schema, filled, normalized, fills, named, held,
    filled_extends_document normalized fills⟩

end ItemTable.Schema
