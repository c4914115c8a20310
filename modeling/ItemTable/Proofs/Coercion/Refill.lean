import ItemTable.Proofs.Coercion.Extension

/-!
# Filling a document again

Filling a document again leaves it as it is exactly when it is filled: it has no gap, nor
has any document that filling goes into.  After the first time there are no gaps but in
the documents that defaults have supplied, which that one pass has not gone into.
-/

namespace ItemTable.Schema

/-- The document itself, and the documents inside that filling goes into, with their
schemas. -/
inductive Reaches : Schema → Document → Schema → Document → Prop
  | self (schema : Schema) (document : Document) : Reaches schema document schema document
  | inside {schema nested inner : Schema} {property : Property}
      {document fields innermost : Document} (member : property ∈ schema)
      (carries : property.properties = some nested)
      (found : document.get? property.name = some (.map fields))
      (reaches : Reaches nested fields inner innermost) : Reaches schema document inner innermost

/-- There is no default left to fill in. -/
def IsFilled (schema : Schema) (document : Document) : Prop :=
  ∀ inner fields, schema.Reaches document inner fields → inner.gaps fields = []

/-- The documents that fields of the second document hold which the first one has not,
with their schemas. -/
inductive Supplies : Schema → Document → Document → Schema → Document → Prop
  | here {schema nested : Schema} {property : Property} {document filled fields : Document}
      (member : property ∈ schema) (carries : property.properties = some nested)
      (missing : document.get? property.name = none)
      (held : filled.get? property.name = some (.map fields)) :
      Supplies schema document filled nested fields
  | inside {schema nested inner : Schema} {property : Property}
      {document filled fields filledFields innermost : Document} (member : property ∈ schema)
      (carries : property.properties = some nested)
      (supplied : document.get? property.name = some (.map fields))
      (held : filled.get? property.name = some (.map filledFields))
      (supplies : Supplies nested fields filledFields inner innermost) :
      Supplies schema document filled inner innermost

variable {schema nested : Schema} {property : Property} {calls later other : Calls}
variable {document filled fields filledFields : Document}

theorem gaps_eq_nil_iff :
    schema.gaps document = [] ↔ ∀ property ∈ schema, property.default.isSome = true →
      (document.get? property.name).isSome = true := by
  simp [gaps, List.filter_eq_nil_iff, Option.isSome_iff_ne_none]

theorem isFilled_iff :
    schema.IsFilled document ↔ schema.gaps document = [] ∧
      ∀ property ∈ schema, ∀ nested, property.properties = some nested → ∀ fields,
        document.get? property.name = some (.map fields) → IsFilled nested fields := by
  constructor
  · intro isFilled
    refine ⟨isFilled schema document (.self schema document), ?_⟩
    intro property member nested carries fields found inner innermost reaches
    exact isFilled inner innermost (.inside member carries found reaches)
  · rintro ⟨here, inside⟩ inner innermost reaches
    cases reaches with
    | self => exact here
    | inside member carries found reaches =>
        exact inside _ member _ carries _ found inner innermost reaches

theorem IsFilled.inside (isFilled : schema.IsFilled document) (member : property ∈ schema)
    (carries : property.properties = some nested)
    (found : document.get? property.name = some (.map fields)) : IsFilled nested fields :=
  (isFilled_iff.mp isFilled).2 property member nested carries fields found

/-- A step changes nothing where there is no gap and the document inside passes through. -/
theorem FillStep.of_filled
    (present : property.default.isSome = true → (document.get? property.name).isSome = true)
    (stays : ∀ nested, property.properties = some nested → ∀ fields,
      document.get? property.name = some (.map fields) →
        fillFields nested fields calls = (.ok fields, calls)) :
    FillStep property document calls document calls := by
  cases found : document.get? property.name with
  | none =>
      refine .absent found ?_
      cases declared : property.default with
      | none => rfl
      | some default => simp [declared, found] at present
  | some value =>
      by_cases within : ∃ nested fields, property.properties = some nested ∧ value = .map fields
      · obtain ⟨nested, fields, carries, rfl⟩ := within
        have step := FillStep.inside carries found (stays nested carries fields found)
        rwa [Entries.put_of_get? found] at step
      · exact .kept found fun nested fields carries isMap =>
          within ⟨nested, fields, carries, isMap⟩

theorem fillFields_of_steps {properties : List Property}
    (steps : ∀ property ∈ properties, FillStep property document calls document calls) :
    fillFields properties document calls = (.ok document, calls) := by
  induction properties with
  | nil => rfl
  | cons property properties induction =>
      obtain ⟨step, stepsRest⟩ := List.forall_mem_cons.mp steps
      exact fillFields_cons_eq_ok_iff.mpr ⟨document, calls, step, induction stepsRest⟩

theorem fillFields_of_isFilled (schema : Schema) :
    ∀ {document : Document} {calls : Calls}, schema.IsFilled document →
      fillFields schema document calls = (.ok document, calls) := by
  induction schema using Schema.induction with
  | step schema induction =>
      intro document calls isFilled
      obtain ⟨gapless, inside⟩ := isFilled_iff.mp isFilled
      apply fillFields_of_steps
      intro property member
      refine .of_filled (gaps_eq_nil_iff.mp gapless property member) ?_
      intro nested carries fields found
      exact induction property member nested carries
        (inside property member nested carries fields found)

theorem Supplies.isFilled {inner : Schema} {innermost : Document}
    (supplies : schema.Supplies document filled inner innermost)
    (isFilled : schema.IsFilled filled) : inner.IsFilled innermost := by
  induction supplies with
  | here member carries _ held => exact isFilled.inside member carries held
  | inside member carries _ held _ induction =>
      exact induction (isFilled.inside member carries held)

theorem Supplies.ne {inner : Schema} {innermost : Document}
    (supplies : schema.Supplies document filled inner innermost) : filled ≠ document := by
  induction supplies with
  | here _ _ missing held =>
      rintro rfl
      simp [held] at missing
  | inside _ _ supplied held _ induction =>
      rintro rfl
      cases held.symm.trans supplied
      exact induction rfl

/-- Filling leaves no gaps but in what defaults have supplied. -/
theorem isFilled_of_supplied (schema : Schema) :
    ∀ {document filled : Document} {calls later : Calls}, schema.IsDeeplyNormal →
      fillFields schema document calls = (.ok filled, later) →
        (∀ inner innermost, schema.Supplies document filled inner innermost →
          inner.IsFilled innermost) → schema.IsFilled filled := by
  induction schema using Schema.induction with
  | step schema induction =>
      intro document filled calls later normal fills supplied
      have fillsEach := fillFields_eq_ok (normal schema (.self schema)).distinct fills
      refine isFilled_iff.mpr ⟨gaps_eq_nil_iff.mpr ?_, ?_⟩
      · intro property member defaulted
        apply (fillsEach property member).isSome
        intro undefaulted
        simp [undefaulted] at defaulted
      · intro property member nested carries filledFields found
        -- What lies inside was supplied by a default, or the pass has gone into it.
        cases fillsEach property member with
        | absent _ _ same => simp [found] at same
        | defaulted missing _ _ _ =>
            exact supplied nested filledFields (.here member carries missing found)
        | inside carriesToo suppliedFields fillsInside held =>
            cases carries.symm.trans carriesToo
            cases found.symm.trans held
            apply induction property member nested carries (normal.of_carries member carries)
              fillsInside
            intro inner innermost supplies
            exact supplied inner innermost (.inside member carries suppliedFields found supplies)
        | kept _ flat same =>
            cases found.symm.trans same
            exact absurd rfl (flat nested filledFields carries)

/-- A document passes through filling exactly when it is filled. -/
theorem fill_eq_self_iff (normal : schema.IsDeeplyNormal) :
    (schema.fill document calls).1 = .ok document ↔ schema.IsFilled document := by
  constructor
  · intro same
    refine isFilled_of_supplied schema normal (Prod.ext same rfl) ?_
    intro inner innermost supplies
    exact absurd rfl supplies.ne
  · intro isFilled
    rw [fill, fillFields_of_isFilled schema isFilled]

/-- A filled document passes through filling again exactly when there is nothing left to
fill in, that is when the documents that defaults have supplied have no gaps. -/
theorem filled_again_iff {declarations : Declarations}
    (normalized : ofDeclarations declarations = .ok schema)
    (fills : schema.fill document calls = (.ok filled, later)) (other : Calls) :
    ((schema.fill filled other).1 = .ok filled ↔ schema.IsFilled filled) ∧
      (schema.IsFilled filled ↔ ∀ inner fields,
        schema.Supplies document filled inner fields → inner.IsFilled fields) := by
  have normal := ofDeclarations_isDeeplyNormal normalized
  refine ⟨fill_eq_self_iff normal, ?_, isFilled_of_supplied schema normal fills⟩
  intro isFilled inner fields supplies
  exact supplies.isFilled isFilled

/-- Tasks have a state, which is in its first phase where nothing else is said. -/
def phases : Declarations :=
  [("phase", { type := "string", default := some (.constant (.string "draft")) })]

/-- The state is supplied with the given fields. -/
def tasks (state : Document) : Declarations :=
  [("title", { type := "string" }),
    ("state", { type := "object", properties := some phases,
                default := some (.constant (.map state)) })]

theorem task_filled :
    ∃ schema filled, ofDeclarations (tasks [("phase", .string "new")]) = .ok schema ∧
      schema.fill [("title", .string "A")] Calls.none = (.ok filled, Calls.none) ∧
      filled.get? "state" = some (.map [("phase", .string "new")]) :=
  ⟨_, _, rfl, rfl, rfl⟩

theorem filled_again_iff_of_task :
    ∃ schema filled, ofDeclarations (tasks [("phase", .string "new")]) = .ok schema ∧
      schema.fill [("title", .string "A")] Calls.none = (.ok filled, Calls.none) ∧
      filled.get? "state" = some (.map [("phase", .string "new")]) ∧
      ((schema.fill filled Calls.none).1 = .ok filled ↔ schema.IsFilled filled) ∧
      (schema.IsFilled filled ↔ ∀ inner fields,
        schema.Supplies [("title", .string "A")] filled inner fields →
          inner.IsFilled fields) := by
  obtain ⟨schema, filled, normalized, fills, held⟩ := task_filled
  exact ⟨schema, filled, normalized, fills, held, filled_again_iff normalized fills Calls.none⟩

/-- A state that is supplied without a phase gets it only the second time. -/
theorem task_is_filled_again :
    ∃ schema filled again, ofDeclarations (tasks []) = .ok schema ∧
      schema.fill [("title", .string "A")] Calls.none = (.ok filled, Calls.none) ∧
      schema.fill filled Calls.none = (.ok again, Calls.none) ∧
      filled.get? "state" = some (.map []) ∧
      again.get? "state" = some (.map [("phase", .string "draft")]) ∧ again ≠ filled := by
  refine ⟨_, _, _, rfl, rfl, rfl, rfl, rfl, ?_⟩
  intro same
  cases same

end ItemTable.Schema
