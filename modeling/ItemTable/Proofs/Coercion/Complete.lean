import ItemTable.Proofs.Coercion.Fill
import ItemTable.Proofs.Validation.Missing

/-!
# Complete documents

A document is complete when every required property has a field, in the document and in
all documents inside.  The check for missing fields excuses a required property that has
a default, and filling supplies it, but not everywhere: the check looks into list
elements where filling does not, and neither looks into what a default supplies.
Filling completes a document that has no gaps in these places.
-/

namespace ItemTable.Schema

variable {schema nested : Schema} {document filled : Document} {calls later : Calls}

/-- Every required property has a field, in the document and in the documents inside. -/
def IsComplete (schema : Schema) (document : Document) : Prop :=
  schema.HasRequired document fun _ => True

theorem isComplete_of_hasRequired
    (undefaulted : schema.HasRequired document fun property => property.default = none)
    (defaulted : schema.HasRequired document fun property => property.default.isSome = true) :
    schema.IsComplete document := by
  intro inner fields governs property member required _
  cases declared : property.default with
  | none => exact undefaulted inner fields governs property member required declared
  | some default =>
      apply defaulted inner fields governs property member required
      rw [declared]
      rfl

/-- The documents among list elements have the required fields that there are defaults for. -/
def ElementsHaveDefaulted (schema : Schema) (document : Document) : Prop :=
  schema.AllDocuments document fun inner fields => ∀ property ∈ inner, ∀ nested,
    property.properties = some nested → ∀ items,
      fields.get? property.name = some (.list items) → ∀ element, .map element ∈ items →
        Schema.HasRequired nested element fun property => property.default.isSome = true

/-- The documents that defaults supply are complete. -/
def DefaultsAreComplete (schema : Schema) : Prop :=
  schema.AllProperties fun property => ∀ nested default,
    property.properties = some nested → property.default = some default →
      ∀ document before value after, default.resolve document before = (.ok value, after) →
        ∀ fields, value.Holds fields → IsComplete nested fields

theorem fillFields_isComplete (schema : Schema) :
    ∀ {document filled : Document} {calls later : Calls}, schema.IsDeeplyNormal →
      (schema.HasRequired document fun property => property.default = none) →
        schema.ElementsHaveDefaulted document → schema.DefaultsAreComplete →
          fillFields schema document calls = (.ok filled, later) → schema.IsComplete filled := by
  induction schema using Schema.induction with
  | step schema induction =>
      intro document filled calls later normal undefaulted elements defaults fills
      have fillsEach := fillFields_eq_ok (normal schema (.self schema)).distinct fills
      rw [IsComplete, HasRequired, allDocuments_iff]
      constructor
      · intro property member required _
        apply (fillsEach property member).isSome
        exact undefaulted.here property member required
      · intro property member nested carries value found fields held
        cases fillsEach property member with
        | absent _ _ same => simp [same] at found
        | defaulted _ declared resolves supplied =>
            cases supplied.symm.trans found
            exact defaults.here member nested _ carries declared _ _ _ _ resolves fields held
        | inside carriesToo supplied fillsInside reached =>
            cases carries.symm.trans carriesToo
            cases reached.symm.trans found
            cases held
            exact induction property member nested carries (normal.of_carries member carries)
              (undefaulted.inside member carries supplied (.map _))
              (elements.inside member carries supplied (.map _))
              (defaults.of_carries member carries) fillsInside
        | kept supplied flat same =>
            cases same.symm.trans found
            cases held with
            | map => exact absurd rfl (flat nested _ carries)
            | element inItems =>
                apply isComplete_of_hasRequired
                · exact undefaulted.inside member carries supplied (.element inItems)
                · exact elements.here property member nested carries _ supplied _ inItems

/-- Filling completes a document that passed the check for missing fields. -/
theorem filled_is_complete {declarations : Declarations}
    (normalized : ofDeclarations declarations = .ok schema)
    (tested : schema.testRequired document = .ok ())
    (fills : schema.fill document calls = (.ok filled, later))
    (elements : schema.ElementsHaveDefaulted document) (defaults : schema.DefaultsAreComplete) :
    schema.IsComplete filled :=
  fillFields_isComplete schema (ofDeclarations_isDeeplyNormal normalized)
    (testRequired_eq_ok.mp tested) elements defaults fills

/-- The notes of a post have a language, which is English where none is given. -/
def noteDeclarations : Declarations :=
  [("text", { type := "string", required := true }),
    ("language", { type := "string", required := true,
                   default := some (.constant (.string "en")) })]

def stateDeclarations : Declarations :=
  [("phase", { type := "string", required := true })]

/-- Posts have notes, and a state that is supplied as a whole. -/
def postDeclarations : Declarations :=
  [("title", { type := "string", required := true }),
    ("notes", { type := "list", properties := some noteDeclarations }),
    ("state", { type := "object", required := true, properties := some stateDeclarations,
                default := some (.constant (.map [("phase", .string "draft")])) })]

/-- A post with one note and a gap in its list of notes. -/
def post : Document :=
  [("title", .string "A"),
    ("notes", .list [.null, .map [("text", .string "B"), ("language", .string "de")]])]

theorem post_filled :
    ∃ schema filled, ofDeclarations postDeclarations = .ok schema ∧
      schema.testRequired post = .ok () ∧
      schema.fill post Calls.none = (.ok filled, Calls.none) ∧
      schema.ElementsHaveDefaulted post ∧ schema.DefaultsAreComplete ∧
      filled.get? "state" = some (.map [("phase", .string "draft")]) := by
  refine ⟨_, _, rfl, rfl, rfl, ?_, ?_, rfl⟩
  · rw [ElementsHaveDefaulted, allDocuments_iff]
    constructor
    · intro property member nested carries items found element inItems
      simp only [List.mem_cons, List.not_mem_nil, or_false] at member
      rcases member with rfl | rfl | rfl
      · cases carries
      · cases carries
        cases found
        simp only [List.mem_cons, List.not_mem_nil, or_false, reduceCtorEq, false_or,
          Value.map.injEq] at inItems
        subst inItems
        simp [HasRequired, allDocuments_iff_of_flat, Entries.get?]
      · cases found
    · intro property member nested carries value found fields held
      simp only [List.mem_cons, List.not_mem_nil, or_false] at member
      rcases member with rfl | rfl | rfl
      · cases carries
      · cases carries
        simp [allDocuments_iff_of_flat]
      · cases found
  · rw [DefaultsAreComplete, allProperties_iff]
    intro property member
    simp only [List.mem_cons, List.not_mem_nil, or_false] at member
    rcases member with rfl | rfl | rfl
    · exact ⟨by rintro nested default ⟨⟩, by rintro nested ⟨⟩⟩
    · refine ⟨by rintro nested default - ⟨⟩, ?_⟩
      rintro nested ⟨⟩
      simp [allProperties_iff_of_flat]
    · constructor
      · rintro nested default ⟨⟩ ⟨⟩ document before value after ⟨⟩ fields ⟨⟩
        simp [IsComplete, HasRequired, allDocuments_iff_of_flat, Entries.get?]
      · rintro nested ⟨⟩
        simp [allProperties_iff_of_flat]

theorem filled_is_complete_of_post :
    ∃ schema filled, ofDeclarations postDeclarations = .ok schema ∧
      schema.testRequired post = .ok () ∧
      schema.fill post Calls.none = (.ok filled, Calls.none) ∧
      filled.get? "state" = some (.map [("phase", .string "draft")]) ∧
      schema.IsComplete filled := by
  obtain ⟨schema, filled, normalized, tested, fills, elements, defaults, held⟩ := post_filled
  exact ⟨schema, filled, normalized, tested, fills, held,
    filled_is_complete normalized tested fills elements defaults⟩

/-- A post with a note that has no language. -/
def unmarkedPost : Document :=
  [("title", .string "A"), ("notes", .list [.map [("text", .string "B")]])]

/-- The language of a note is not missed, since it has a default, and not supplied either. -/
theorem filled_post_lacks_language :
    ∃ schema filled, ofDeclarations postDeclarations = .ok schema ∧
      schema.testRequired unmarkedPost = .ok () ∧
      schema.fill unmarkedPost Calls.none = (.ok filled, Calls.none) ∧
      filled.get? "notes" = some (.list [.map [("text", .string "B")]]) ∧
      ¬ schema.IsComplete filled := by
  refine ⟨_, _, rfl, rfl, rfl, rfl, ?_⟩
  intro complete
  rw [IsComplete, HasRequired, allDocuments_iff] at complete
  have notes := complete.2 _ (.tail _ (.head _)) _ rfl _ rfl _ (.element (.head _))
  have present := notes _ _ (.self _ _) _ (.tail _ (.head _)) rfl trivial
  simp [Entries.get?] at present

end ItemTable.Schema
