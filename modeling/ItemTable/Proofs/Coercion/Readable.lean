import ItemTable.Proofs.Coercion.Distinct
import ItemTable.Proofs.Instant.Stored

/-!
# Whether a written document can be read

Whatever hooks have done, a written document holds stored instants where dates are
declared.  So it is read exactly when each of these instants is read back, which is not so
for text with a year of more or fewer than four digits and for the count of the last leap
second.
-/

namespace ItemTable.Schema

variable {schema inner : Schema} {stage : WriteStage} {document fields stored : Document}

/-- The documents inside a written document are written. -/
theorem exists_of_governs_write (governs : schema.Governs stored inner fields)
    (normal : schema.IsDeeplyNormal)
    (unset : schema.AllProperties fun property => property.set = none)
    (written : writeFields stage schema document document = .ok stored) :
    ∃ before, writeFields stage inner before before = .ok fields := by
  induction governs generalizing document with
  | self => exact ⟨document, written⟩
  | inside member carries found held _ induction =>
      have normalHere := normal _ (.self _)
      obtain ⟨final, -, stores, -⟩ := writeFields_eq_ok normalHere.distinct written
      have storesHere := stores _ member
      rw [found] at storesHere
      obtain ⟨before, inside, writtenInside, storesInside⟩ :=
        exists_store_of_storeField held.ne_null storesHere
      -- A property with a schema inside is no date, so it stores what is written inside.
      rw [PropertyTraits.store_of_ne_date (unset.here member) fun isDate => by
        simp [(normalHere.normal _ member).flat_of_date isDate] at carries] at storesInside
      cases storesInside
      rw [writeInside_eq, carries] at writtenInside
      obtain ⟨fieldsBefore, -, writes⟩ := exists_of_holds_coerceInside writtenInside held
      exact induction (normal.of_carries member carries) (unset.of_carries member carries) writes

/-- The date properties of a written document hold nulls and stored instants. -/
theorem allDates_of_write (normal : schema.IsDeeplyNormal)
    (unset : schema.AllProperties fun property => property.set = none)
    (written : writeFields stage schema document document = .ok stored) :
    schema.AllDates stored fun format value =>
      ∃ instant : Instant, value = instant.toStored format := by
  intro inner fields governs property member isDate value found notNull
  have normalHere := normal inner governs.nests
  obtain ⟨before, writes⟩ := exists_of_governs_write governs normal unset written
  obtain ⟨final, -, stores, -⟩ := writeFields_eq_ok normalHere.distinct writes
  have storesHere := stores property member
  rw [found] at storesHere
  obtain ⟨before, inside, -, storesInside⟩ := exists_store_of_storeField notNull storesHere
  rcases (PropertyTraits.store_eq_ok_iff_of_date (unset inner governs.nests property member)
    isDate).mp storesInside with ⟨-, rfl⟩ | ⟨instant, -, rfl⟩
  · exact absurd rfl notNull
  · exact ⟨instant, rfl⟩

/-- A written document holds stored instants where dates are declared, and it is read
exactly when each of them is read back. -/
theorem written_is_read_iff {declarations : Declarations}
    (normalized : ofDeclarations declarations = .ok schema)
    (untransformed : schema.IsUntransformed) (keeps : schema.KeepsDistinct stage)
    (distinct : (Value.map document).isDistinct = true)
    (written : schema.write stage document = .ok stored) :
    (schema.AllDates stored fun format value =>
      ∃ instant : Instant, value = instant.toStored format) ∧
    ((∃ result, schema.read stored = .ok result) ↔
      schema.AllDates stored fun format value => ∀ instant : Instant,
        value = instant.toStored format → instant.readsBack format = true) := by
  have normal := ofDeclarations_isDeeplyNormal normalized
  have unset : schema.AllProperties fun property => property.set = none :=
    fun inner nests property member => (untransformed inner nests property member).2
  have instants := allDates_of_write normal unset written
  refine ⟨instants, ?_⟩
  have distinctStored := isDistinct_writeFields schema keeps unset distinct written
  rw [read, exists_readFields_iff_allDates schema normal untransformed
    (hasDistinctNames_of_isDistinct distinctStored)]
  apply instants.congr
  rintro format _ ⟨instant, rfl⟩
  rw [← Instant.readsBack_iff]
  constructor
  · intro reads other same
    rw [Instant.readsBack_iff] at reads ⊢
    rwa [← same]
  · intro reads
    exact reads instant rfl

/-- A hook that supplies a time. -/
def timestamp : Hook := fun _ _ => .ok (some (.date ⟨1, 1999999, by decide, by decide⟩))

/-- Logs have a time that a hook supplies, and spans that end at a time. -/
def logDeclarations : Declarations :=
  [("label", { type := "string", composite := some "LOG#{name}" }),
    ("name", { type := "string", required := true }),
    ("at", { type := "date", hooks := { onCreate := some timestamp } }),
    ("spans", {
      type := "list"
      properties := some [("end", { type := "date", format := some .number })] })]

/-- A log with a span that ends in a leap second. -/
def log : Document :=
  [("name", .string "A"),
    ("spans", .list [.map [("end", .date ⟨1435708799, 1500000000, by decide, by decide⟩)]])]

theorem log_written :
    ∃ schema, ofDeclarations logDeclarations = .ok schema ∧ schema.IsUntransformed ∧
      schema.KeepsDistinct .create ∧ (Value.map log).isDistinct = true ∧
      schema.write .create log = .ok
        [("name", .string "A"),
          ("spans", .list [.map [("end", .number (.ofInt 1435708800500))]]),
          ("label", .string "LOG#A"), ("at", .string "1970-01-01T00:00:01.001Z")] := by
  refine ⟨_, rfl, ?_, ?_, rfl, rfl⟩
  · rw [IsUntransformed, allProperties_iff]
    intro property member
    simp only [List.mem_cons, List.not_mem_nil, or_false] at member
    rcases member with rfl | rfl | rfl | rfl
    · exact ⟨⟨rfl, rfl⟩, by rintro nested ⟨⟩⟩
    · exact ⟨⟨rfl, rfl⟩, by rintro nested ⟨⟩⟩
    · exact ⟨⟨rfl, rfl⟩, by rintro nested ⟨⟩⟩
    · refine ⟨⟨rfl, rfl⟩, ?_⟩
      rintro nested ⟨⟩
      simp [allProperties_iff_of_flat]
  · rw [KeepsDistinct, allProperties_iff]
    intro property member
    simp only [List.mem_cons, List.not_mem_nil, or_false] at member
    rcases member with rfl | rfl | rfl | rfl
    · refine ⟨?_, by rintro nested ⟨⟩⟩
      rintro hook ⟨⟩ value document result - - ⟨⟩
      rfl
    · exact ⟨by rintro hook ⟨⟩, by rintro nested ⟨⟩⟩
    · refine ⟨?_, by rintro nested ⟨⟩⟩
      rintro hook ⟨⟩ value document result - - ⟨⟩
      rfl
    · refine ⟨by rintro hook ⟨⟩, ?_⟩
      rintro nested ⟨⟩
      simp [allProperties_iff_of_flat, StageHooks.at]

theorem written_is_read_iff_of_log :
    ∃ schema stored, ofDeclarations logDeclarations = .ok schema ∧
      schema.write .create log = .ok stored ∧
      stored.get? "at" = some (.string "1970-01-01T00:00:01.001Z") ∧
      (schema.AllDates stored fun format value =>
        ∃ instant : Instant, value = instant.toStored format) ∧
      ((∃ result, schema.read stored = .ok result) ↔
        schema.AllDates stored fun format value => ∀ instant : Instant,
          value = instant.toStored format → instant.readsBack format = true) := by
  obtain ⟨schema, normalized, untransformed, keeps, distinct, written⟩ := log_written
  exact ⟨schema, _, normalized, written, rfl,
    written_is_read_iff normalized untransformed keeps distinct written⟩

/-- Plans have a day. -/
def planDeclarations : Declarations :=
  [("day", { type := "date" })]

/-- A plan for the first day of the year 10000. -/
def plan : Document := [("day", .date (.startOf 253402300800 (by decide)))]

/-- A year of five digits is written with a sign, and not read. -/
theorem written_plan_is_not_read :
    ∃ schema stored, ofDeclarations planDeclarations = .ok schema ∧
      schema.IsUntransformed ∧ schema.KeepsDistinct .create ∧
      (Value.map plan).isDistinct = true ∧
      schema.write .create plan = .ok stored ∧
      schema.read stored = .error (.invalidDate "day" "+10000-01-01T00:00:00.000Z") := by
  refine ⟨_, _, rfl, ?_, ?_, rfl, rfl, rfl⟩
  · simp [IsUntransformed, allProperties_iff_of_flat]
  · simp [KeepsDistinct, allProperties_iff_of_flat, StageHooks.at]

end ItemTable.Schema
