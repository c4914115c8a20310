import ItemTable.Proofs.Coercion.Walks
import ItemTable.Proofs.Validation.Presence
import ItemTable.Proofs.Validation.Walk

/-!
# Paths built in both directions

Validation, writing and reading put the path of an error together on the way out, from what stands
next to the error.  The searches for missing and undeclared fields build paths on the way down, and
write positions of elements directly behind the path of the list.  Paths are joined associatively
and the empty path does not count, so both give a location the same path, whatever the names are.
-/

namespace ItemTable

variable {parent : String} {paths : List String} {holds : Location → Prop}

/-- Paths that are built on the way down from `parent`, of the locations that satisfy a
condition. -/
def Descend (parent : String) (paths : List String) (holds : Location → Prop) : Prop :=
  ∃ locations : List Location, (∀ location, location ∈ locations ↔ holds location) ∧
    paths = locations.map (Location.pathFrom parent)

theorem Reports.descend {names : Location → List String}
    (reports : Reports parent names paths holds) : Descend parent paths holds := by
  obtain ⟨locations, enumerates, rfl⟩ := reports
  exact ⟨locations, enumerates.complete,
    List.map_congr_left fun location _ => (location.pathFrom_eq_join parent).symm⟩

/-- Joining paths is associative and has the empty path as its unit.  So an error that is moved
outwards along a location bears the path that is built on the way down, in validation, writing
and reading. -/
theorem paths_coincide :
    (∀ first second third : String,
      Path.join (Path.join first second) third = Path.join first (Path.join second third)) ∧
    (∀ path : String, Path.join "" path = path ∧ Path.join path "" = path) ∧
    (∀ (error : ValidationError) (outer inner : String),
      (error.under inner).under outer = error.under (Path.join outer inner)) ∧
    (∀ (error : CoercionError) (outer inner : String),
      (error.under inner).under outer = error.under (Path.join outer inner)) ∧
    (∀ (location : Location) (error : ValidationError),
      location.lift ValidationError.under error = error.under (location.pathFrom "")) ∧
    (∀ (location : Location) (error : CoercionError),
      location.lift CoercionError.under error = error.under (location.pathFrom "")) ∧
    (∀ (schema : Schema) (document : Document),
      Schema.validation.EndsIn ValidationError.under ValidationError.path? schema document
        (schema.validate document)) ∧
    (∀ (schema : Schema) (stage : WriteStage) (document : Document),
      (Schema.writing stage).EndsIn CoercionError.under (fun error => some error.path) schema
        document (schema.write stage document)) ∧
    (∀ (schema : Schema) (document : Document),
      Schema.reading.EndsIn CoercionError.under (fun error => some error.path) schema document
        (schema.read document)) ∧
    ∀ (declarations : Declarations) (schema : Schema) (document : Document) (parent : String),
      Schema.ofDeclarations declarations = .ok schema →
        Descend parent (Schema.missingFields parent schema document)
          (schema.FoundAt document Schema.IsMissing) ∧
        ((Value.map document).isDistinct = true →
          Descend parent (Schema.unexpectedFields parent schema document)
            (schema.FoundAt document Schema.IsUndeclared)) := by
  refine ⟨Path.join_assoc, fun path => ⟨Path.empty_join path, Path.join_empty path⟩,
    fun error outer inner => ValidationError.actsOn.under_under outer inner error,
    fun error outer inner => CoercionError.actsOn.under_under outer inner error,
    ValidationError.actsOn.lift_eq_pathFrom, CoercionError.actsOn.lift_eq_pathFrom,
    Schema.validate_endsIn, Schema.write_endsIn, Schema.read_endsIn, ?_⟩
  intro declarations schema document parent normalized
  have normal := Schema.ofDeclarations_isDeeplyNormal normalized
  exact ⟨(Schema.reports_missingFields schema normal parent document).descend,
    fun distinct => (Schema.reports_unexpectedFields schema normal parent document distinct).descend⟩

/-- Tickets whose names look like parts of paths. -/
def ticketDeclarations : Declarations :=
  [("", {
    type := "object"
    properties := some [("[at", {
      type := "list"
      properties := some [("", { type := "date" }),
        ("[0]", { type := "string", required := true })] })] })]

/-- A ticket with a date that is none, without a required field, and with two fields that are not
declared. -/
def oddTicket : Document :=
  [("", .map [("[at", .list [.null, .map [("", .string "soon"), (".", .null)]])]), ("a.b", .null)]

theorem paths_coincide_of_ticket :
    ∃ schema, Schema.ofDeclarations ticketDeclarations = .ok schema ∧
      (∃ location bare, Schema.validation.FailsAt schema oddTicket location bare ∧
        .field "[at[1]" (.string "soon") "type" = location.lift ValidationError.under bare ∧
        some "[at[1]" = some (location.pathFrom "")) ∧
      (∃ location bare, (Schema.writing .create).FailsAt schema oddTicket location bare ∧
        .typeMismatch "[at[1]" .date "string" = location.lift CoercionError.under bare ∧
        some "[at[1]" = some (location.pathFrom "")) ∧
      (∃ location bare, Schema.reading.FailsAt schema oddTicket location bare ∧
        .invalidDate "[at[1]" "soon" = location.lift CoercionError.under bare ∧
        some "[at[1]" = some (location.pathFrom "")) ∧
      Descend "" ["[at[1][0]"] (schema.FoundAt oddTicket Schema.IsMissing) ∧
      Descend "" ["[at[1]..", "a.b"] (schema.FoundAt oddTicket Schema.IsUndeclared) := by
  have refused : ∃ schema, Schema.ofDeclarations ticketDeclarations = .ok schema ∧
      schema.validate oddTicket = .error (.field "[at[1]" (.string "soon") "type") ∧
      schema.write .create oddTicket = .error (.typeMismatch "[at[1]" .date "string") ∧
      schema.read oddTicket = .error (.invalidDate "[at[1]" "soon") ∧
      Schema.missingFields "" schema oddTicket = ["[at[1][0]"] ∧
      Schema.unexpectedFields "" schema oddTicket = ["[at[1]..", "a.b"] :=
    ⟨_, rfl, rfl, rfl, rfl, rfl, rfl⟩
  obtain ⟨schema, normalized, invalid, unwritten, unread, lacks, strays⟩ := refused
  obtain ⟨-, -, -, -, -, -, validates, writes, reads, descends⟩ := paths_coincide
  obtain ⟨missing, undeclared⟩ :=
    descends ticketDeclarations schema oddTicket "" normalized
  rw [lacks] at missing
  rw [strays] at undeclared
  exact ⟨schema, normalized, (validates schema oddTicket _).mp invalid,
    (writes schema .create oddTicket _).mp unwritten, (reads schema oddTicket _).mp unread,
    missing, undeclared (by decide)⟩

end ItemTable
