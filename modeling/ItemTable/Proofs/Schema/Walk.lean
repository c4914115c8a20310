import ItemTable.Proofs.ErrorPath
import ItemTable.Proofs.Outcome
import ItemTable.Proofs.Schema.Nested

/-!
# Walks through documents

Validation, reading and writing walk through a document and the documents inside it, and stop at
the first failure.  `Walk` describes what they do in one document: where errors arise, and which
documents inside are walked through.  `FailsAt` says at which location a whole walk fails.

An error leaves every level on the way out under the name of its field and, in a list, under the
position of its element.  So the error of a walk is the one that arose, moved along its location.
-/

namespace ItemTable.Schema

/-- What a walk does in one document with its schema: under which names it comes to errors, and
to which documents inside, each with its location in the field and the schema that applies. -/
structure Walk (ε : Type) where
  raises : Schema → Document → String → ε → Prop
  enters : Schema → Document → String → Schema → Location → Document → Prop

namespace Walk

variable {ε α β : Type} {under : String → ε → ε} {path? : ε → Option String} {walk : Walk ε}
variable {schema nested : Schema} {document fields : Document} {name : String} {value : Value}
variable {location : Location} {error : ε}

/-- The location at which a walk fails, and the error that arises there. -/
inductive FailsAt (walk : Walk ε) : Schema → Document → Location → ε → Prop
  | here {schema : Schema} {document : Document} {name : String} {error : ε}
      (raises : walk.raises schema document name error) :
      FailsAt walk schema document [.field name] error
  | inside {schema nested : Schema} {document fields : Document} {name : String}
      {start rest : Location} {error : ε}
      (enters : walk.enters schema document name nested start fields)
      (fails : FailsAt walk nested fields rest error) :
      FailsAt walk schema document (.field name :: (start ++ rest)) error

theorem FailsAt.exists_raises (fails : walk.FailsAt schema document location error) :
    ∃ inner fields name, walk.raises inner fields name error := by
  induction fails with
  | here raises => exact ⟨_, _, _, raises⟩
  | inside _ _ raised => exact raised

/-- How one level of a function fails: by an error that arises there, or by the error of a
document inside.  Either is moved under the name of the field. -/
inductive StopsWith (walk : Walk ε) (under : String → ε → ε)
    (run : Schema → Document → Except ε α) (schema : Schema) (document : Document) : ε → Prop
  | raised {name : String} {error : ε} (raises : walk.raises schema document name error) :
      StopsWith walk under run schema document (under name error)
  | inside {nested : Schema} {fields : Document} {name : String} {start : Location} {error : ε}
      (enters : walk.enters schema document name nested start fields)
      (failed : run nested fields = .error error) :
      StopsWith walk under run schema document (under name (under start.path error))

/-- A function on documents that makes a walk, level by level. -/
structure Makes (walk : Walk ε) (under : String → ε → ε)
    (run : Schema → Document → Except ε α) : Prop where
  eq_error_iff : ∀ {schema : Schema} {document : Document} {error : ε},
    run schema document = .error error ↔ walk.StopsWith under run schema document error
  carries : ∀ {schema nested : Schema} {document fields : Document} {name : String}
    {start : Location}, walk.enters schema document name nested start fields →
      ∃ property ∈ schema, property.properties = some nested

section Makes

variable {run : Schema → Document → Except ε α}

theorem lift_inside (acts : Path.ActsOn under path?) (start rest : Location) :
    Location.lift under (.field name :: (start ++ rest)) error =
      under name (under start.path (rest.lift under error)) := by
  rw [← acts.lift_eq start, ← Location.lift_append]
  rfl

theorem Makes.exists_failsAt (makes : walk.Makes under run) (acts : Path.ActsOn under path?) :
    ∀ {document error}, run schema document = .error error →
      ∃ location bare, walk.FailsAt schema document location bare ∧
        error = location.lift under bare := by
  induction schema using Schema.induction with
  | step schema induction =>
      intro document error failed
      cases makes.eq_error_iff.mp failed with
      | raised raises => exact ⟨_, _, .here raises, rfl⟩
      | inside enters failedInside =>
          obtain ⟨property, member, carries⟩ := makes.carries enters
          obtain ⟨rest, bare, fails, rfl⟩ := induction property member _ carries failedInside
          exact ⟨_, bare, .inside enters fails, (lift_inside acts _ rest).symm⟩

theorem FailsAt.run_eq_error (fails : walk.FailsAt schema document location error)
    (makes : walk.Makes under run) (acts : Path.ActsOn under path?) :
    run schema document = .error (location.lift under error) := by
  induction fails with
  | here raises => exact makes.eq_error_iff.mpr (.raised raises)
  | inside enters fails failed =>
      rw [lift_inside acts]
      exact makes.eq_error_iff.mpr (.inside enters failed)

/-- An outcome that fails exactly when a walk does, and with its error.  This error is moved
outwards along the location where it arose, and bears the path that is built on the way down
to there. -/
def EndsIn (walk : Walk ε) (under : String → ε → ε) (path? : ε → Option String)
    (schema : Schema) (document : Document) (outcome : Except ε α) : Prop :=
  ∀ error, outcome = .error error ↔
    ∃ location bare, walk.FailsAt schema document location bare ∧
      error = location.lift under bare ∧ path? error = some (location.pathFrom "")

theorem Makes.endsIn (makes : walk.Makes under run) (acts : Path.ActsOn under path?)
    (bare : ∀ {schema document name error}, walk.raises schema document name error →
      path? error = some "") (schema : Schema) (document : Document) :
    walk.EndsIn under path? schema document (run schema document) := by
  intro error
  constructor
  · intro failed
    obtain ⟨location, arisen, fails, rfl⟩ := makes.exists_failsAt acts failed
    obtain ⟨_, _, _, raises⟩ := fails.exists_raises
    exact ⟨location, arisen, fails, rfl, acts.path?_lift (bare raises)⟩
  · rintro ⟨location, arisen, fails, rfl, -⟩
    exact fails.run_eq_error makes acts

end Makes

/-- A walk of fields in order comes to a field when it gets through those before it. -/
def ComesTo (run : Document → Except ε α) (document : Document) (name : String) (value : Value) :
    Prop :=
  ∃ before after result, document = before ++ (name, value) :: after ∧ run before = .ok result

theorem eq_error_iff_comesTo {run : Document → Except ε α} {field : String → Value → Except ε β}
    (runs : ∀ document, verdict (run document) =
      document.forM fun entry => verdict (field entry.1 entry.2)) :
    run document = .error error ↔
      ∃ name value, ComesTo run document name value ∧ field name value = .error error := by
  have passes_iff : ∀ before : Document, (∃ result, run before = .ok result) ↔
      ∀ entry ∈ before, verdict (field entry.1 entry.2) = .ok () := by
    intro before
    rw [← verdict_eq_ok_iff, runs, forM_eq_ok_iff]
  rw [← verdict_eq_error_iff, runs, forM_eq_error_iff]
  constructor
  · rintro ⟨before, ⟨name, value⟩, after, split, passed, failed⟩
    obtain ⟨result, ran⟩ := (passes_iff before).mpr passed
    exact ⟨name, value, ⟨before, after, result, split, ran⟩, verdict_eq_error_iff.mp failed⟩
  · rintro ⟨name, value, ⟨before, after, result, split, ran⟩, failed⟩
    exact ⟨before, (name, value), after, split, (passes_iff before).mp ⟨result, ran⟩,
      verdict_eq_error_iff.mpr failed⟩

/-- A walk comes to a document inside a value when it gets through those before it. -/
def ComesInside (run : Document → Except ε α) (value : Value) (start : Location)
    (fields : Document) : Prop :=
  ∃ earlier later, value.documents = earlier ++ (start, fields) :: later ∧
    ∀ held ∈ earlier, ∃ result, run held.2 = .ok result

theorem ComesInside.isNull_eq_false {run : Document → Except ε α} {start : Location}
    (comes : ComesInside run value start fields) : value.isNull = false := by
  obtain ⟨earlier, later, split, -⟩ := comes
  cases value with
  | null => simp [Value.documents] at split
  | _ => rfl

/-- The error of the first document inside a value that fails, seen from the value. -/
inductive FailsInside (under : String → ε → ε) (run : Schema → Document → Except ε α)
    (properties : Option Schema) (value : Value) : ε → Prop
  | intro {nested : Schema} {start : Location} {fields : Document} {error : ε}
      (carries : properties = some nested) (comes : ComesInside (run nested) value start fields)
      (failed : run nested fields = .error error) :
      FailsInside under run properties value (under start.path error)

theorem FailsInside.isNull_eq_false {run : Schema → Document → Except ε α}
    {properties : Option Schema} (fails : FailsInside under run properties value error) :
    value.isNull = false := by
  cases fails with
  | intro _ comes _ => exact comes.isNull_eq_false

theorem not_failsInside_none {run : Schema → Document → Except ε α} :
    ¬ FailsInside under run none value error := by
  rintro ⟨⟨⟩⟩

theorem eq_error_iff_failsInside {run : Schema → Document → Except ε α} {outcome : Except ε β}
    (runs : verdict outcome = value.documents.forM fun held =>
      (verdict (run nested held.2)).mapError (under held.1.path)) :
    outcome = .error error ↔ FailsInside under run (some nested) value error := by
  rw [← verdict_eq_error_iff, runs]
  simp only [forM_eq_error_iff, mapError_eq_ok_iff, mapError_eq_error_iff, verdict_eq_ok_iff,
    verdict_eq_error_iff]
  constructor
  · rintro ⟨earlier, ⟨start, fields⟩, later, split, passed, inner, failed, rfl⟩
    exact .intro rfl ⟨earlier, later, split, passed⟩ failed
  · rintro ⟨⟨⟩, ⟨earlier, later, split, passed⟩, failed⟩
    exact ⟨earlier, _, later, split, passed, _, failed, rfl⟩

/-- A walk that comes to the declared fields of a document in order.  Of a field it is said with
which errors it fails by itself, and whether the documents inside are walked through. -/
def ofFields (run : Schema → Document → Except ε α) (raises : Property → Value → ε → Prop)
    (enters : Property → Value → Prop) : Walk ε where
  raises schema document name error :=
    ∃ property value, ComesTo (run schema) document name value ∧
      schema.get? name = some property ∧ raises property value error
  enters schema document name nested start fields :=
    ∃ property value, ComesTo (run schema) document name value ∧
      schema.get? name = some property ∧ enters property value ∧
      property.properties = some nested ∧ ComesInside (run nested) value start fields

theorem ofFields_makes {run : Schema → Document → Except ε α}
    {field : Schema → String → Value → Except ε β} {raises : Property → Value → ε → Prop}
    {enters : Property → Value → Prop}
    (runs : ∀ schema document, verdict (run schema document) =
      document.forM fun entry => verdict (field schema entry.1 entry.2))
    (undeclared : ∀ {schema : Schema} {name value error}, schema.get? name = none →
      field schema name value ≠ .error error)
    (declared : ∀ {schema : Schema} {name value property error}, schema.get? name = some property →
      (field schema name value = .error error ↔ ∃ inner, error = under name inner ∧
        (raises property value inner ∨
          enters property value ∧ FailsInside under run property.properties value inner))) :
    (ofFields run raises enters).Makes under run where
  eq_error_iff := by
    intro schema document error
    rw [eq_error_iff_comesTo (runs schema)]
    constructor
    · rintro ⟨name, value, comes, failed⟩
      cases found : schema.get? name with
      | none => exact absurd failed (undeclared found)
      | some property =>
          obtain ⟨inner, rfl, raised | ⟨entered, carries, comesInside, there⟩⟩ :=
            (declared found).mp failed
          · exact .raised ⟨property, value, comes, found, raised⟩
          · exact .inside ⟨property, value, comes, found, entered, carries, comesInside⟩ there
    · rintro (⟨property, value, comes, found, raised⟩ |
        ⟨⟨property, value, comes, found, entered, carries, comesInside⟩, there⟩)
      · exact ⟨_, value, comes, (declared found).mpr ⟨_, rfl, Or.inl raised⟩⟩
      · exact ⟨_, value, comes, (declared found).mpr
          ⟨_, rfl, Or.inr ⟨entered, .intro carries comesInside there⟩⟩⟩
  carries := by
    rintro schema nested document fields name start ⟨property, value, -, found, -, carries, -⟩
    exact ⟨property, (get?_eq_some found).1, carries⟩

end Walk

end ItemTable.Schema
