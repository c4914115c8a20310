import ItemTable.Coercion.Error
import ItemTable.Proofs.Location
import ItemTable.Validation.Error

/-!
# Paths of errors

An error arises without a path and is moved outwards, step by step.  Moving it by one path and
then by another is moving it by the joined path, so in the end it bears the path that is built
on the way down to where it arose.
-/

namespace ItemTable

/-- Paths act on errors, and on the path that an error bears. -/
structure Path.ActsOn {ε : Type} (under : String → ε → ε) (path? : ε → Option String) : Prop where
  under_empty : ∀ error, under "" error = error
  under_under : ∀ outer inner error,
    under outer (under inner error) = under (join outer inner) error
  path?_under : ∀ parent error, path? (under parent error) = (path? error).map (join parent)

namespace Path.ActsOn

variable {ε : Type} {under : String → ε → ε} {path? : ε → Option String}

theorem lift_eq (acts : ActsOn under path?) (location : Location) (error : ε) :
    location.lift under error = under location.path error := by
  induction location with
  | nil => exact (acts.under_empty error).symm
  | cons step rest induction =>
      have stepOut : Location.lift under (step :: rest) error =
          under step.segment (Location.lift under rest error) := rfl
      rw [stepOut, induction, acts.under_under, Location.path]

/-- What is put together on the way out is the path built on the way down. -/
theorem lift_eq_pathFrom (acts : ActsOn under path?) (location : Location) (error : ε) :
    location.lift under error = under (location.pathFrom "") error := by
  rw [acts.lift_eq, Location.pathFrom_eq_join, empty_join]

theorem path?_lift (acts : ActsOn under path?) {location : Location} {error : ε}
    (bare : path? error = some "") :
    path? (location.lift under error) = some (location.pathFrom "") := by
  rw [acts.lift_eq_pathFrom, acts.path?_under, bare, Option.map_some, join_empty]

end Path.ActsOn

namespace ValidationError

/-- The path of an error about one field. -/
def path? : ValidationError → Option String
  | field path _ _ => some path
  | validator path _ _ => some path
  | unknownValidator path _ => some path
  | missingRequired _ => none
  | unexpectedFields _ => none

theorem actsOn : Path.ActsOn under path? := by
  constructor
  · intro error
    have same : Path.join "" = id := funext Path.empty_join
    cases error <;> simp [under, same]
  · intro outer inner error
    have joined : Path.join outer ∘ Path.join inner = Path.join (Path.join outer inner) :=
      funext fun path => (Path.join_assoc outer inner path).symm
    cases error <;> simp [under, Path.join_assoc, joined]
  · intro parent error
    cases error <;> rfl

end ValidationError

namespace CoercionError

theorem actsOn : Path.ActsOn under fun error => some error.path := by
  constructor
  · intro error
    cases error <;> simp only [under, Path.empty_join]
  · intro outer inner error
    cases error <;> simp only [under, Path.join_assoc]
  · intro parent error
    cases error <;> rfl

end CoercionError

end ItemTable
