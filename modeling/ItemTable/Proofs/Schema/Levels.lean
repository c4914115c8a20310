import ItemTable.Proofs.Outcome
import ItemTable.Schema.Normalize
import Mathlib.Data.List.Forall2

/-!
# Levels of declarations

What normalization does to a declaration, to the declarations inside it and to those of one
level, each as an equation or an equivalence.  All that is said of normalized schemas follows
from these.
-/

namespace ItemTable.Declaration

variable {name path parent : String} {top : Bool} {seen : List String} {type : AttributeType}
variable {property : Property} {declarations : Declarations} {properties : List Property}

/-- The properties of a level, with all tests of the level. -/
def normalizeLevel (parent : String) (top : Bool) (declarations : Declarations) :
    Except SchemaError (List Property) := do
  let properties ← normalizeAll parent top [] declarations
  testVariables parent properties properties
  return properties

theorem normalizeLevel_eq_ok_iff :
    normalizeLevel parent top declarations = .ok properties ↔
      normalizeAll parent top [] declarations = .ok properties ∧
        testVariables parent properties properties = .ok () := by
  simp only [normalizeLevel, bind_eq_ok_iff]
  constructor
  · rintro ⟨properties, normalized, ⟨⟩, tested, ⟨⟩⟩
    exact ⟨normalized, tested⟩
  · rintro ⟨normalized, tested⟩
    exact ⟨properties, normalized, (), tested, rfl⟩

/-- The path under which the level inside a property is reported. -/
def insidePath (path : String) (type : AttributeType) : String :=
  if type = .list then path ++ "[]" else path

theorem normalizeInside_some :
    normalizeInside path type (some declarations) =
      if type.isScalar then .error ⟨path, .nestedOnScalar type⟩
      else (normalizeLevel (insidePath path type) false declarations).map some := by
  rw [normalizeInside, normalizeLevel, insidePath]
  split
  · rfl
  · dsimp only
    cases normalizeAll _ false [] declarations with
    | error _ => rfl
    | ok properties =>
        simp only [bind, Except.bind]
        cases testVariables _ properties properties <;> rfl

theorem normalize_eq (declaration : Declaration) :
    normalize name path top declaration =
      match AttributeType.ofSpelling? declaration.type with
      | none => .error ⟨path, .unknownType declaration.type⟩
      | some type => do
          let properties ← normalizeInside path type declaration.properties
          let traits ← normalTraits name path top type declaration.toDeclaredTraits
          return { toPropertyTraits := traits, properties } := by
  obtain ⟨traits, nested⟩ := declaration
  exact normalize.eq_1 name path top traits nested

theorem normalize_eq_ok_iff {declaration : Declaration} :
    normalize name path top declaration = .ok property ↔
      ∃ type, AttributeType.ofSpelling? declaration.type = some type ∧
        normalizeInside path type declaration.properties = .ok property.properties ∧
        normalTraits name path top type declaration.toDeclaredTraits =
          .ok property.toPropertyTraits := by
  rw [normalize_eq]
  cases resolved : AttributeType.ofSpelling? declaration.type with
  | none => simp
  | some type =>
      simp only [bind_eq_ok_iff, Option.some.injEq, exists_eq_left']
      constructor
      · rintro ⟨properties, inside, normal, normalized, ⟨⟩⟩
        exact ⟨inside, normalized⟩
      · rintro ⟨inside, normalized⟩
        obtain ⟨normal, properties⟩ := property
        exact ⟨properties, inside, normal, normalized, rfl⟩

/-- A level is normalized one declaration after another; names are new and without points. -/
theorem normalizeAll_eq_ok_iff :
    normalizeAll parent top seen declarations = .ok properties ↔
      List.Forall₂ (fun entry property =>
        normalize entry.1 (Path.join parent entry.1) top entry.2 = .ok property)
        declarations properties ∧
      (∀ name ∈ Entries.names declarations, '.' ∉ name.toList ∧ name ∉ seen) ∧
      (Entries.names declarations).Nodup := by
  induction declarations generalizing seen properties with
  | nil =>
      rw [normalizeAll, List.forall₂_nil_left_iff, Except.ok.injEq]
      simp [Entries.names, eq_comm]
  | cons entry declarations induction =>
      obtain ⟨name, declaration⟩ := entry
      rw [Entries.names, List.map_cons, List.forall_mem_cons, List.nodup_cons]
      simp only [normalizeAll]
      split
      · next dotted =>
          refine iff_of_false (by simp) ?_
          rintro ⟨-, ⟨⟨undotted, -⟩, -⟩, -⟩
          exact undotted (by simpa using dotted)
      · next undotted =>
          split
          · next repeated =>
              refine iff_of_false (by simp) ?_
              rintro ⟨-, ⟨⟨-, new⟩, -⟩, -⟩
              exact new (by simpa using repeated)
          · next new =>
              simp only [bind_eq_ok_iff, induction, List.forall₂_cons_left_iff]
              constructor
              · rintro ⟨property, first, rest, ⟨each, fresh, distinct⟩, ⟨⟩⟩
                refine ⟨⟨property, rest, first, each, rfl⟩, ⟨⟨by simpa using undotted,
                  by simpa using new⟩, ?_⟩, ?_, distinct⟩
                · intro other member
                  exact ⟨(fresh other member).1,
                    fun before => (fresh other member).2 (List.mem_cons_of_mem _ before)⟩
                · intro later
                  exact (fresh name later).2 List.mem_cons_self
              · rintro ⟨⟨property, rest, first, each, rfl⟩, ⟨-, fresh⟩, unlisted, distinct⟩
                refine ⟨property, first, rest, ⟨each, ?_, distinct⟩, rfl⟩
                intro other member
                refine ⟨(fresh other member).1, ?_⟩
                intro before
                rcases List.mem_cons.mp before with rfl | before
                · exact unlisted member
                · exact (fresh other member).2 before

/-- Every property of a normalized level is the property of a declaration. -/
theorem exists_declaration_of_mem
    (normalized : normalizeAll parent top seen declarations = .ok properties)
    (member : property ∈ properties) :
    ∃ entry ∈ declarations,
      normalize entry.1 (Path.join parent entry.1) top entry.2 = .ok property := by
  obtain ⟨each, -⟩ := normalizeAll_eq_ok_iff.mp normalized
  clear normalized
  induction each with
  | nil => cases member
  | cons first _ induction =>
      rcases List.mem_cons.mp member with rfl | later
      · exact ⟨_, List.mem_cons_self, first⟩
      · obtain ⟨entry, listed, normalized⟩ := induction later
        exact ⟨entry, List.mem_cons_of_mem _ listed, normalized⟩

end ItemTable.Declaration
