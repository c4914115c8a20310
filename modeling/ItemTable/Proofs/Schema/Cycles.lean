import ItemTable.Proofs.Schema.Requirement
import ItemTable.Proofs.Schema.WellFormed
import Mathlib.Logic.Relation

/-!
# Cycles of templates

The template of a composite refers to other properties, which may be composites again;
there are composites at the top level only.  A schema whose levels pass their tests is
refused exactly when these references have a cycle: the variable reported lies on one, and
the composite reported leads there.

References are followed as deep as they go.  `Searches` is this search without any bound,
and a search that it describes has an end.  Since the names on the way are distinct and
declared, the bound by the length of the schema is never met.
-/

namespace ItemTable.Schema

variable {schema : Schema} {chain names : List String} {name start target : String}
variable {property : Property} {template : Template} {outcome : Option String} {fuel : Nat}

/-- The template of a composite has a token for a property. -/
def Refers (schema : Schema) (name other : String) : Prop :=
  ∃ property ∈ schema, property.name = name ∧
    ∃ template, property.composite = some template ∧ other ∈ template.references

/-- The template of the property with a name, if it is a composite. -/
def template? (schema : Schema) (name : String) : Option Template :=
  (schema.get? name).bind fun property => property.composite

theorem template?_eq_some_iff :
    schema.template? name = some template ↔
      ∃ property, schema.get? name = some property ∧ property.composite = some template :=
  Option.bind_eq_some_iff

theorem IsNormal.template?_eq (normal : schema.IsNormal) (member : property ∈ schema) :
    schema.template? property.name = property.composite := by
  rw [template?, normal.get?_eq member, Option.bind_some]

theorem IsNormal.refers_iff (normal : schema.IsNormal) {other : String} :
    schema.Refers name other ↔
      ∃ template, schema.template? name = some template ∧ other ∈ template.references := by
  constructor
  · rintro ⟨property, member, rfl, template, composed, referred⟩
    exact ⟨template, by rw [normal.template?_eq member, composed], referred⟩
  · rintro ⟨template, composed, referred⟩
    obtain ⟨property, found, composed⟩ := template?_eq_some_iff.mp composed
    obtain ⟨member, named⟩ := get?_eq_some found
    exact ⟨property, member, named, template, composed, referred⟩

/-- The search through the names that are left of a template finds a name that stands on
the way to the template, or none. -/
inductive Searches (schema : Schema) : List String → List String → Option String → Prop
  | done (chain : List String) : Searches schema chain [] none
  | closed {chain names : List String} {name : String} (onChain : name ∈ chain) :
      Searches schema chain (name :: names) (some name)
  | plain {chain names : List String} {name : String} {outcome : Option String}
      (new : name ∉ chain) (uncomposed : schema.template? name = none)
      (next : Searches schema chain names outcome) :
      Searches schema chain (name :: names) outcome
  | found {chain names : List String} {name target : String} {template : Template}
      (new : name ∉ chain) (composed : schema.template? name = some template)
      (inside : Searches schema (name :: chain) template.references (some target)) :
      Searches schema chain (name :: names) (some target)
  | passed {chain names : List String} {name : String} {template : Template}
      {outcome : Option String} (new : name ∉ chain)
      (composed : schema.template? name = some template)
      (inside : Searches schema (name :: chain) template.references none)
      (next : Searches schema chain names outcome) :
      Searches schema chain (name :: names) outcome

namespace Searches

theorem unique (searches : schema.Searches chain names outcome) :
    ∀ other, schema.Searches chain names other → other = outcome := by
  induction searches with
  | done chain =>
      rintro other ⟨⟩
      rfl
  | closed onChain =>
      intro other second
      cases second with
      | closed => rfl
      | plain new => exact absurd onChain new
      | found new => exact absurd onChain new
      | passed new => exact absurd onChain new
  | plain new uncomposed _ induction =>
      intro other second
      cases second with
      | closed onChain => exact absurd onChain new
      | plain _ _ next => exact induction other next
      | found _ composed => simp [uncomposed] at composed
      | passed _ composed => simp [uncomposed] at composed
  | found new composed _ induction =>
      intro other second
      cases second with
      | closed onChain => exact absurd onChain new
      | plain _ uncomposed => simp [composed] at uncomposed
      | found _ composedSame inside =>
          cases composed.symm.trans composedSame
          exact induction _ inside
      | passed _ composedSame inside =>
          cases composed.symm.trans composedSame
          cases induction _ inside
  | passed new composed _ _ induction inductionNext =>
      intro other second
      cases second with
      | closed onChain => exact absurd onChain new
      | plain _ uncomposed => simp [composed] at uncomposed
      | found _ composedSame inside =>
          cases composed.symm.trans composedSame
          cases induction _ inside
      | passed _ _ _ next => exact inductionNext other next

/-- A name that is found lies on a cycle, since everything on the chain leads to the
template whose names are searched. -/
theorem cycle (normal : schema.IsNormal) (searches : schema.Searches chain names outcome) :
    ∀ start, (∀ name ∈ names, schema.Refers start name) →
      (∀ earlier ∈ chain, Relation.ReflTransGen schema.Refers earlier start) →
        ∀ target, outcome = some target → Relation.TransGen schema.Refers target target ∧
          Relation.TransGen schema.Refers start target := by
  induction searches with
  | done chain =>
      rintro start referred leads target ⟨⟩
  | closed onChain =>
      rintro start referred leads target ⟨⟩
      have step := referred _ List.mem_cons_self
      exact ⟨.tail' (leads _ onChain) step, .single step⟩
  | plain _ _ _ induction =>
      intro start referred leads
      exact induction start (List.forall_mem_cons.mp referred).2 leads
  | @found chain names name target template _ composed _ induction =>
      intro start referred leads
      have step := referred name List.mem_cons_self
      have leadsInside : ∀ earlier ∈ name :: chain,
          Relation.ReflTransGen schema.Refers earlier name :=
        List.forall_mem_cons.mpr ⟨.refl, fun earlier member => (leads earlier member).tail step⟩
      have referredInside : ∀ other ∈ template.references, schema.Refers name other :=
        fun other member => normal.refers_iff.mpr ⟨template, composed, member⟩
      intro target same
      obtain ⟨around, reached⟩ := induction name referredInside leadsInside target same
      exact ⟨around, .head step reached⟩
  | passed _ _ _ _ _ inductionNext =>
      intro start referred leads
      exact inductionNext start (List.forall_mem_cons.mp referred).2 leads

/-- If none is found, no name leads back to the chain. -/
theorem acyclic (normal : schema.IsNormal) (searches : schema.Searches chain names outcome) :
    outcome = none → ∀ name ∈ names, ∀ target,
      Relation.ReflTransGen schema.Refers name target → target ∉ chain := by
  induction searches with
  | done chain => simp
  | closed onChain => rintro ⟨⟩
  | @plain chain names name outcome new uncomposed _ induction =>
      intro unfound
      refine List.forall_mem_cons.mpr ⟨?_, induction unfound⟩
      intro target leads
      rcases leads.cases_head with rfl | ⟨next, step, -⟩
      · exact new
      · obtain ⟨template, composed, -⟩ := normal.refers_iff.mp step
        simp [uncomposed] at composed
  | found => rintro ⟨⟩
  | @passed chain names name template outcome new composed _ _ induction inductionNext =>
      intro unfound
      refine List.forall_mem_cons.mpr ⟨?_, inductionNext unfound⟩
      intro target leads
      rcases leads.cases_head with rfl | ⟨next, step, leads⟩
      · exact new
      · obtain ⟨same, composedSame, referred⟩ := normal.refers_iff.mp step
        cases composed.symm.trans composedSame
        exact fun onChain =>
          induction rfl next referred target leads (List.mem_cons_of_mem name onChain)

end Searches

/-- The search ends before its bound, as long as the names on the way are distinct. -/
theorem searches_cycleVariable? (fits : schema.Fits fuel chain) (template : Template) :
    schema.Searches chain template.references (schema.cycleVariable? fuel chain template) := by
  induction fuel generalizing chain template with
  | zero => exact absurd fits.positive (Nat.lt_irrefl 0)
  | succ fuel induction =>
      rw [cycleVariable?]
      induction template.references with
      | nil => exact .done chain
      | cons name names next =>
          rw [List.findSome?_cons]
          by_cases onChain : name ∈ chain
          · rw [if_pos (by simpa using onChain)]
            exact .closed onChain
          · rw [if_neg (by simpa using onChain)]
            cases composed : (schema.get? name).bind fun property => property.composite with
            | none => exact .plain onChain composed next
            | some inner =>
                obtain ⟨property, found, -⟩ := template?_eq_some_iff.mp composed
                have inside := induction (fits.cons found onChain) inner
                dsimp only
                cases traced : schema.cycleVariable? fuel (name :: chain) inner with
                | none =>
                    rw [traced] at inside
                    exact .passed onChain composed inside next
                | some target =>
                    rw [traced] at inside
                    exact .found onChain composed inside

theorem cycleFrom?_eq (composed : property.composite = some template) :
    schema.cycleFrom? property =
      (schema.cycleVariable? (schema.length + 1) [property.name] template).map fun name =>
        ⟨property.name, .compositeCycle name⟩ := by
  rw [cycleFrom?, composed]
  cases traced : schema.cycleVariable? (schema.length + 1) [property.name] template <;>
    simp [traced]

/-- The searches from the composites among properties, up to the first that finds a name. -/
inductive ChecksCycles (schema : Schema) : List Property → Option SchemaError → Prop
  | done : ChecksCycles schema [] none
  | plain {property : Property} {properties : List Property} {outcome : Option SchemaError}
      (uncomposed : property.composite = none)
      (next : ChecksCycles schema properties outcome) :
      ChecksCycles schema (property :: properties) outcome
  | found {property : Property} {properties : List Property} {template : Template}
      {name : String} (composed : property.composite = some template)
      (searches : schema.Searches [property.name] template.references (some name)) :
      ChecksCycles schema (property :: properties) (some ⟨property.name, .compositeCycle name⟩)
  | passed {property : Property} {properties : List Property} {template : Template}
      {outcome : Option SchemaError} (composed : property.composite = some template)
      (searches : schema.Searches [property.name] template.references none)
      (next : ChecksCycles schema properties outcome) :
      ChecksCycles schema (property :: properties) outcome

namespace ChecksCycles

variable {properties : List Property} {result : Option SchemaError}

theorem unique (checks : schema.ChecksCycles properties result) :
    ∀ other, schema.ChecksCycles properties other → other = result := by
  induction checks with
  | done =>
      rintro other ⟨⟩
      rfl
  | plain uncomposed _ induction =>
      intro other second
      cases second with
      | plain _ next => exact induction other next
      | found composed => simp [uncomposed] at composed
      | passed composed => simp [uncomposed] at composed
  | found composed searches =>
      intro other second
      cases second with
      | plain uncomposed => simp [composed] at uncomposed
      | found composedSame searchesSame =>
          cases composed.symm.trans composedSame
          cases searches.unique _ searchesSame
          rfl
      | passed composedSame searchesSame =>
          cases composed.symm.trans composedSame
          cases searches.unique _ searchesSame
  | passed composed searches _ induction =>
      intro other second
      cases second with
      | plain uncomposed => simp [composed] at uncomposed
      | found composedSame searchesSame =>
          cases composed.symm.trans composedSame
          cases searches.unique _ searchesSame
      | passed _ _ next => exact induction other next

theorem cycle (normal : schema.IsNormal) (checks : schema.ChecksCycles properties result) :
    properties ⊆ schema → ∀ error, result = some error → ∃ property ∈ schema,
      property.composite.isSome = true ∧ ∃ name, error = ⟨property.name, .compositeCycle name⟩ ∧
        Relation.TransGen schema.Refers name name ∧
        Relation.TransGen schema.Refers property.name name := by
  induction checks with
  | done => rintro - error ⟨⟩
  | plain _ _ induction => exact fun listed => induction (List.cons_subset.mp listed).2
  | passed _ _ _ induction => exact fun listed => induction (List.cons_subset.mp listed).2
  | @found property properties template name composed searches =>
      rintro listed error ⟨⟩
      have member := (List.cons_subset.mp listed).1
      obtain ⟨around, reached⟩ := searches.cycle normal property.name
        (fun other referred => ⟨property, member, rfl, template, composed, referred⟩)
        (List.forall_mem_singleton.mpr .refl) name rfl
      exact ⟨property, member, by rw [composed]; rfl, name, rfl, around, reached⟩

theorem acyclic (normal : schema.IsNormal) (checks : schema.ChecksCycles properties result) :
    properties ⊆ schema → result = none → ∀ property ∈ properties,
      ¬ Relation.TransGen schema.Refers property.name property.name := by
  induction checks with
  | done => simp
  | found => rintro - ⟨⟩
  | @plain property properties outcome uncomposed _ induction =>
      intro listed unfound
      obtain ⟨member, rest⟩ := List.cons_subset.mp listed
      refine List.forall_mem_cons.mpr ⟨?_, induction rest unfound⟩
      intro around
      obtain ⟨next, step, -⟩ := Relation.TransGen.head'_iff.mp around
      obtain ⟨template, composed, -⟩ := normal.refers_iff.mp step
      simp [normal.template?_eq member, uncomposed] at composed
  | @passed property properties template outcome composed searches _ induction =>
      intro listed unfound
      obtain ⟨member, rest⟩ := List.cons_subset.mp listed
      refine List.forall_mem_cons.mpr ⟨?_, induction rest unfound⟩
      intro around
      obtain ⟨next, step, leads⟩ := Relation.TransGen.head'_iff.mp around
      obtain ⟨same, composedSame, referred⟩ := normal.refers_iff.mp step
      rw [normal.template?_eq member] at composedSame
      cases composed.symm.trans composedSame
      exact searches.acyclic normal rfl next referred _ leads List.mem_cons_self

end ChecksCycles

theorem checksCycles_findSome? (normal : schema.IsNormal) {properties : List Property}
    (listed : properties ⊆ schema) :
    schema.ChecksCycles properties (properties.findSome? schema.cycleFrom?) := by
  induction properties with
  | nil => exact .done
  | cons property properties induction =>
      obtain ⟨member, rest⟩ := List.cons_subset.mp listed
      have next := induction rest
      rw [List.findSome?_cons]
      cases composed : property.composite with
      | none =>
          have untraced : schema.cycleFrom? property = none := by rw [cycleFrom?, composed]; rfl
          rw [untraced]
          exact .plain composed next
      | some template =>
          have searches := searches_cycleVariable? (fits_singleton (normal.get?_eq member)) template
          rw [cycleFrom?_eq composed]
          cases traced : schema.cycleVariable? (schema.length + 1) [property.name] template with
          | none =>
              rw [traced] at searches
              exact .passed composed searches next
          | some name =>
              rw [traced] at searches
              exact .found composed searches

section Declarations

variable {declarations : Declarations}

theorem isNormal_of_ofLevel (levelled : ofLevel declarations = .ok schema) : schema.IsNormal :=
  Declaration.normalizeAll_isNormal (Declaration.normalizeLevel_eq_ok_iff.mp levelled).1

theorem ofDeclarations_of_ofLevel (levelled : ofLevel declarations = .ok schema) :
    ofDeclarations declarations =
      (schema.findSome? schema.cycleFrom?).elim (.ok schema) .error := by
  rw [ofDeclarations, levelled]
  cases traced : schema.findSome? schema.cycleFrom? with
  | none =>
      simp only [bind, Except.bind, traced]
      rfl
  | some error =>
      simp only [bind, Except.bind, traced]
      rfl

/-- On a schema whose levels pass their tests, the search for cycles ends with one outcome.
The schema is refused exactly when references have a cycle; the variable reported then lies
on one, and the composite reported leads there. -/
theorem ofDeclarations_finds_cycles (levelled : ofLevel declarations = .ok schema) :
    (∃ outcome, (∀ other, schema.ChecksCycles schema other ↔ other = outcome) ∧
      ofDeclarations declarations = outcome.elim (.ok schema) .error) ∧
    ((∃ path name, ofDeclarations declarations = .error ⟨path, .compositeCycle name⟩) ↔
      ∃ name, Relation.TransGen schema.Refers name name) ∧
    ∀ path name, ofDeclarations declarations = .error ⟨path, .compositeCycle name⟩ →
      Relation.TransGen schema.Refers name name ∧
      (∃ property ∈ schema, property.name = path ∧ property.composite.isSome = true) ∧
      Relation.TransGen schema.Refers path name := by
  have normal := isNormal_of_ofLevel levelled
  have checks := checksCycles_findSome? normal (List.Subset.refl schema)
  have decided := ofDeclarations_of_ofLevel levelled
  generalize schema.findSome? schema.cycleFrom? = outcome at checks decided
  have reported : ∀ path name, ofDeclarations declarations = .error ⟨path, .compositeCycle name⟩ →
      Relation.TransGen schema.Refers name name ∧
      (∃ property ∈ schema, property.name = path ∧ property.composite.isSome = true) ∧
      Relation.TransGen schema.Refers path name := by
    intro path name refused
    rw [decided] at refused
    cases outcome with
    | none => cases refused
    | some error =>
        cases refused
        obtain ⟨property, member, composed, other, same, around, reached⟩ :=
          checks.cycle normal (List.Subset.refl schema) _ rfl
        cases same
        exact ⟨around, ⟨property, member, rfl, composed⟩, reached⟩
  refine ⟨⟨outcome, ?_, decided⟩, ?_, reported⟩
  · intro other
    constructor
    · exact checks.unique other
    · rintro rfl
      exact checks
  · constructor
    · rintro ⟨path, name, refused⟩
      exact ⟨name, (reported path name refused).1⟩
    · rintro ⟨name, around⟩
      obtain ⟨next, ⟨property, member, rfl, -⟩, -⟩ := Relation.TransGen.head'_iff.mp around
      cases outcome with
      | none =>
          exact absurd around
            (checks.acyclic normal (List.Subset.refl schema) rfl property member)
      | some error =>
          obtain ⟨origin, -, -, target, rfl, -⟩ :=
            checks.cycle normal (List.Subset.refl schema) error rfl
          exact ⟨origin.name, target, decided⟩

/-- The title of a book leads to two composites that refer to each other. -/
def loopDeclarations : Declarations :=
  [("id", { type := "string", required := true }),
    ("title", { type := "string", composite := some "{id}: {series}" }),
    ("series", { type := "string", composite := some "{id} of {volume}" }),
    ("volume", { type := "string", composite := some "{series}" })]

theorem ofDeclarations_finds_cycles_of_loop :
    ∃ schema, ofLevel loopDeclarations = .ok schema ∧
      ofDeclarations loopDeclarations = .error ⟨"title", .compositeCycle "series"⟩ ∧
      (∃ outcome, ∀ other, schema.ChecksCycles schema other ↔ other = outcome) ∧
      Relation.TransGen schema.Refers "series" "series" ∧
      Relation.TransGen schema.Refers "title" "series" := by
  have levelled : ofLevel loopDeclarations = .ok _ := rfl
  obtain ⟨⟨outcome, ends, -⟩, -, reported⟩ := ofDeclarations_finds_cycles levelled
  obtain ⟨around, -, reached⟩ := reported "title" "series" rfl
  exact ⟨_, rfl, rfl, ⟨outcome, ends⟩, around, reached⟩

end Declarations

end ItemTable.Schema
