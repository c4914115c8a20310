import ItemTable.Proofs.Schema.Normal
import ItemTable.Proofs.Template
import ItemTable.Schema.Key
import Mathlib.Data.List.Nodup
import Mathlib.Data.List.Perm.Subperm

/-!
# Required variables of keys

A property is required if it is declared so, or if it is a composite and all its variables
are required.  The search that tests the variables of a key finds every one that is not,
and reports no other, provided that it meets no composite twice.

The search notes every composite that it follows.  So it never goes deeper than the schema
is long, and a composite that is met again is taken for one that is not required.
-/

namespace ItemTable.Schema

variable {schema : Schema} {name target variableName : String} {template : Template}
variable {steps more seen : List String} {fuel : Nat}

/-- A property that is declared required, or a composite whose variables are all required. -/
inductive IsRequired (schema : Schema) : String → Prop
  | declared {name : String} {property : Property} (found : schema.get? name = some property)
      (required : property.required = true) : IsRequired schema name
  | composite {name : String} {property : Property} {template : Template}
      (found : schema.get? name = some property)
      (composed : property.composite = some template)
      (each : ∀ variableName ∈ template.references, IsRequired schema variableName) :
      IsRequired schema name

/-- A composite that is not declared required has a template that the search follows. -/
def Opens (schema : Schema) (name : String) (template : Template) : Prop :=
  ∃ property, schema.get? name = some property ∧ property.required = false ∧
    property.composite = some template

/-- The search comes from a name to another by way of the given variables. -/
inductive Leads (schema : Schema) : String → List String → String → Prop
  | here (name : String) : Leads schema name [] name
  | step {name variableName target : String} {template : Template} {steps : List String}
      (opens : schema.Opens name template) (referred : variableName ∈ template.references)
      (leads : Leads schema variableName steps target) :
      Leads schema name (variableName :: steps) target

/-- The search from a name comes to a composite that it follows. -/
def Meets (schema : Schema) (name target : String) : Prop :=
  (∃ template, schema.Opens target template) ∧ ∃ steps, schema.Leads name steps target

/-- Every composite that the search from a name follows is met along one path only. -/
def IsUnshared (schema : Schema) (name : String) : Prop :=
  ∀ target template, schema.Opens target template → ∀ steps other,
    schema.Leads name steps target → schema.Leads name other target → steps = other

theorem Opens.of_found (opens : schema.Opens name template) {property : Property}
    (found : schema.get? name = some property) :
    property.required = false ∧ property.composite = some template := by
  obtain ⟨same, foundSame, rest⟩ := opens
  rw [found, Option.some.injEq] at foundSame
  exact foundSame ▸ rest

theorem Leads.append {middle : String} (first : schema.Leads name steps middle)
    (second : schema.Leads middle more target) : schema.Leads name (steps ++ more) target := by
  induction first with
  | here => exact second
  | step opens referred _ induction => exact .step opens referred (induction second)

/-- The templates behind a required name do not lead back to it. -/
theorem IsRequired.acyclic (required : schema.IsRequired name) :
    ∀ steps, schema.Leads name steps name → steps = [] := by
  induction required with
  | declared found required =>
      intro steps leads
      cases leads with
      | here => rfl
      | step opens _ _ =>
          rw [(opens.of_found found).1] at required
          cases required
  | @composite name property template found composed each induction =>
      intro steps leads
      cases leads with
      | here => rfl
      | @step _ variableName _ _ rest opens referred leads =>
          have same := composed.symm.trans (opens.of_found found).2
          rw [Option.some.injEq] at same
          subst same
          -- From the variable the path goes on to the name and from there to the variable.
          have around := induction variableName referred (rest ++ [variableName])
            (leads.append (.step opens referred (.here variableName)))
          simp at around

namespace IsUnshared

theorem of_referred (unshared : schema.IsUnshared name) (opens : schema.Opens name template)
    (referred : variableName ∈ template.references) : schema.IsUnshared variableName := by
  intro target inner opensTarget steps other leads leadsOther
  have same := unshared target inner opensTarget _ _ (.step opens referred leads)
    (.step opens referred leadsOther)
  exact List.tail_eq_of_cons_eq same

theorem not_meets_self (unshared : schema.IsUnshared name) (opens : schema.Opens name template)
    (referred : variableName ∈ template.references) : ¬ schema.Meets variableName name := by
  rintro ⟨-, steps, leads⟩
  have same := unshared name template opens _ _ (.here name) (.step opens referred leads)
  cases same

theorem apart (unshared : schema.IsUnshared name) (opens : schema.Opens name template)
    {first second : String} (referredFirst : first ∈ template.references)
    (referredSecond : second ∈ template.references) (meetsFirst : schema.Meets first target)
    (meetsSecond : schema.Meets second target) : first = second := by
  obtain ⟨⟨inner, opensTarget⟩, steps, leads⟩ := meetsFirst
  obtain ⟨-, other, leadsOther⟩ := meetsSecond
  have same := unshared target inner opensTarget _ _ (.step opens referredFirst leads)
    (.step opens referredSecond leadsOther)
  exact List.head_eq_of_cons_eq same

end IsUnshared

theorem Meets.step (opens : schema.Opens name template)
    (referred : variableName ∈ template.references) (meets : schema.Meets variableName target) :
    schema.Meets name target := by
  obtain ⟨opensTarget, steps, leads⟩ := meets
  exact ⟨opensTarget, _, .step opens referred leads⟩

/-- From a composite of plain properties no other composite is met. -/
theorem isUnshared_of_plain_references
    (plain : ∀ template, schema.Opens name template → ∀ variableName ∈ template.references,
      ∀ inner, ¬ schema.Opens variableName inner) : schema.IsUnshared name := by
  have direct : ∀ target template, schema.Opens target template →
      ∀ steps, schema.Leads name steps target → steps = [] := by
    intro target template opensTarget steps leads
    cases leads with
    | here => rfl
    | step opens referred leads =>
        cases leads with
        | here => exact absurd opensTarget (plain _ opens _ referred _)
        | step opensNext => exact absurd opensNext (plain _ opens _ referred _)
  intro target template opensTarget steps other leads leadsOther
  rw [direct target template opensTarget steps leads,
    direct target template opensTarget other leadsOther]

theorem requiresFrom_succ {property : Property} (found : schema.get? name = some property) :
    schema.requiresFrom (fuel + 1) name seen =
      if property.required then (true, seen)
      else match property.composite with
        | none => (false, seen)
        | some template =>
            if seen.contains name then (false, seen)
            else allSeen (schema.requiresFrom fuel) template.references (name :: seen) := by
  have step := requiresFrom.eq_2 schema name seen fuel
  rw [found] at step
  exact step

/-- What the search accepts is required, whatever it has seen. -/
theorem isRequired_of_requiresFrom (accepted : (schema.requiresFrom fuel name seen).1 = true) :
    schema.IsRequired name := by
  induction fuel generalizing name seen with
  | zero => cases accepted
  | succ fuel induction =>
      cases found : schema.get? name with
      | none =>
          rw [requiresFrom, found] at accepted
          cases accepted
      | some property =>
          rw [requiresFrom_succ found] at accepted
          split at accepted
          · next declared => exact .declared found declared
          · split at accepted
            · cases accepted
            · next template composed =>
                split at accepted
                · cases accepted
                · refine .composite found composed ?_
                  -- The variables are searched in turn, each from what the last one has seen.
                  generalize name :: seen = noted at accepted
                  generalize template.references = names at accepted
                  induction names generalizing noted with
                  | nil => simp
                  | cons first names each =>
                      rw [allSeen] at accepted
                      split at accepted
                      · next after acceptedFirst =>
                          rw [List.forall_mem_cons]
                          exact ⟨induction (congrArg Prod.fst acceptedFirst), each after accepted⟩
                      · cases accepted

/-- The composites seen are distinct and declared, and there is fuel for all others. -/
structure Fits (schema : Schema) (fuel : Nat) (seen : List String) : Prop where
  distinct : seen.Nodup
  declared : seen ⊆ schema.names
  enough : schema.length < fuel + seen.length

theorem Fits.positive (fits : schema.Fits fuel seen) : 0 < fuel := by
  have bounded : seen.length ≤ schema.names.length :=
    (List.subperm_of_subset fits.distinct fits.declared).length_le
  have enough := fits.enough
  rw [names, List.length_map] at bounded
  omega

theorem Fits.cons (fits : schema.Fits (fuel + 1) seen) {property : Property}
    (found : schema.get? name = some property) (unseen : name ∉ seen) :
    schema.Fits fuel (name :: seen) := by
  refine ⟨List.nodup_cons.mpr ⟨unseen, fits.distinct⟩, ?_, ?_⟩
  · obtain ⟨member, rfl⟩ := get?_eq_some found
    exact List.cons_subset.mpr ⟨List.mem_map_of_mem member, fits.declared⟩
  · have enough := fits.enough
    rw [List.length_cons]
    omega

/-- One name is seen at the start of a search. -/
theorem fits_singleton {property : Property} (found : schema.get? name = some property) :
    schema.Fits (schema.length + 1) [name] := by
  refine ⟨List.nodup_singleton name, ?_, ?_⟩
  · obtain ⟨member, rfl⟩ := get?_eq_some found
    exact List.cons_subset.mpr ⟨List.mem_map_of_mem member, List.nil_subset _⟩
  · rw [List.length_singleton]
    omega

/-- The search from a required name succeeds, and notes only composites that it meets, if
none of these has been seen. -/
def Succeeds (schema : Schema) (fuel : Nat) (name : String) : Prop :=
  ∀ seen, schema.Fits fuel seen → (∀ target, schema.Meets name target → target ∉ seen) →
    ∃ fresh, schema.requiresFrom fuel name seen = (true, fresh ++ seen) ∧
      schema.Fits fuel (fresh ++ seen) ∧ ∀ target ∈ fresh, schema.Meets name target

/-- Searches one after another succeed if no two of them meet the same composite. -/
theorem allSeen_of_succeeds {names : List String} (distinct : names.Nodup)
    (succeeds : ∀ first ∈ names, schema.Succeeds fuel first)
    (apart : ∀ first ∈ names, ∀ second ∈ names, ∀ target, schema.Meets first target →
      schema.Meets second target → first = second)
    (fits : schema.Fits fuel seen)
    (unseen : ∀ first ∈ names, ∀ target, schema.Meets first target → target ∉ seen) :
    ∃ fresh, allSeen (schema.requiresFrom fuel) names seen = (true, fresh ++ seen) ∧
      schema.Fits fuel (fresh ++ seen) ∧
      ∀ target ∈ fresh, ∃ first ∈ names, schema.Meets first target := by
  induction names generalizing seen with
  | nil => exact ⟨[], rfl, fits, by simp⟩
  | cons first names induction =>
      rw [List.nodup_cons] at distinct
      obtain ⟨fresh, accepted, fitsAfter, met⟩ := succeeds first List.mem_cons_self seen fits
        (unseen first List.mem_cons_self)
      obtain ⟨later, acceptedLater, fitsLater, metLater⟩ := induction distinct.2
        (fun second member => succeeds second (List.mem_cons_of_mem _ member))
        (fun second member third memberThird => apart second (List.mem_cons_of_mem _ member)
          third (List.mem_cons_of_mem _ memberThird)) fitsAfter (by
            intro second member target meets
            rw [List.mem_append, not_or]
            refine ⟨?_, unseen second (List.mem_cons_of_mem _ member) target meets⟩
            intro noted
            have same := apart first List.mem_cons_self second (List.mem_cons_of_mem _ member)
              target (met target noted) meets
            exact distinct.1 (same ▸ member))
      refine ⟨later ++ fresh, ?_, ?_, ?_⟩
      · rw [allSeen, accepted, List.append_assoc]
        exact acceptedLater
      · rw [List.append_assoc]
        exact fitsLater
      · intro target noted
        rcases List.mem_append.mp noted with inLater | inFresh
        · obtain ⟨second, member, meets⟩ := metLater target inLater
          exact ⟨second, List.mem_cons_of_mem _ member, meets⟩
        · exact ⟨first, List.mem_cons_self, met target inFresh⟩

/-- A required name is found to be so if its composites are met once. -/
theorem IsRequired.succeeds (required : schema.IsRequired name) :
    ∀ {fuel}, schema.IsUnshared name → schema.Succeeds fuel name := by
  induction required with
  | declared found required =>
      intro fuel unshared seen fits unseen
      obtain ⟨fuel, rfl⟩ := Nat.exists_eq_add_one.mpr fits.positive
      refine ⟨[], ?_, fits, by simp⟩
      rw [requiresFrom_succ found, if_pos required]
      rfl
  | @composite name property template found composed each induction =>
      intro fuel unshared seen fits unseen
      obtain ⟨fuel, rfl⟩ := Nat.exists_eq_add_one.mpr fits.positive
      cases declared : property.required with
      | true =>
          refine ⟨[], ?_, fits, by simp⟩
          rw [requiresFrom_succ found, if_pos declared]
          rfl
      | false =>
          have opens : schema.Opens name template := ⟨property, found, declared, composed⟩
          have nameUnseen : name ∉ seen := unseen name ⟨⟨template, opens⟩, [], .here name⟩
          have fitsInside : schema.Fits fuel (name :: seen) := fits.cons found nameUnseen
          obtain ⟨fresh, accepted, fitsAfter, met⟩ := allSeen_of_succeeds
            template.references_nodup
            (fun first referred => induction first referred (unshared.of_referred opens referred))
            (fun first referred second referredSecond target =>
              unshared.apart opens referred referredSecond) fitsInside (by
                intro first referred target meets noted
                rcases List.mem_cons.mp noted with rfl | before
                · exact unshared.not_meets_self opens referred meets
                · exact unseen target (meets.step opens referred) before)
          refine ⟨fresh ++ [name], ?_, ?_, ?_⟩
          · rw [requiresFrom_succ found, if_neg (by simp [declared]), composed]
            simp only [List.contains_eq_mem, nameUnseen, decide_false, Bool.false_eq_true, if_false,
              List.append_assoc, List.singleton_append]
            exact accepted
          · rw [List.append_assoc]
            refine ⟨fitsAfter.distinct, fitsAfter.declared, ?_⟩
            have enough := fitsAfter.enough
            rw [List.singleton_append]
            omega
          · intro target noted
            rcases List.mem_append.mp noted with inFresh | isName
            · obtain ⟨first, referred, meets⟩ := met target inFresh
              exact meets.step opens referred
            · rw [List.mem_singleton.mp isName]
              exact ⟨⟨template, opens⟩, [], .here name⟩

/-- The variable of a key composite is found to be required exactly when it is. -/
theorem requires_iff {key : String} {property : Property} (found : schema.get? key = some property)
    (composed : property.composite = some template) (referred : variableName ∈ template.references)
    (unshared : schema.IsUnshared variableName) :
    schema.requires key variableName = true ↔ schema.IsRequired variableName := by
  constructor
  · exact isRequired_of_requiresFrom
  · intro required
    have keyUnmet : ∀ target, schema.Meets variableName target → target ∉ [key] := by
      -- A path back to the key would go on to the variable.
      rintro target ⟨⟨inner, opens⟩, steps, leads⟩ isKey
      rw [List.mem_singleton] at isKey
      subst isKey
      have same := composed.symm.trans (opens.of_found found).2
      rw [Option.some.injEq] at same
      subst same
      have around := required.acyclic _ (leads.append (.step opens referred (.here variableName)))
      simp at around
    obtain ⟨fresh, accepted, -, -⟩ := required.succeeds unshared [key] (fits_singleton found)
      keyUnmet
    rw [requires, accepted]

end ItemTable.Schema
