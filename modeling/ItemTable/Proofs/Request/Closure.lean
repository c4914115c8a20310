import ItemTable.Proofs.Expression.Occurrences
import ItemTable.Request.Basic

/-!
# Closed expressions

A fragment is closed if it binds just the placeholders of its text, each once.
Fragments are apart if no placeholder is bound by two of them, which holds when
their placeholders begin with different letters.

The bindings of fragments that are closed and apart can be put together in one
place: every placeholder then stands for what it stands for in its own fragment.
-/

namespace ItemTable

open Fragment (occurrences)

/-! ## Bindings of one sigil -/

namespace Entries

variable {α : Type}

/-- The placeholders that a text has with a sigil are those bound, each once. -/
structure Closes (entries : Entries α) (sigil : Char) (text : List Char) : Prop where
  mem_iff : ∀ placeholder, placeholder ∈ entries.names ↔ placeholder ∈ occurrences sigil text
  distinct : entries.names.Nodup

/-- All placeholders have the same letter after their sigil. -/
def Begins (entries : Entries α) (sigil initial : Char) : Prop :=
  ∀ placeholder ∈ entries.names, ∃ word, placeholder.toList = sigil :: initial :: word

/-- Nothing is bound on both sides. -/
def Apart (left right : Entries α) : Prop :=
  ∀ placeholder ∈ left.names, placeholder ∉ right.names

theorem Begins.apart {left right : Entries α} {sigil leftInitial rightInitial : Char}
    (leftBegins : left.Begins sigil leftInitial) (rightBegins : right.Begins sigil rightInitial)
    (different : leftInitial ≠ rightInitial) : left.Apart right := by
  intro placeholder inLeft inRight
  obtain ⟨leftWord, leftSplit⟩ := leftBegins placeholder inLeft
  obtain ⟨rightWord, rightSplit⟩ := rightBegins placeholder inRight
  rw [leftSplit] at rightSplit
  cases rightSplit
  exact different rfl

/-- What is bound in one of several entries is found when they bind nothing in common. -/
theorem findSome?_eq {several : List (Entries α)} {entries : Entries α} {name : String}
    {value : α} (apart : several.Pairwise Apart) (member : entries ∈ several)
    (found : entries.get? name = some value) :
    (several.findSome? fun entries => entries.get? name) = some value := by
  induction several with
  | nil => cases member
  | cons first several induction =>
      rw [List.pairwise_cons] at apart
      rcases List.mem_cons.mp member with rfl | later
      · rw [List.findSome?_cons, found]
      · have bound : name ∈ entries.names := by
          rw [← get?_isSome_iff, found]
          rfl
        have unbound : first.get? name = none := by
          rw [get?_eq_none_iff]
          exact fun inFirst => apart.1 entries later name inFirst bound
        rw [List.findSome?_cons, unbound]
        exact induction apart.2 later

/-- A name is found in several entries if one of them has it. -/
theorem findSome?_isSome_iff {several : List (Entries α)} {name : String} :
    (several.findSome? fun entries => entries.get? name).isSome ↔
      ∃ entries ∈ several, name ∈ entries.names := by
  simp only [List.findSome?_isSome_iff, get?_isSome_iff]

/-- The placeholders that expressions have with a sigil are just those bound, and each
stands for what the fragment that it comes from binds it to. -/
structure Resolves (entries : Entries α) (sigil : Char) (part : Fragment → Entries α)
    (expressions : List String) (fragments : List Fragment) : Prop where
  /-- Every occurrence comes from a fragment. -/
  occurs : (expressions.flatMap fun text => occurrences sigil text.toList) =
    fragments.flatMap fun fragment => occurrences sigil fragment.expression.toList
  /-- Nothing is dangling and nothing is unused. -/
  mem_iff : ∀ placeholder, placeholder ∈ entries.names ↔
    ∃ text ∈ expressions, placeholder ∈ occurrences sigil text.toList
  /-- No binding is captured by another fragment. -/
  get?_eq : ∀ fragment ∈ fragments,
    ∀ placeholder ∈ occurrences sigil fragment.expression.toList, ∃ thing,
      (part fragment).get? placeholder = some thing ∧ entries.get? placeholder = some thing

theorem resolves_of_apart {entries : Entries α} {sigil : Char} {part : Fragment → Entries α}
    {expressions : List String} {fragments : List Fragment}
    (occurs : (expressions.flatMap fun text => occurrences sigil text.toList) =
      fragments.flatMap fun fragment => occurrences sigil fragment.expression.toList)
    (merged : ∀ placeholder, entries.get? placeholder =
      (fragments.map part).findSome? fun entries => entries.get? placeholder)
    (closed : ∀ fragment ∈ fragments, (part fragment).Closes sigil fragment.expression.toList)
    (apart : (fragments.map part).Pairwise Apart) :
    entries.Resolves sigil part expressions fragments where
  occurs := occurs
  mem_iff := by
    intro placeholder
    have inFragments : (∃ text ∈ expressions, placeholder ∈ occurrences sigil text.toList) ↔
        ∃ fragment ∈ fragments,
          placeholder ∈ occurrences sigil fragment.expression.toList := by
      rw [← List.mem_flatMap, occurs, List.mem_flatMap]
    rw [← get?_isSome_iff, merged, findSome?_isSome_iff, inFragments]
    simp only [List.mem_map, exists_exists_and_eq_and]
    constructor
    · rintro ⟨fragment, member, bound⟩
      exact ⟨fragment, member, ((closed fragment member).mem_iff placeholder).mp bound⟩
    · rintro ⟨fragment, member, found⟩
      exact ⟨fragment, member, ((closed fragment member).mem_iff placeholder).mpr found⟩
  get?_eq := by
    intro fragment member placeholder found
    have bound := ((closed fragment member).mem_iff placeholder).mpr found
    obtain ⟨thing, binds⟩ := Option.isSome_iff_exists.mp (get?_isSome_iff.mpr bound)
    refine ⟨thing, binds, ?_⟩
    rw [merged]
    exact findSome?_eq apart (List.mem_map_of_mem member) binds

/-- What a closed fragment binds is found where it is resolved. -/
theorem Resolves.extends {entries : Entries α} {sigil : Char} {part : Fragment → Entries α}
    {expressions : List String} {fragments : List Fragment} {fragment : Fragment}
    (resolves : entries.Resolves sigil part expressions fragments) (member : fragment ∈ fragments)
    (closed : (part fragment).Closes sigil fragment.expression.toList) :
    entries.Extends (part fragment) := by
  intro placeholder thing bound
  have named : placeholder ∈ (part fragment).names := List.mem_map.mpr ⟨_, bound, rfl⟩
  obtain ⟨other, binds, found⟩ :=
    resolves.get?_eq fragment member placeholder ((closed.mem_iff placeholder).mp named)
  rw [found, ← binds]
  exact get?_of_mem closed.distinct bound

end Entries

/-! ## Fragments and requests -/

namespace Fragment

/-- The placeholders of the text are those that are bound, each once. -/
structure IsClosed (fragment : Fragment) : Prop where
  names : fragment.names.Closes '#' fragment.expression.toList
  values : fragment.values.Closes ':' fragment.expression.toList

/-- The placeholders that are bound have the same letter after their sigil. -/
structure Begins (fragment : Fragment) (initial : Char) : Prop where
  names : fragment.names.Begins '#' initial
  values : fragment.values.Begins ':' initial

/-- A closed fragment with placeholders of one letter. -/
structure IsLettered (fragment : Fragment) (initial : Char) : Prop where
  closed : fragment.IsClosed
  begins : fragment.Begins initial

/-- Fragments with numbered placeholders begin with the initial of these. -/
theorem begins_of_numbered {fragment : Fragment} {initial : Char} {low high : Nat}
    (numbered : Numbered initial low high fragment.names fragment.values) :
    fragment.Begins initial where
  names := by
    intro placeholder member
    obtain ⟨word, split, -⟩ := (numbered.namesNumbered placeholder member).shape
    exact ⟨word, split⟩
  values := by
    intro placeholder member
    obtain ⟨word, split, -⟩ := (numbered.valuesNumbered placeholder member).shape
    exact ⟨word, split⟩

/-- A fragment that writes a condition is closed. -/
theorem Means.isClosed {assignment : Atom Value → Bool} {fragment : Fragment} {reading : Bool}
    (means : fragment.Means assignment reading) (distinctNames : fragment.names.names.Nodup)
    (distinctValues : fragment.values.names.Nodup) : fragment.IsClosed := by
  obtain ⟨expression, -, writes⟩ := means
  have names := Expression.occurrences_names writes.written stops_nil
  have values := Expression.occurrences_values writes.written stops_nil
  simp only [List.append_nil, occurrences_nil, writes.text_eq] at names values
  refine ⟨⟨?_, distinctNames⟩, ⟨?_, distinctValues⟩⟩
  · intro placeholder
    rw [names, writes.names_iff]
  · intro placeholder
    rw [values, writes.values_iff]

end Fragment

namespace Bindings

@[simp] theorem get?_absorb_names (bindings : Bindings) (fragment : Fragment)
    (placeholder : String) :
    (bindings.absorb fragment).names.get? placeholder =
      (bindings.names.get? placeholder).or (fragment.names.get? placeholder) :=
  Entries.get?_bindAll bindings.names fragment.names placeholder

@[simp] theorem get?_absorb_values (bindings : Bindings) (fragment : Fragment)
    (placeholder : String) :
    (bindings.absorb fragment).values.get? placeholder =
      (bindings.values.get? placeholder).or (fragment.values.get? placeholder) :=
  Entries.get?_bindAll bindings.values fragment.values placeholder

/-- The placeholders of a fragment stand for what the fragment binds them to. -/
structure Extends (bindings : Bindings) (fragment : Fragment) : Prop where
  names : bindings.names.Extends fragment.names
  values : bindings.values.Extends fragment.values

/-- The fragment that is bound first keeps its bindings. -/
theorem extends_absorb {fragment : Fragment} (closed : fragment.IsClosed) :
    (absorb {} fragment).Extends fragment where
  names := fun name _ member =>
    (get?_absorb_names {} fragment name).trans (Entries.get?_of_mem closed.names.distinct member)
  values := fun name _ member =>
    (get?_absorb_values {} fragment name).trans (Entries.get?_of_mem closed.values.distinct member)

/-- Binding another fragment keeps what is there. -/
theorem Extends.absorb {bindings : Bindings} {fragment : Fragment}
    (extended : bindings.Extends fragment) (other : Fragment) :
    (bindings.absorb other).Extends fragment where
  names := by
    intro name thing member
    rw [get?_absorb_names, extended.names name thing member, Option.some_or]
  values := by
    intro name thing member
    rw [get?_absorb_values, extended.values name thing member, Option.some_or]

/-- The bindings of fragments in one place. -/
def absorbAll (bindings : Bindings) (fragments : List Fragment) : Bindings :=
  fragments.foldl absorb bindings

theorem absorbAll_names (bindings : Bindings) (fragments : List Fragment) :
    (bindings.absorbAll fragments).names =
      (fragments.map Fragment.names).foldl Entries.bindAll bindings.names := by
  induction fragments generalizing bindings with
  | nil => rfl
  | cons fragment fragments induction => exact induction (bindings.absorb fragment)

theorem absorbAll_values (bindings : Bindings) (fragments : List Fragment) :
    (bindings.absorbAll fragments).values =
      (fragments.map Fragment.values).foldl Entries.bindAll bindings.values := by
  induction fragments generalizing bindings with
  | nil => rfl
  | cons fragment fragments induction => exact induction (bindings.absorb fragment)

/-- The placeholders in expressions are just those that are bound, and each stands for
what the fragment that it comes from binds it to. -/
structure Resolves (bindings : Bindings) (expressions : List String)
    (fragments : List Fragment) : Prop where
  names : bindings.names.Resolves '#' Fragment.names expressions fragments
  values : bindings.values.Resolves ':' Fragment.values expressions fragments

theorem Resolves.extends {bindings : Bindings} {expressions : List String}
    {fragments : List Fragment} {fragment : Fragment}
    (resolves : bindings.Resolves expressions fragments) (member : fragment ∈ fragments)
    (closed : fragment.IsClosed) : bindings.Extends fragment where
  names := resolves.names.extends member closed.names
  values := resolves.values.extends member closed.values

variable {fragments : List Fragment} {initials : List Char}

theorem exists_letter (lettered : List.Forall₂ Fragment.IsLettered fragments initials)
    {fragment : Fragment} (member : fragment ∈ fragments) :
    ∃ initial ∈ initials, fragment.IsLettered initial := by
  induction lettered with
  | nil => cases member
  | cons head tail induction =>
      rcases List.mem_cons.mp member with rfl | later
      · exact ⟨_, List.mem_cons_self .., head⟩
      · obtain ⟨initial, inInitials, isLettered⟩ := induction later
        exact ⟨initial, List.mem_cons_of_mem _ inInitials, isLettered⟩

theorem apart_of_letters (lettered : List.Forall₂ Fragment.IsLettered fragments initials)
    (distinct : initials.Nodup) :
    (fragments.map Fragment.names).Pairwise Entries.Apart ∧
      (fragments.map Fragment.values).Pairwise Entries.Apart := by
  induction lettered with
  | nil => simp
  | @cons fragment initial fragments initials head tail induction =>
      rw [List.nodup_cons] at distinct
      obtain ⟨names, values⟩ := induction distinct.2
      have other : ∀ later ∈ fragments, ∃ letter, initial ≠ letter ∧ later.IsLettered letter := by
        intro later member
        obtain ⟨letter, inInitials, laterLettered⟩ := exists_letter tail member
        exact ⟨letter, fun same => distinct.1 (same ▸ inInitials), laterLettered⟩
      simp only [List.map_cons, List.pairwise_cons, List.forall_mem_map]
      refine ⟨⟨?_, names⟩, ⟨?_, values⟩⟩
      · intro later member
        obtain ⟨letter, different, laterLettered⟩ := other later member
        exact head.begins.names.apart laterLettered.begins.names different
      · intro later member
        obtain ⟨letter, different, laterLettered⟩ := other later member
        exact head.begins.values.apart laterLettered.begins.values different

/-- Fragments of different letters can be bound in one place. -/
theorem resolves_of_letters (lettered : List.Forall₂ Fragment.IsLettered fragments initials)
    (distinct : initials.Nodup) {bindings : Bindings} {expressions : List String}
    (occurs : ∀ sigil ∈ ['#', ':'],
      (expressions.flatMap fun text => occurrences sigil text.toList) =
        fragments.flatMap fun fragment => occurrences sigil fragment.expression.toList)
    (names : ∀ placeholder, bindings.names.get? placeholder =
      (absorbAll {} fragments).names.get? placeholder)
    (values : ∀ placeholder, bindings.values.get? placeholder =
      (absorbAll {} fragments).values.get? placeholder) :
    bindings.Resolves expressions fragments := by
  obtain ⟨namesApart, valuesApart⟩ := apart_of_letters lettered distinct
  have closed : ∀ fragment ∈ fragments, fragment.IsClosed := by
    intro fragment member
    obtain ⟨letter, -, isLettered⟩ := exists_letter lettered member
    exact isLettered.closed
  constructor
  · refine Entries.resolves_of_apart (occurs '#' (by simp)) ?_
      (fun fragment member => (closed fragment member).names) namesApart
    intro placeholder
    rw [names, absorbAll_names, Entries.get?_foldl_bindAll]
    rfl
  · refine Entries.resolves_of_apart (occurs ':' (by simp)) ?_
      (fun fragment member => (closed fragment member).values) valuesApart
    intro placeholder
    rw [values, absorbAll_values, Entries.get?_foldl_bindAll]
    rfl

/-- The texts of fragments of different letters, with the bindings of them all. -/
theorem absorbAll_resolves (lettered : List.Forall₂ Fragment.IsLettered fragments initials)
    (distinct : initials.Nodup) :
    (absorbAll {} fragments).Resolves (fragments.map Fragment.expression) fragments :=
  resolves_of_letters lettered distinct (fun _ _ => List.flatMap_map ..) (fun _ => rfl)
    fun _ => rfl

end Bindings

end ItemTable
