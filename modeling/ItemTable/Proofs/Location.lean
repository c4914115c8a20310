import ItemTable.Path
import ItemTable.Proofs.Value

/-!
# Locations

A location is the way from a value to a value inside it: a step into a field or to an
element, and then the rest of the way.  Its path is the text that errors show.  Paths are
joined associatively, so the path of a location does not depend on where along the way its
pieces are put together.

Depth first, a location comes before another when it takes the earlier step where the two
part.
-/

namespace ItemTable

namespace Path

theorem empty_join (path : String) : join "" path = path := by
  rw [join, if_pos rfl]

theorem join_empty (path : String) : join path "" = path := by
  rw [join, if_pos rfl]
  split
  · next empty => rw [empty]
  · rfl

theorem join_eq_of_ne {parent child : String} (parentFilled : parent ≠ "")
    (childFilled : child ≠ "") :
    join parent child =
      parent ++ if child.toList.head? = some '[' then child else "." ++ child := by
  rw [join, if_neg parentFilled, if_neg childFilled]
  split
  · rfl
  · rw [String.append_assoc]

theorem join_ne_empty {parent child : String} (filled : parent ≠ "") : join parent child ≠ "" := by
  by_cases childEmpty : child = ""
  · rw [childEmpty, join_empty]
    exact filled
  · rw [join_eq_of_ne filled childEmpty]
    simp [filled]

theorem head?_join {parent child : String} (filled : parent ≠ "") :
    (join parent child).toList.head? = parent.toList.head? := by
  by_cases childEmpty : child = ""
  · rw [childEmpty, join_empty]
  · have nonempty : parent.toList ≠ [] := by simpa using filled
    obtain ⟨first, rest, same⟩ := List.exists_cons_of_ne_nil nonempty
    rw [join_eq_of_ne filled childEmpty, String.toList_append, same]
    rfl

theorem join_assoc (first second third : String) :
    join (join first second) third = join first (join second third) := by
  by_cases firstEmpty : first = ""
  · simp only [firstEmpty, empty_join]
  by_cases secondEmpty : second = ""
  · simp only [secondEmpty, empty_join, join_empty]
  by_cases thirdEmpty : third = ""
  · simp only [thirdEmpty, join_empty]
  rw [join_eq_of_ne (join_ne_empty firstEmpty) thirdEmpty, join_eq_of_ne firstEmpty secondEmpty,
    join_eq_of_ne firstEmpty (join_ne_empty secondEmpty), head?_join secondEmpty,
    join_eq_of_ne secondEmpty thirdEmpty]
  split
  · rw [String.append_assoc]
  · simp only [String.append_assoc]

theorem join_element (parent : String) (position : Nat) :
    join parent (element position) = parent ++ element position := by
  by_cases empty : parent = ""
  · rw [empty, empty_join, String.empty_append]
  · have bracket : (element position).toList.head? = some '[' := by
      simp [element]
    have filled : element position ≠ "" := by
      intro same
      rw [same] at bracket
      cases bracket
    rw [join_eq_of_ne empty filled, if_pos bracket]

end Path

/-- One step of the way from a value to a value inside it. -/
inductive Step
  | field (name : String)
  | element (position : Nat)
  deriving DecidableEq

namespace Step

/-- The path of a step by itself. -/
def segment : Step → String
  | field name => name
  | element position => Path.element position

/-- Whether a step comes before another at a value whose fields have these names in order. -/
def Before (names : List String) : Step → Step → Prop
  | field first, field second => List.Sublist [first, second] names
  | element first, element second => first < second
  | _, _ => False

theorem Before.irrefl {names : List String} (distinct : names.Nodup) (step : Step) :
    ¬ Before names step step := by
  cases step with
  | field name =>
      intro before
      simpa using distinct.sublist before
  | element position => exact Nat.lt_irrefl position

end Step

/-- The way from a value to a value inside it. -/
abbrev Location := List Step

namespace Location

/-- The path of a location from where it starts. -/
def path : Location → String
  | [] => ""
  | step :: rest => Path.join step.segment (path rest)

theorem path_append (start rest : Location) :
    path (start ++ rest) = Path.join (path start) (path rest) := by
  induction start with
  | nil => exact (Path.empty_join _).symm
  | cons step start induction => rw [List.cons_append, path, path, induction, Path.join_assoc]

theorem path_singleton (step : Step) : path [step] = step.segment :=
  Path.join_empty step.segment

/-- The path of a location, built on the way down from where `parent` starts.  The position of
an element is written behind the path of the list. -/
def pathFrom (parent : String) : Location → String
  | [] => parent
  | .field name :: rest => pathFrom (Path.join parent name) rest
  | .element position :: rest => pathFrom (parent ++ Path.element position) rest

theorem pathFrom_cons (parent : String) (step : Step) (rest : Location) :
    pathFrom parent (step :: rest) = pathFrom (Path.join parent step.segment) rest := by
  cases step with
  | field name => rfl
  | element position => rw [pathFrom, Step.segment, Path.join_element]

theorem pathFrom_eq_join (parent : String) (location : Location) :
    location.pathFrom parent = Path.join parent location.path := by
  induction location generalizing parent with
  | nil => exact (Path.join_empty parent).symm
  | cons step rest induction => rw [pathFrom_cons, induction, path, Path.join_assoc]

/-- An error moved outwards one step after another, the last step first. -/
def lift {ε : Type} (under : String → ε → ε) (location : Location) (error : ε) : ε :=
  location.foldr (fun step => under step.segment) error

theorem lift_append {ε : Type} (under : String → ε → ε) (start rest : Location) (error : ε) :
    (start ++ rest).lift under error = start.lift under (rest.lift under error) :=
  List.foldr_append

/-- Depth-first order, where `names location` are the names of the fields of the value at a
location, in order.  A value comes before the values inside it. -/
inductive Before : (names : Location → List String) → Location → Location → Prop
  | root {names : Location → List String} (step : Step) (rest : Location) :
      Before names [] (step :: rest)
  | part {names : Location → List String} {step otherStep : Step}
      (earlier : Step.Before (names []) step otherStep) (rest otherRest : Location) :
      Before names (step :: rest) (otherStep :: otherRest)
  | step {names : Location → List String} {first second : Location} (step : Step)
      (before : Before (fun location => names (step :: location)) first second) :
      Before names (step :: first) (step :: second)

theorem Before.append {names : Location → List String} {first second : Location}
    (start : Location) (before : Before (fun location => names (start ++ location)) first second) :
    Before names (start ++ first) (start ++ second) := by
  induction start generalizing names with
  | nil => exact before
  | cons step start induction => exact .step step (induction before)

theorem Before.irrefl {names : Location → List String}
    (distinct : ∀ location, (names location).Nodup) (location : Location) :
    ¬ Before names location location := by
  induction location generalizing names with
  | nil =>
      intro before
      cases before
  | cons step location induction =>
      intro before
      cases before with
      | part earlier => exact earlier.irrefl (distinct []) step
      | step _ before => exact induction (fun rest => distinct (step :: rest)) before

/-- Locations in fields come in the order of the fields. -/
theorem pairwise_fields {ι : Type} {items : List ι} {name : ι → String}
    {names : Location → List String} (same : names [] = items.map name) :
    items.Pairwise fun item later => ∀ rest otherRest,
      Before names (.field (name item) :: rest) (.field (name later) :: otherRest) := by
  refine List.pairwise_iff_forall_sublist.mpr ?_
  intro item later sublist rest otherRest
  have earlier : Step.Before (names []) (.field (name item)) (.field (name later)) := by
    rw [same]
    exact sublist.map name
  exact .part earlier rest otherRest

section Enumerates

variable {α ι : Type} {location : α → Location} {names : Location → List String}
variable {things : List α} {thing : α} {holds other : α → Prop}

/-- The things that satisfy a condition, in depth-first order of their locations. -/
structure Enumerates (location : α → Location) (names : Location → List String)
    (things : List α) (holds : α → Prop) : Prop where
  ordered : things.Pairwise fun first second => Before names (location first) (location second)
  complete : ∀ thing, thing ∈ things ↔ holds thing

namespace Enumerates

theorem congr (enumerates : Enumerates location names things holds)
    (same : ∀ thing, holds thing ↔ other thing) : Enumerates location names things other :=
  ⟨enumerates.ordered, fun thing => (enumerates.complete thing).trans (same thing)⟩

/-- Things in depth-first order are distinct. -/
theorem nodup (enumerates : Enumerates location names things holds)
    (distinct : ∀ location, (names location).Nodup) : things.Nodup := by
  refine enumerates.ordered.imp ?_
  rintro thing _ before rfl
  exact before.irrefl distinct _

/-- What is listed behind a thing comes behind it. -/
theorem before_of_split {first : α} {earlier later : List α}
    (enumerates : Enumerates location names things holds)
    (split : things = earlier ++ first :: later) :
    holds first ∧ ∀ thing, holds thing → thing ∉ earlier →
      thing = first ∨ Before names (location first) (location thing) := by
  subst split
  refine ⟨(enumerates.complete first).mp (List.mem_append_right _ List.mem_cons_self), ?_⟩
  intro thing holdsHere notEarlier
  rcases List.mem_append.mp ((enumerates.complete thing).mpr holdsHere) with listed | listed
  · exact absurd listed notEarlier
  · rcases List.mem_cons.mp listed with same | behind
    · exact Or.inl same
    · have ordered := (List.pairwise_append.mp enumerates.ordered).2.1
      exact Or.inr ((List.pairwise_cons.mp ordered).1 thing behind)

theorem nil (none : ∀ thing, ¬ holds thing) : Enumerates location names [] holds :=
  ⟨.nil, fun thing => iff_of_false List.not_mem_nil (none thing)⟩

theorem cons (rest : Enumerates location names things holds)
    (first : ∀ other, holds other → Before names (location thing) (location other)) :
    Enumerates location names (thing :: things) fun other => other = thing ∨ holds other := by
  constructor
  · refine .cons ?_ rest.ordered
    intro other member
    exact first other ((rest.complete other).mp member)
  · intro other
    rw [List.mem_cons, rest.complete]

/-- Lists one after another, if all things of a list come before those of later lists. -/
theorem flatMap {items : List ι} {list : ι → List α} {holds : ι → α → Prop}
    (each : ∀ item ∈ items, Enumerates location names (list item) (holds item))
    (apart : items.Pairwise fun item later => ∀ first second, holds item first →
      holds later second → Before names (location first) (location second)) :
    Enumerates location names (items.flatMap list) fun thing =>
      ∃ item ∈ items, holds item thing := by
  have listed : ∀ item ∈ items, ∀ thing, thing ∈ list item ↔ holds item thing :=
    fun item member => (each item member).complete
  constructor
  · rw [List.pairwise_flatMap]
    refine ⟨fun item member => (each item member).ordered, ?_⟩
    refine apart.imp_of_mem ?_
    intro item later member laterMember before first firstListed second secondListed
    exact before first second ((listed item member first).mp firstListed)
      ((listed later laterMember second).mp secondListed)
  · intro thing
    rw [List.mem_flatMap]
    exact exists_congr fun item => and_congr_right fun member => listed item member thing

/-- What is listed from a location on, seen from where the location starts. -/
theorem under {start : Location} {move : α → α}
    (moves : ∀ thing, location (move thing) = start ++ location thing)
    (enumerates : Enumerates location (fun rest => names (start ++ rest)) things holds) :
    Enumerates location names (things.map move) fun thing =>
      ∃ inner, holds inner ∧ thing = move inner := by
  constructor
  · refine List.pairwise_map.mpr (enumerates.ordered.imp ?_)
    intro first second before
    rw [moves, moves]
    exact before.append start
  · intro thing
    simp only [List.mem_map, enumerates.complete, eq_comm]

end Enumerates

end Enumerates

end Location

namespace Value

variable {value : Value} {start : Location} {fields : Document}

/-- The documents among list elements, each with its location. -/
def documentsAmong : Nat → List Value → List (Location × Document)
  | _, [] => []
  | position, .map fields :: rest =>
      ([.element position], fields) :: documentsAmong (position + 1) rest
  | position, _ :: rest => documentsAmong (position + 1) rest

/-- The documents that the schema of a property with this value applies to, each with its
location: the value itself, or those among its elements. -/
def documents : Value → List (Location × Document)
  | .map fields => [([], fields)]
  | .list items => documentsAmong 0 items
  | _ => []

theorem mem_documentsAmong {position : Nat} {items : List Value} :
    (start, fields) ∈ documentsAmong position items ↔
      ∃ index, items[index]? = some (.map fields) ∧ start = [.element (position + index)] := by
  induction items generalizing position with
  | nil => simp [documentsAmong]
  | cons item items induction =>
      have cons_iff : (∃ index, (item :: items)[index]? = some (.map fields) ∧
            start = [.element (position + index)]) ↔
          (item = .map fields ∧ start = [.element position]) ∨
            (start, fields) ∈ documentsAmong (position + 1) items := by
        rw [induction]
        constructor
        · rintro ⟨index, found, rfl⟩
          cases index with
          | zero => exact Or.inl ⟨Option.some.inj found, rfl⟩
          | succ index => exact Or.inr ⟨index, found, by rw [Nat.add_right_comm, Nat.add_assoc]⟩
        · rintro (⟨rfl, rfl⟩ | ⟨index, found, rfl⟩)
          · exact ⟨0, rfl, rfl⟩
          · exact ⟨index + 1, found, by rw [Nat.add_right_comm, Nat.add_assoc]⟩
      rw [cons_iff]
      cases item with
      | map fields => simp [documentsAmong, eq_comm, and_comm]
      | _ => simp [documentsAmong]

theorem pairwise_documentsAmong (names : Location → List String) {position : Nat}
    {items : List Value} :
    (documentsAmong position items).Pairwise fun first second => ∀ rest otherRest,
      Location.Before names (first.1 ++ rest) (second.1 ++ otherRest) := by
  induction items generalizing position with
  | nil => exact .nil
  | cons item items induction =>
      cases item with
      | map fields =>
          rw [documentsAmong]
          refine .cons ?_ induction
          rintro ⟨start, later⟩ member rest otherRest
          obtain ⟨index, -, rfl⟩ := mem_documentsAmong.mp member
          have earlier : Step.Before (names []) (.element position)
              (.element (position + 1 + index)) := by
            change position < position + 1 + index
            omega
          exact .part earlier rest otherRest
      | _ => exact induction

/-- The documents of a value stand in the order of their locations. -/
theorem pairwise_documents (value : Value) (names : Location → List String) :
    value.documents.Pairwise fun first second => ∀ rest otherRest,
      Location.Before names (first.1 ++ rest) (second.1 ++ otherRest) := by
  cases value with
  | map fields => exact List.pairwise_singleton _ _
  | list items => exact pairwise_documentsAmong names
  | _ => exact .nil

/-- The names of the fields of the value at a location, in order. -/
def namesAt : Value → Location → List String
  | .map fields, [] => Entries.names fields
  | .map fields, .field name :: rest =>
      match Entries.get? fields name with
      | some value => namesAt value rest
      | none => []
  | .list items, .element position :: rest =>
      match items[position]? with
      | some item => namesAt item rest
      | none => []
  | _, _ => []

theorem namesAt_nodup (distinct : value.isDistinct = true) (location : Location) :
    (value.namesAt location).Nodup := by
  induction location generalizing value with
  | nil =>
      cases value with
      | map fields => exact (isDistinct_map.mp distinct).1
      | _ => exact .nil
  | cons step location induction =>
      cases value with
      | map fields =>
          cases step with
          | element position => exact .nil
          | field name =>
              rw [namesAt]
              split
              · next found => exact induction (isDistinct_of_get? distinct found)
              · exact .nil
      | list items =>
          cases step with
          | field name => exact .nil
          | element position =>
              rw [namesAt]
              split
              · next found =>
                  exact induction (isDistinct_list.mp distinct _ (List.mem_of_getElem? found))
              · exact .nil
      | _ => exact .nil

theorem isDistinct_of_documents (distinct : value.isDistinct = true)
    (holds : (start, fields) ∈ value.documents) : (map fields).isDistinct = true := by
  cases value with
  | map document =>
      cases List.mem_singleton.mp holds
      exact distinct
  | list items =>
      obtain ⟨index, found, -⟩ := mem_documentsAmong.mp holds
      exact isDistinct_list.mp distinct _ (List.mem_of_getElem? found)
  | _ => cases holds

/-- The names inside a field are those of its value. -/
theorem namesAt_field {document : Document} {name : String}
    (found : document.get? name = some value) :
    (fun rest => (map document).namesAt (.field name :: rest)) = value.namesAt := by
  funext rest
  rw [namesAt, found]

/-- The names inside a document of a value are those at its location. -/
theorem namesAt_documents (holds : (start, fields) ∈ value.documents) :
    (fun rest => value.namesAt (start ++ rest)) = (map fields).namesAt := by
  funext rest
  cases value with
  | map document =>
      cases List.mem_singleton.mp holds
      rfl
  | list items =>
      obtain ⟨index, found, rfl⟩ := mem_documentsAmong.mp holds
      rw [Nat.zero_add]
      simp [namesAt, found]
  | _ => cases holds

end Value

end ItemTable
