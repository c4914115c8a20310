import ItemTable.Expression.Formula
import ItemTable.Proofs.Outcome

/-!
# Sorted operators

The operators of one attribute are sorted by the part they play: standing alone, bounding
from above or bounding from below.  Sorting succeeds exactly when every operator plays a
part and no part is played twice, so it does not depend on the order of the operators.
-/

namespace ItemTable

/-- The parts that the operators of one attribute play. -/
inductive OperatorPart
  | alone
  | upper
  | lower
  deriving DecidableEq

def Operator.part? : Operator → Option OperatorPart
  | eq | ne | isIn => some .alone
  | lt | lte => some .upper
  | gt | gte => some .lower
  | and | or | not => none

namespace Operator

variable {operator : Operator} {part : OperatorPart}

/-- The operators that bound an attribute compare it. -/
theorem exists_comparison (bounds : part ≠ .alone) (plays : operator.part? = some part) :
    ∃ comparison, operator.comparison? = some comparison := by
  cases operator <;> cases plays <;> first | exact ⟨_, rfl⟩ | exact absurd rfl bounds

theorem part?_eq_upper_iff : operator.part? = some .upper ↔ operator ∈ [lt, lte] := by
  cases operator <;> decide

theorem part?_eq_lower_iff : operator.part? = some .lower ↔ operator ∈ [gt, gte] := by
  cases operator <;> decide

theorem bounds_iff :
    operator.part?.isSome = true ∧ operator.part? ≠ some .alone ↔
      operator ∈ [lt, lte, gt, gte] := by
  cases operator <;> decide

end Operator

namespace OperatorSet

variable {name : String} {operators result : OperatorSet} {pair : Operator × Value}
variable {part other : OperatorPart} {pairs others : List (Operator × Value)}

/-- The operator that plays a part. -/
def slot (operators : OperatorSet) : OperatorPart → Option (Operator × Value)
  | .alone => operators.alone
  | .upper => operators.upper
  | .lower => operators.lower

/-- Gives a part to an operator. -/
def place (operators : OperatorSet) (pair : Operator × Value) : OperatorPart → OperatorSet
  | .alone => { operators with alone := some pair }
  | .upper => { operators with upper := some pair }
  | .lower => { operators with lower := some pair }

theorem ext_slot (same : ∀ part, operators.slot part = result.slot part) : operators = result := by
  obtain ⟨alone, upper, lower⟩ := operators
  obtain ⟨otherAlone, otherUpper, otherLower⟩ := result
  cases same .alone
  cases same .upper
  cases same .lower
  rfl

theorem slot_place_self : (operators.place pair part).slot part = some pair := by
  cases part <;> rfl

theorem slot_place_of_ne (different : other ≠ part) :
    (operators.place pair part).slot other = operators.slot other := by
  cases part <;> cases other <;> first | rfl | exact absurd rfl different

/-- An operator is added if its part is free. -/
theorem add_eq_ok_iff :
    operators.add name pair = .ok result ↔ ∃ part, pair.1.part? = some part ∧
      operators.slot part = none ∧ result = operators.place pair part := by
  obtain ⟨operator, value⟩ := pair
  obtain ⟨alone, upper, lower⟩ := operators
  cases operator with
  | and | or | not => simp [add, Operator.part?]
  | eq | ne | isIn => cases alone <;> simp [add, Operator.part?, slot, place, eq_comm]
  | lt | lte => cases upper <;> simp [add, Operator.part?, slot, place, eq_comm]
  | gt | gte => cases lower <;> simp [add, Operator.part?, slot, place, eq_comm]

/-- The operators among several that play a part. -/
def playing (part : OperatorPart) (pairs : List (Operator × Value)) : List (Operator × Value) :=
  pairs.filter fun pair => pair.1.part? = some part

theorem playing_upper :
    playing .upper pairs = pairs.filter fun pair => pair.1 ∈ [.lt, .lte] := by
  simp only [playing, Operator.part?_eq_upper_iff]

theorem playing_lower :
    playing .lower pairs = pairs.filter fun pair => pair.1 ∈ [.gt, .gte] := by
  simp only [playing, Operator.part?_eq_lower_iff]

theorem playing_cons_self (plays : pair.1.part? = some part) :
    playing part (pair :: pairs) = pair :: playing part pairs :=
  List.filter_cons_of_pos (by simpa using plays)

theorem playing_cons_of_ne (plays : pair.1.part? = some part) (different : other ≠ part) :
    playing other (pair :: pairs) = playing other pairs := by
  refine List.filter_cons_of_neg ?_
  rw [plays]
  simpa using Ne.symm different

/-- Operators are sorted exactly when each plays a part that no other one plays. -/
theorem addAll_eq_ok_iff :
    addAll name operators pairs = .ok result ↔
      (∀ pair ∈ pairs, pair.1.part?.isSome = true) ∧
        ∀ part, (result.slot part).toList = (operators.slot part).toList ++ playing part pairs := by
  induction pairs generalizing operators with
  | nil =>
      simp only [addAll, Except.ok.injEq, List.not_mem_nil, false_implies, implies_true, true_and,
        playing, List.filter_nil, List.append_nil]
      constructor
      · rintro rfl part
        rfl
      · intro same
        refine ext_slot ?_
        intro part
        simpa only [Option.head?_toList] using congrArg List.head? (same part).symm
  | cons pair pairs induction =>
      rw [addAll, bind_eq_ok_iff, List.forall_mem_cons]
      simp only [add_eq_ok_iff, induction]
      constructor
      · rintro ⟨middle, ⟨part, plays, free, rfl⟩, playRest, slots⟩
        refine ⟨⟨by rw [plays]; rfl, playRest⟩, ?_⟩
        intro other
        rw [slots other]
        by_cases same : other = part
        · subst same
          rw [slot_place_self, free, playing_cons_self plays]
          rfl
        · rw [slot_place_of_ne same, playing_cons_of_ne plays same]
      · rintro ⟨⟨playsSome, playRest⟩, slots⟩
        obtain ⟨part, plays⟩ := Option.isSome_iff_exists.mp playsSome
        have slotHere := slots part
        rw [playing_cons_self plays] at slotHere
        have free : operators.slot part = none := by
          -- A result has room for one operator in this part, and that is `pair`.
          have lengths := congrArg List.length slotHere
          have room : (result.slot part).toList.length ≤ 1 := Option.length_toList_le
          rw [List.length_append, List.length_cons] at lengths
          exact Option.length_toList_eq_zero_iff.mp (by omega)
        refine ⟨operators.place pair part, ⟨part, plays, free, rfl⟩, playRest, ?_⟩
        intro other
        by_cases same : other = part
        · subst same
          rw [slot_place_self, slotHere, free]
          rfl
        · rw [slot_place_of_ne same, slots other, playing_cons_of_ne plays same]

/-- Operators that all play a part are those of the three parts together. -/
theorem perm_playing (play : ∀ pair ∈ pairs, pair.1.part?.isSome = true) :
    pairs.Perm (playing .alone pairs ++ (playing .upper pairs ++ playing .lower pairs)) := by
  induction pairs with
  | nil => exact List.Perm.nil
  | cons pair pairs induction =>
      obtain ⟨playsSome, playRest⟩ := List.forall_mem_cons.mp play
      obtain ⟨part, plays⟩ := Option.isSome_iff_exists.mp playsSome
      have rest := induction playRest
      cases part with
      | alone =>
          rw [playing_cons_self plays, playing_cons_of_ne plays (by decide),
            playing_cons_of_ne plays (by decide)]
          exact rest.cons pair
      | upper =>
          rw [playing_cons_self plays, playing_cons_of_ne plays (by decide),
            playing_cons_of_ne plays (by decide)]
          exact (rest.cons pair).trans List.perm_middle.symm
      | lower =>
          rw [playing_cons_self plays, playing_cons_of_ne plays (by decide),
            playing_cons_of_ne plays (by decide), ← List.append_assoc]
          rw [← List.append_assoc] at rest
          exact (rest.cons pair).trans List.perm_middle.symm

/-- There is one order of at most one operator. -/
theorem toList_eq_of_perm {slot : Option (Operator × Value)} (permutation : pairs.Perm others)
    (same : slot.toList = pairs) : slot.toList = others := by
  subst same
  cases slot with
  | none => exact permutation.nil_eq
  | some pair => exact (List.singleton_perm.mp permutation)

/-- The same operators in another order are sorted alike. -/
theorem addAll_eq_ok_iff_of_perm (permutation : pairs.Perm others) :
    addAll name operators pairs = .ok result ↔ addAll name operators others = .ok result := by
  rw [addAll_eq_ok_iff, addAll_eq_ok_iff]
  refine and_congr ?_ (forall_congr' ?_)
  · constructor
    · intro play pair membership
      exact play pair (permutation.mem_iff.mpr membership)
    · intro play pair membership
      exact play pair (permutation.mem_iff.mp membership)
  · intro part
    have playAlike : ((operators.slot part).toList ++ playing part pairs).Perm
        ((operators.slot part).toList ++ playing part others) :=
      (permutation.filter _).append_left _
    exact ⟨toList_eq_of_perm playAlike, toList_eq_of_perm playAlike.symm⟩

/-- Sorted operators are the given ones: each of these plays its part alone. -/
structure Sorts (operators : OperatorSet) (pairs : List (Operator × Value)) : Prop where
  play : ∀ pair ∈ pairs, pair.1.part?.isSome = true
  slots : ∀ part, (operators.slot part).toList = playing part pairs

theorem addAll_empty_eq_ok_iff : addAll name {} pairs = .ok result ↔ result.Sorts pairs := by
  have empty : ∀ part, (({} : OperatorSet).slot part).toList = [] := by
    intro part
    cases part <;> rfl
  rw [addAll_eq_ok_iff]
  simp only [empty, List.nil_append]
  constructor
  · rintro ⟨play, slots⟩
    exact ⟨play, slots⟩
  · rintro ⟨play, slots⟩
    exact ⟨play, slots⟩

/-- Operators are sorted if no part is played twice. -/
theorem exists_sorts (play : ∀ pair ∈ pairs, pair.1.part?.isSome = true)
    (single : ∀ part, (playing part pairs).length ≤ 1) :
    ∃ operators : OperatorSet, operators.Sorts pairs := by
  have held : ∀ part, (playing part pairs).head?.toList = playing part pairs := by
    intro part
    cases players : playing part pairs with
    | nil => rfl
    | cons pair rest =>
        have short := single part
        rw [players, List.length_cons] at short
        have alone : rest = [] := List.eq_nil_of_length_eq_zero (by omega)
        rw [alone]
        rfl
  refine ⟨⟨(playing .alone pairs).head?, (playing .upper pairs).head?,
    (playing .lower pairs).head?⟩, play, ?_⟩
  intro part
  cases part <;> exact held _

namespace Sorts

theorem slot_eq_some_iff (sorts : operators.Sorts pairs) (part : OperatorPart) :
    operators.slot part = some pair ↔ pair ∈ pairs ∧ pair.1.part? = some part := by
  rw [← Option.mem_toList, sorts.slots, playing, List.mem_filter, decide_eq_true_eq]

theorem length_playing_le (sorts : operators.Sorts pairs) (part : OperatorPart) :
    (playing part pairs).length ≤ 1 := by
  rw [← sorts.slots]
  exact Option.length_toList_le

/-- If no operator stands alone, all bound the attribute. -/
theorem alone_eq_none_iff (sorts : operators.Sorts pairs) :
    operators.alone = none ↔ ∀ pair ∈ pairs, pair.1 ∈ [.lt, .lte, .gt, .gte] := by
  rw [Option.eq_none_iff_forall_ne_some]
  constructor
  · intro noneAlone pair membership
    refine Operator.bounds_iff.mp ⟨sorts.play pair membership, ?_⟩
    intro plays
    exact noneAlone pair ((sorts.slot_eq_some_iff .alone).mpr ⟨membership, plays⟩)
  · intro bound pair placed
    obtain ⟨membership, plays⟩ := (sorts.slot_eq_some_iff .alone).mp placed
    exact (Operator.bounds_iff.mpr (bound pair membership)).2 plays

theorem perm (sorts : operators.Sorts pairs) :
    pairs.Perm (operators.alone.toList ++ (operators.upper.toList ++ operators.lower.toList)) := by
  have shape := perm_playing sorts.play
  rw [← sorts.slots, ← sorts.slots, ← sorts.slots] at shape
  exact shape

end Sorts

theorem exists_sorts_singleton (pair : Operator × Value) (plays : pair.1.part? = some part) :
    ∃ operators : OperatorSet, operators.Sorts [pair] ∧ operators.slot part = some pair := by
  have play : ∀ other ∈ [pair], other.1.part?.isSome = true := by
    rw [List.forall_mem_singleton, plays]
    rfl
  obtain ⟨operators, sorts⟩ := exists_sorts play fun _ => List.length_filter_le ..
  exact ⟨operators, sorts, (sorts.slot_eq_some_iff part).mpr ⟨List.mem_singleton_self pair, plays⟩⟩

theorem exists_sorts_of_bounds (bound : ∀ pair ∈ pairs, pair.1 ∈ [.lt, .lte, .gt, .gte])
    (upper : (pairs.filter fun pair => pair.1 ∈ [.lt, .lte]).length ≤ 1)
    (lower : (pairs.filter fun pair => pair.1 ∈ [.gt, .gte]).length ≤ 1) :
    ∃ operators : OperatorSet, operators.Sorts pairs := by
  have bounds : ∀ pair ∈ pairs, pair.1.part?.isSome = true ∧ pair.1.part? ≠ some .alone := by
    intro pair membership
    exact Operator.bounds_iff.mpr (bound pair membership)
  refine exists_sorts (fun pair membership => (bounds pair membership).1) ?_
  intro part
  cases part with
  | alone =>
      have unplayed : playing .alone pairs = [] := by
        rw [playing, List.filter_eq_nil_iff]
        intro pair membership
        simpa using (bounds pair membership).2
      rw [unplayed]
      exact Nat.zero_le 1
  | upper =>
      rw [playing_upper]
      exact upper
  | lower =>
      rw [playing_lower]
      exact lower

end OperatorSet

namespace Formula

variable {schema : Schema} {name : String} {operand : Value} {operator : Operator}
variable {comparison : Comparison} {formula : Formula}

/-- An operator alone is compiled to its comparison with the stored operand. -/
theorem ofCondition_single_eq_ok_iff (compares : operator.comparison? = some comparison) :
    ofCondition schema name (.operators [(operator, operand)]) = .ok formula ↔
      ∃ property stored, schema.get? name = some property ∧
        property.storeOperand name operand = .ok stored ∧
          formula = .leaf name (.compare comparison stored) := by
  have planned : TestPlan.ofCondition name (.operators [(operator, operand)]) =
      .ok (.compare comparison operand) := by
    cases operator <;> cases compares <;> rfl
  rw [ofCondition]
  cases schema.get? name with
  | none => simp
  | some property =>
      simp only [planned, bind_eq_ok_iff]
      constructor
      · rintro ⟨_, ⟨⟩, test, tested, ⟨⟩⟩
        obtain ⟨stored, stores, ⟨⟩⟩ := bind_eq_ok_iff.mp tested
        exact ⟨property, stored, rfl, stores, rfl⟩
      · rintro ⟨_, stored, ⟨⟩, stores, rfl⟩
        exact ⟨_, rfl, _, bind_eq_ok_iff.mpr ⟨stored, stores, rfl⟩, rfl⟩

end Formula

end ItemTable
