import ItemTable.Proofs.Expression.Conjunction
import ItemTable.Proofs.Table.Placeholders

/-!
# Guards of updates

An update is carried out only if the item exists and the caller's condition holds.  The
fragments of both are joined by `Fragment.and`, which says what both sides say, and the
request binds the placeholders of each side to what they stand for there.
-/

namespace ItemTable

namespace Bindings

variable {bindings : Bindings} {left right : Fragment} {assignment : Atom Value → Bool}
variable {leftReading rightReading : Bool}

/-- The condition that a text writes, with placeholders resolved. -/
def condition? (bindings : Bindings) (text : String) : Option (Expression (Atom Value)) :=
  Fragment.condition?
    { expression := text, names := bindings.names, values := bindings.values }

/-- What the text of a fragment says where its placeholders are bound. -/
theorem condition?_of_means (extended : bindings.Extends left)
    (means : left.Means assignment leftReading) :
    ∃ resolved, bindings.condition? left.expression = some resolved ∧
      resolved.holds assignment = leftReading := by
  obtain ⟨expression, level, writes⟩ := means
  have prints : left.Prints expression := ⟨.single level, writes.written, writes.text_eq.symm⟩
  have value := writes.value?_eq _ _ extended.names extended.values
  rw [Expression.value?, Option.map_eq_some_iff] at value
  obtain ⟨resolved, resolves, holds⟩ := value
  refine ⟨resolved, ?_, holds⟩
  rw [condition?, Fragment.condition?, prints.parse?_eq, Option.bind_some, resolves]

/-- What the conjunction of two fragments says where the placeholders of both are bound. -/
theorem condition?_and (extendedLeft : bindings.Extends left)
    (extendedRight : bindings.Extends right) (leftMeans : left.Means assignment leftReading)
    (rightMeans : right.Means assignment rightReading) :
    ∃ resolved, bindings.condition? (left.and right).expression = some resolved ∧
      resolved.holds assignment = (leftReading && rightReading) := by
  obtain ⟨first, firstLevel, firstWrites⟩ := leftMeans
  obtain ⟨second, secondLevel, secondWrites⟩ := rightMeans
  have leftPrints : left.Prints first :=
    ⟨.single firstLevel, firstWrites.written, firstWrites.text_eq.symm⟩
  have rightPrints : right.Prints second :=
    ⟨.single secondLevel, secondWrites.written, secondWrites.text_eq.symm⟩
  obtain ⟨firstSide, secondSide, firstSame, secondSame, prints⟩ :=
    Fragment.exists_prints_and leftPrints rightPrints
  have firstValue : firstSide.value? bindings.names bindings.values assignment =
      some leftReading := by
    have value := firstWrites.value?_eq _ _ extendedLeft.names extendedLeft.values
    rcases firstSame with rfl | rfl
    · exact value
    · rw [Expression.value?_enclosed, value]
  have secondValue : secondSide.value? bindings.names bindings.values assignment =
      some rightReading := by
    have value := secondWrites.value?_eq _ _ extendedRight.names extendedRight.values
    rcases secondSame with rfl | rfl
    · exact value
    · rw [Expression.value?_enclosed, value]
  have whole := Expression.conjoin_value? bindings.names bindings.values assignment
    firstSide secondSide
  rw [firstValue, secondValue, Option.bind_some, Option.map_some, Expression.value?,
    Option.map_eq_some_iff] at whole
  obtain ⟨resolved, resolves, holds⟩ := whole
  refine ⟨resolved, ?_, holds⟩
  rw [condition?, Fragment.condition?, prints.parse?_eq, Option.bind_some, resolves]

end Bindings

namespace KeySchema

variable {function : String}

/-- The call of a function with a placeholder. -/
def callText (function placeholder : String) : List Char :=
  function.toList ++ '(' :: placeholder.toList ++ [')']

theorem existence_text (key : KeySchema) (function : String) :
    (key.existence function).expression.toList =
      Piece.join Piece.andSeparator (callText function hashPlaceholder ::
        key.range.toList.map fun _ => callText function rangePlaceholder) := by
  obtain ⟨hash, range⟩ := key
  cases range <;>
    simp [existence, Fragment.ofText, Fragment.withName, callText, Piece.join, Piece.andSeparator,
      toString]

/-- The condition that a function holds of the key attributes says so of each. -/
theorem existence_means (isExistence : function ∈ existenceFunctions) (key : KeySchema)
    (assignment : Atom Value → Bool) :
    (key.existence function).Means assignment
      (key.attributes.all fun name => assignment (.call function name)) := by
  have nonempty : function.toList ≠ [] := by
    simp only [existenceFunctions, List.mem_cons, List.not_mem_nil, or_false] at isExistence
    rcases isExistence with rfl | rfl <;> decide
  have placed : ∀ c ∈ function.toList, Token.isFunctionChar c = true := by
    simp only [existenceFunctions, List.mem_cons, List.not_mem_nil, or_false] at isExistence
    rcases isExistence with rfl | rfl <;> exact List.all_eq_true.mp rfl
  have hashWritten : IsPlaceholder '#' hashPlaceholder :=
    ⟨_, rfl, by decide, List.all_eq_true.mp rfl⟩
  have rangeWritten : IsPlaceholder '#' rangePlaceholder :=
    ⟨_, rfl, by decide, List.all_eq_true.mp rfl⟩
  rw [Fragment.Means, existence_text, existence_names, existence_values, attributes]
  have hashWrites := Expression.Writes.call assignment key.hash nonempty placed hashWritten
  cases key.range with
  | none =>
      refine ⟨.test (.call function hashPlaceholder), .single (.primary (.test _)), ?_⟩
      simpa [Piece.join, callText] using hashWrites
  | some range =>
      have rangeWrites := Expression.Writes.call assignment range nonempty placed rangeWritten
      refine ⟨.conjoin (.test (.call function hashPlaceholder))
        (.test (.call function rangePlaceholder)),
        .and (.primary (.test _)) (.single (.primary (.test _))), ?_⟩
      simpa [Piece.join, callText] using hashWrites.conjoin rangeWrites

end KeySchema

/-- The condition of an update, with placeholders resolved. -/
def UpdateRequest.guard? (request : UpdateRequest) : Option (Expression (Atom Value)) :=
  request.condition.bind request.bindings.condition?

namespace Table

variable {table : Table} {key changes : Document} {condition : Option Where}
variable {request : UpdateRequest}

/-- What the caller's condition says; none demands nothing, as one without any test. -/
def demand (table : Table) (condition : Option Where) (assignment : Atom Value → Bool) : Bool :=
  (condition.bind fun document => document.reading? (table.schema.truth assignment)).getD true

theorem filter_means {filter : Fragment} (compiled : table.filter condition = .ok (some filter))
    (assignment : Atom Value → Bool) :
    filter.Means assignment (table.demand condition assignment) := by
  cases condition with
  | none => cases compiled
  | some document =>
      rw [Table.filter, mapError_eq_ok_iff] at compiled
      have means := Where.filter_means compiled assignment
      rw [demand, Option.bind_some]
      generalize document.reading? (table.schema.truth assignment) = reading at means ⊢
      cases means with
      | some means => exact means

theorem demand_of_filter (compiled : table.filter condition = .ok none)
    (assignment : Atom Value → Bool) : table.demand condition assignment = true := by
  cases condition with
  | none => rfl
  | some document =>
      rw [Table.filter, mapError_eq_ok_iff] at compiled
      have means := Where.filter_means compiled assignment
      rw [demand, Option.bind_some]
      generalize document.reading? (table.schema.truth assignment) = reading at means ⊢
      cases means
      rfl

/-- The guard of an update says that the item exists and what the caller demands. -/
theorem condition?_guard {guard : Fragment} (guarded : table.updateGuard condition = .ok guard)
    {bindings : Bindings} (presentBound : bindings.Extends table.key.existsCondition)
    (filterBound : ∀ filter, table.filter condition = .ok (some filter) →
      bindings.Extends filter) (assignment : Atom Value → Bool) :
    ∃ resolved, bindings.condition? guard.expression = some resolved ∧
      resolved.holds assignment =
        ((table.key.attributes.all fun name => assignment (.call "attribute_exists" name)) &&
          table.demand condition assignment) := by
  have presentMeans := KeySchema.existence_means (show "attribute_exists" ∈ _ by decide)
    table.key assignment
  obtain ⟨filter, compiled, rfl⟩ := updateGuard_eq_ok guarded
  cases filter with
  | none =>
      rw [demand_of_filter compiled, Bool.and_true]
      exact Bindings.condition?_of_means presentBound presentMeans
  | some filter =>
      exact Bindings.condition?_and presentBound (filterBound filter compiled) presentMeans
        (filter_means compiled assignment)

theorem updateFragments_eq_ok {fragments : List Fragment}
    (listed : table.updateFragments changes condition = .ok fragments) :
    ∃ statements filter, table.filter condition = .ok filter ∧
      fragments = statements ++ table.key.existsCondition :: filter.toList := by
  simp only [updateFragments, bind_eq_ok_iff] at listed
  obtain ⟨stored, -, filter, compiled, built⟩ := listed
  cases built
  exact ⟨_, filter, compiled, rfl⟩

/-- The request of an update binds the placeholders of both sides of its guard. -/
theorem extends_of_update (updated : table.update key changes condition = .ok request) :
    request.bindings.Extends table.key.existsCondition ∧
      ∀ filter, table.filter condition = .ok (some filter) → request.bindings.Extends filter := by
  obtain ⟨fragments, listed, resolves⟩ := update_resolves updated
  obtain ⟨statements, filter, compiled, rfl⟩ := updateFragments_eq_ok listed
  constructor
  · have present := KeySchema.existence_isLettered (show "attribute_exists" ∈ _ by decide) table.key
    exact resolves.extends (List.mem_append_right _ List.mem_cons_self) present.closed
  · intro other compiledOther
    rw [compiled] at compiledOther
    cases compiledOther
    exact resolves.extends (List.mem_append_right _ (by simp)) (filter_isLettered compiled).closed

theorem guard?_of_update (updated : table.update key changes condition = .ok request) :
    ∃ resolved, request.guard? = some resolved ∧ ∀ assignment, resolved.holds assignment =
      ((table.key.attributes.all fun name => assignment (.call "attribute_exists" name)) &&
        table.demand condition assignment) := by
  obtain ⟨presentBound, filterBound⟩ := extends_of_update updated
  obtain ⟨keyDocument, stored, statement, guard, -, -, -, -, -, guarded, built⟩ :=
    update_eq_ok updated
  have reads : request.guard? = request.bindings.condition? guard.expression := by
    rw [built]
    rfl
  rw [reads]
  exact Expression.exists_forall_holds (condition?_guard guarded presentBound filterBound)

/-- The conjunction of two fragments reads as the conjunction of what they say, under the
bindings of both, of which the first counts; a side without text leaves the other.  So the
condition of an update says that the item exists and what the caller demands. -/
theorem conjunctions_guard_updates :
    (∀ (left right : Fragment) (first second : Expression (Atom String)),
      left.Prints first → right.Prints second →
      Expression.parse? left.expression.toList = some first ∧
      Expression.parse? right.expression.toList = some second ∧
      (∃ whole, Expression.parse? (left.and right).expression.toList = some whole ∧
        ∀ truth, whole.holds truth = (first.holds truth && second.holds truth)) ∧
      ∀ placeholder,
        (left.and right).names.get? placeholder =
          (left.names.get? placeholder).or (right.names.get? placeholder) ∧
        (left.and right).values.get? placeholder =
          (left.values.get? placeholder).or (right.values.get? placeholder)) ∧
    (∀ left right : Fragment, left.expression = "" →
      (left.and right).expression = right.expression) ∧
    (∀ left right : Fragment, right.expression = "" →
      (left.and right).expression = left.expression) ∧
    ∀ (table : Table) key changes condition request,
      table.update key changes condition = .ok request →
      ∃ resolved, request.guard? = some resolved ∧ ∀ assignment, resolved.holds assignment =
        ((table.key.attributes.all fun name => assignment (.call "attribute_exists" name)) &&
          table.demand condition assignment) := by
  refine ⟨?_, ?_, ?_, fun _ _ _ _ _ updated => guard?_of_update updated⟩
  · intro left right first second leftPrints rightPrints
    refine ⟨leftPrints.parse?_eq, rightPrints.parse?_eq,
      Fragment.parse?_and leftPrints rightPrints, ?_⟩
    intro placeholder
    rw [Fragment.and_of_ne_empty leftPrints.ne_empty rightPrints.ne_empty]
    exact ⟨Entries.get?_bindAll .., Entries.get?_bindAll ..⟩
  · intro left right empty
    rw [Fragment.and, if_pos empty]
    split
    · next rightEmpty => rw [empty, rightEmpty]
    · rfl
  · intro left right empty
    rw [Fragment.and, if_pos empty]

/-- A disjunction without parentheses. -/
def eitherOne : Fragment :=
  { expression := "#a = :a OR NOT (#b IN (:b, :c))"
    names := [("#a", "kind"), ("#b", "state")]
    values := [(":a", .string "x"), (":b", .null), (":c", .bool true)] }

/-- A text that begins and ends with parentheses, which do not belong together. -/
def bothOnes : Fragment :=
  { expression := "(#a < :a OR attribute_exists(#b)) AND (#b = :b OR #a = :b)"
    names := [("#a", "size"), ("#b", "state")]
    values := [(":a", .bool false), (":b", .null)] }

/-- Visits that are the first, or many. -/
def extremeVisits : Where :=
  [.group .or [
    [.condition "count" (.bare (.number (.ofInt 1)))],
    [.condition "count" (.operators [(.gt, .number (.ofInt 9))])]]]

theorem conjunctions_guard_updates_of_visits :
    (eitherOne.and bothOnes).expression = "(#a = :a OR NOT (#b IN (:b, :c))) AND " ++
      "((#a < :a OR attribute_exists(#b)) AND (#b = :b OR #a = :b))" ∧
    (∃ first second whole, Expression.parse? eitherOne.expression.toList = some first ∧
      Expression.parse? bothOnes.expression.toList = some second ∧
      Expression.parse? (eitherOne.and bothOnes).expression.toList = some whole ∧
      ∀ truth, whole.holds truth = (first.holds truth && second.holds truth)) ∧
    (eitherOne.and bothOnes).names.get? "#a" = some "kind" ∧
    (bothOnes.and (Fragment.ofText "")).expression = bothOnes.expression ∧
    ((Fragment.ofText "").and bothOnes).expression = bothOnes.expression ∧
    ∃ table request resolved, visits = .ok table ∧
      table.update visit visit (some extremeVisits) = .ok request ∧
      request.guard? = some resolved ∧ ∀ assignment, resolved.holds assignment =
        ((["page", "visitor"].all fun name => assignment (.call "attribute_exists" name)) &&
          table.demand (some extremeVisits) assignment) := by
  obtain ⟨joined, emptyLeft, emptyRight, guarded⟩ := conjunctions_guard_updates
  have nameA : IsPlaceholder '#' "#a" := ⟨_, rfl, by decide, List.all_eq_true.mp rfl⟩
  have nameB : IsPlaceholder '#' "#b" := ⟨_, rfl, by decide, List.all_eq_true.mp rfl⟩
  have valueA : IsPlaceholder ':' ":a" := ⟨_, rfl, by decide, List.all_eq_true.mp rfl⟩
  have valueB : IsPlaceholder ':' ":b" := ⟨_, rfl, by decide, List.all_eq_true.mp rfl⟩
  have valueC : IsPlaceholder ':' ":c" := ⟨_, rfl, by decide, List.all_eq_true.mp rfl⟩
  have eitherPrints : eitherOne.Prints (.or (.test (.compare "#a" .eq ":a"))
      (.not (.enclosed (.test (.oneOf "#b" [":b", ":c"]))))) := by
    refine ⟨.or (.single (.primary (.test _))) (.single (.single (.not (.primary (.enclosed
      (.single (.single (.primary (.test _))))))))), ⟨⟨nameA, valueA⟩, nameB, by simp, ?_⟩, rfl⟩
    simp [valueB, valueC]
  have bothPrints : bothOnes.Prints (.and
      (.enclosed (.or (.test (.compare "#a" .lt ":a")) (.test (.call "attribute_exists" "#b"))))
      (.enclosed (.or (.test (.compare "#b" .eq ":b")) (.test (.compare "#a" .eq ":b"))))) := by
    have inside : ∀ left right : Atom String,
        (Expression.enclosed (.or (.test left) (.test right))).IsNegated := fun _ _ =>
      .primary (.enclosed (.or (.single (.primary (.test _)))
        (.single (.single (.primary (.test _))))))
    exact ⟨.single (.and (inside _ _) (.single (inside _ _))),
      ⟨⟨⟨nameA, valueA⟩, ⟨by decide, List.all_eq_true.mp rfl⟩, nameB⟩, ⟨nameB, valueB⟩, nameA,
        valueB⟩, rfl⟩
  obtain ⟨readFirst, readSecond, ⟨whole, readWhole, holds⟩, bound⟩ :=
    joined _ _ _ _ eitherPrints bothPrints
  have updated : ∃ table request, visits = .ok table ∧
      table.update visit visit (some extremeVisits) = .ok request ∧
      table.key.attributes = ["page", "visitor"] := ⟨_, _, rfl, rfl, rfl⟩
  obtain ⟨table, request, defined, updated, keyed⟩ := updated
  obtain ⟨resolved, guards, reading⟩ :=
    guarded table visit visit (some extremeVisits) request updated
  rw [keyed] at reading
  exact ⟨rfl, ⟨_, _, whole, readFirst, readSecond, readWhole, holds⟩, (bound "#a").1,
    emptyRight _ _ rfl, emptyLeft _ _ rfl, table, request, resolved, defined, updated, guards,
    reading⟩

end Table

end ItemTable
