/-!
# Outcomes

When a computation made of several steps gives a result, every step has given one.  When it
fails, it fails as the first step does that fails.
-/

namespace ItemTable

variable {ε δ α β γ : Type}

theorem bind_eq_ok_iff {first : Except ε α} {next : α → Except ε β} {result : β} :
    (first >>= next) = .ok result ↔ ∃ value, first = .ok value ∧ next value = .ok result := by
  cases first <;> simp [bind, Except.bind]

theorem exists_bind_pure_iff {outcome : Except ε α} {change : α → β} :
    (∃ result, (outcome >>= fun value => pure (change value)) = .ok result) ↔
      ∃ value, outcome = .ok value := by
  cases outcome <;> simp [bind, Except.bind, pure, Except.pure]

/-- Two outcomes are combined if there are both. -/
theorem exists_bind_bind_pure_iff {first : Except ε α} {second : Except ε β}
    {combine : α → β → γ} :
    (∃ result, (first >>= fun left => second >>= fun right => pure (combine left right)) =
        .ok result) ↔
      (∃ left, first = .ok left) ∧ ∃ right, second = .ok right := by
  cases first <;> cases second <;> simp [bind, Except.bind, pure, Except.pure]

theorem map_eq_ok_iff {outcome : Except ε α} {change : α → β} {result : β} :
    outcome.map change = .ok result ↔ ∃ value, outcome = .ok value ∧ change value = result := by
  cases outcome <;> simp [Except.map]

theorem mapError_eq_ok_iff {outcome : Except ε α} {change : ε → δ} {result : α} :
    outcome.mapError change = .ok result ↔ outcome = .ok result := by
  cases outcome with
  | ok value =>
      constructor
      · intro same
        cases same
        rfl
      · intro same
        cases same
        rfl
  | error cause =>
      constructor
      · intro same
        cases same
      · intro same
        cases same

theorem bind_eq_error_iff {first : Except ε α} {next : α → Except ε β} {cause : ε} :
    (first >>= next) = .error cause ↔
      first = .error cause ∨ ∃ value, first = .ok value ∧ next value = .error cause := by
  cases first <;> simp [bind, Except.bind]

theorem map_eq_error_iff {outcome : Except ε α} {change : α → β} {cause : ε} :
    outcome.map change = .error cause ↔ outcome = .error cause := by
  cases outcome <;> simp [Except.map]

theorem mapError_eq_error_iff {outcome : Except ε α} {change : ε → δ} {cause : δ} :
    outcome.mapError change = .error cause ↔
      ∃ inner, outcome = .error inner ∧ cause = change inner := by
  cases outcome with
  | ok value =>
      constructor
      · rintro ⟨⟩
      · rintro ⟨inner, ⟨⟩, -⟩
  | error failure =>
      constructor
      · rintro ⟨⟩
        exact ⟨failure, rfl, rfl⟩
      · rintro ⟨inner, ⟨⟩, rfl⟩
        rfl

theorem forM_eq_ok_iff {test : α → Except ε Unit} {list : List α} :
    list.forM test = .ok () ↔ ∀ element ∈ list, test element = .ok () := by
  induction list with
  | nil => exact iff_of_true rfl (by simp)
  | cons head list induction =>
      change (test head >>= fun _ => list.forM test) = .ok () ↔ _
      rw [bind_eq_ok_iff, List.forall_mem_cons, ← induction]
      constructor
      · rintro ⟨⟨⟩, passed, passedRest⟩
        exact ⟨passed, passedRest⟩
      · rintro ⟨passed, passedRest⟩
        exact ⟨(), passed, passedRest⟩

theorem forM_append {test : α → Except ε Unit} (first second : List α) :
    (first ++ second).forM test = (first.forM test >>= fun _ => second.forM test) :=
  List.forM_append

/-- Tests whose errors are those of other tests, changed, run like the others. -/
theorem forM_map_of_mapError {move : α → β} {test : α → Except ε Unit}
    {movedTest : β → Except δ Unit} {change : ε → δ}
    (same : ∀ element, movedTest (move element) = (test element).mapError change)
    (list : List α) : (list.map move).forM movedTest = (list.forM test).mapError change := by
  induction list with
  | nil => rfl
  | cons head list induction =>
      change (movedTest (move head) >>= fun _ => (list.map move).forM movedTest) =
        (test head >>= fun _ => list.forM test).mapError change
      rw [same, induction]
      cases test head <;> rfl

theorem forM_flatMap {test : β → Except ε Unit} (list : List α) (part : α → List β) :
    (list.flatMap part).forM test = list.forM fun element => (part element).forM test := by
  induction list with
  | nil => rfl
  | cons head list induction =>
      rw [List.flatMap_cons, forM_append, induction]
      rfl

/-- Whether a computation fails, and how, without what it gives. -/
def verdict (outcome : Except ε α) : Except ε Unit :=
  outcome.map fun _ => ()

theorem verdict_eq_ok_iff {outcome : Except ε α} :
    verdict outcome = .ok () ↔ ∃ value, outcome = .ok value := by
  cases outcome <;> simp [verdict, Except.map]

theorem verdict_eq_error_iff {outcome : Except ε α} {cause : ε} :
    verdict outcome = .error cause ↔ outcome = .error cause := by
  cases outcome <;> simp [verdict, Except.map]

theorem verdict_eq_self (outcome : Except ε Unit) : verdict outcome = outcome := by
  cases outcome <;> rfl

theorem verdict_map (outcome : Except ε α) (change : α → β) :
    verdict (outcome.map change) = verdict outcome := by
  cases outcome <;> rfl

theorem verdict_mapError (outcome : Except ε α) (change : ε → δ) :
    verdict (outcome.mapError change) = (verdict outcome).mapError change := by
  cases outcome <;> rfl

/-- Two results are combined if there are both. -/
theorem verdict_bind_bind (first : Except ε α) (second : Except ε β) (combine : α → β → γ) :
    verdict (first >>= fun left => second >>= fun right => .ok (combine left right)) =
      (verdict first >>= fun _ => verdict second) := by
  cases first <;> cases second <;> rfl

/-- A test of all elements fails as the first one does that fails. -/
theorem forM_eq_error_iff {test : α → Except ε Unit} {list : List α} {cause : ε} :
    list.forM test = .error cause ↔ ∃ before first after, list = before ++ first :: after ∧
      (∀ element ∈ before, test element = .ok ()) ∧ test first = .error cause := by
  induction list with
  | nil =>
      constructor
      · intro failed
        cases failed
      · rintro ⟨before, first, after, same, -⟩
        cases before <;> cases same
  | cons head list induction =>
      change (test head >>= fun _ => list.forM test) = .error cause ↔ _
      cases tested : test head with
      | error failure =>
          constructor
          · intro failed
            cases failed
            exact ⟨[], head, list, rfl, by simp, tested⟩
          · rintro ⟨before, first, after, same, passed, failed⟩
            cases before with
            | nil =>
                cases same
                rw [failed] at tested
                cases tested
                rfl
            | cons element before =>
                cases same
                have passedHead := passed head List.mem_cons_self
                rw [tested] at passedHead
                cases passedHead
      | ok value =>
          change list.forM test = .error cause ↔ _
          rw [induction]
          constructor
          · rintro ⟨before, first, after, rfl, passed, failed⟩
            exact ⟨head :: before, first, after, rfl,
              List.forall_mem_cons.mpr ⟨tested, passed⟩, failed⟩
          · rintro ⟨before, first, after, same, passed, failed⟩
            cases before with
            | nil =>
                cases same
                rw [tested] at failed
                cases failed
            | cons element before =>
                cases same
                exact ⟨before, first, after, rfl, (List.forall_mem_cons.mp passed).2, failed⟩

end ItemTable
