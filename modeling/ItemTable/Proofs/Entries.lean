import ItemTable.Entries

/-!
# Laws of named entries

Looking up a name after each operation on entries, and which names there are.
-/

namespace ItemTable.Entries

variable {α : Type}

theorem get?_eq_none_iff {entries : Entries α} {name : String} :
    entries.get? name = none ↔ name ∉ entries.names := by
  induction entries with
  | nil => simp [get?, names]
  | cons entry entries induction =>
      obtain ⟨key, value⟩ := entry
      by_cases same : key = name
      · simp [get?, names, same]
      · have other : name ≠ key := fun equality => same equality.symm
        simpa [get?, names, same, other] using induction

theorem get?_isSome_iff {entries : Entries α} {name : String} :
    (entries.get? name).isSome ↔ name ∈ entries.names := by
  rw [Option.isSome_iff_ne_none, ne_eq, get?_eq_none_iff, Classical.not_not]

theorem get?_append (left right : Entries α) (name : String) :
    get? (left ++ right) name = (left.get? name).or (right.get? name) := by
  induction left with
  | nil => simp [get?]
  | cons entry left induction =>
      obtain ⟨key, value⟩ := entry
      by_cases same : key = name
      · simp [get?, same]
      · simpa [get?, same] using induction

/-- The thing under a name that stands for one thing only. -/
theorem get?_of_mem {entries : Entries α} (distinct : entries.names.Nodup) {name : String}
    {value : α} (member : (name, value) ∈ entries) : entries.get? name = some value := by
  induction entries with
  | nil => simp at member
  | cons entry entries induction =>
      obtain ⟨key, first⟩ := entry
      simp only [names, List.map_cons, List.nodup_cons] at distinct
      rcases List.mem_cons.mp member with same | later
      · cases same
        simp [get?]
      · have other : key ≠ name := by
          intro equality
          subst equality
          exact distinct.1 (List.mem_map.mpr ⟨_, later, rfl⟩)
        simpa [get?, other] using induction distinct.2 later

theorem mem_of_get? {entries : Entries α} {name : String} {value : α}
    (found : entries.get? name = some value) : (name, value) ∈ entries := by
  induction entries with
  | nil => cases found
  | cons entry entries induction =>
      obtain ⟨key, first⟩ := entry
      rw [get?] at found
      split at found
      · next same =>
          cases found
          rw [same]
          exact List.mem_cons_self
      · exact List.mem_cons_of_mem _ (induction found)

/-- Every entry is found in the larger entries. -/
def Extends (larger entries : Entries α) : Prop :=
  ∀ name value, (name, value) ∈ entries → larger.get? name = some value

theorem Extends.refl {entries : Entries α} (distinct : entries.names.Nodup) :
    Extends entries entries :=
  fun _ _ member => get?_of_mem distinct member

theorem Extends.left {larger left right : Entries α} (extended : larger.Extends (left ++ right)) :
    larger.Extends left :=
  fun name value member => extended name value (List.mem_append_left right member)

theorem Extends.right {larger left right : Entries α} (extended : larger.Extends (left ++ right)) :
    larger.Extends right :=
  fun name value member => extended name value (List.mem_append_right left member)

@[simp] theorem get?_put_self (entries : Entries α) (name : String) (value : α) :
    (entries.put name value).get? name = some value := by
  induction entries with
  | nil => simp [put, get?]
  | cons entry entries induction =>
      obtain ⟨key, old⟩ := entry
      by_cases same : key = name
      · simp [put, get?, same]
      · simpa [put, get?, same] using induction

theorem get?_put_of_ne (entries : Entries α) {name other : String} (different : other ≠ name)
    (value : α) : (entries.put name value).get? other = entries.get? other := by
  induction entries with
  | nil => simp [put, get?, Ne.symm different]
  | cons entry entries induction =>
      obtain ⟨key, old⟩ := entry
      by_cases same : key = name
      · simp [put, get?, same, Ne.symm different]
      · by_cases found : key = other
        · subst key
          simp [put, get?, different]
        · simpa [put, get?, same, found] using induction

@[simp] theorem get?_remove_self (entries : Entries α) (name : String) :
    (entries.remove name).get? name = none := by
  rw [get?_eq_none_iff]
  simp [names, remove]

theorem get?_remove_of_ne (entries : Entries α) {name other : String}
    (different : other ≠ name) : (entries.remove name).get? other = entries.get? other := by
  induction entries with
  | nil => rfl
  | cons entry entries induction =>
      obtain ⟨key, value⟩ := entry
      rw [remove] at induction ⊢
      by_cases same : key = name
      · simpa [get?, same, Ne.symm different] using induction
      · by_cases found : key = other
        · subst key
          simp [get?, different]
        · simpa [get?, same, found] using induction

theorem mem_put {entries : Entries α} {name other : String} {value otherValue : α}
    (member : (other, otherValue) ∈ entries.put name value) :
    (other, otherValue) ∈ entries ∨ other = name ∧ otherValue = value := by
  induction entries with
  | nil => simpa [put] using member
  | cons entry entries induction =>
      obtain ⟨key, old⟩ := entry
      rw [put] at member
      split at member
      · rcases List.mem_cons.mp member with same | later
        · cases same
          exact Or.inr ⟨rfl, rfl⟩
        · exact Or.inl (List.mem_cons_of_mem _ later)
      · rcases List.mem_cons.mp member with same | later
        · cases same
          exact Or.inl List.mem_cons_self
        · exact (induction later).imp_left (List.mem_cons_of_mem _)

/-- Replacing a thing keeps the order of names. -/
theorem names_put_of_mem {entries : Entries α} {name : String} (value : α)
    (present : name ∈ entries.names) : (entries.put name value).names = entries.names := by
  induction entries with
  | nil => cases present
  | cons entry entries induction =>
      obtain ⟨key, old⟩ := entry
      rw [put]
      split
      · next same => rw [names, List.map_cons, names, List.map_cons, same]
      · next other =>
          have later : name ∈ names entries := by
            rcases List.mem_cons.mp present with same | later
            · exact absurd same.symm other
            · exact later
          exact congrArg (key :: ·) (induction later)

/-- Replacing a thing by itself changes nothing. -/
theorem put_of_get? {entries : Entries α} {name : String} {value : α}
    (found : entries.get? name = some value) : entries.put name value = entries := by
  induction entries with
  | nil => cases found
  | cons entry entries induction =>
      obtain ⟨key, old⟩ := entry
      rw [get?] at found
      rw [put]
      split at found
      · next same =>
          cases found
          rw [if_pos same, same]
      · next other => rw [if_neg other, induction found]

theorem put_of_not_mem {entries : Entries α} {name : String} (value : α)
    (absent : name ∉ entries.names) : entries.put name value = entries ++ [(name, value)] := by
  induction entries with
  | nil => rfl
  | cons entry entries induction =>
      obtain ⟨key, old⟩ := entry
      simp only [names, List.map_cons, List.mem_cons, not_or] at absent
      rw [put, if_neg fun same => absent.1 same.symm]
      exact congrArg ((key, old) :: ·) (induction absent.2)

/-- A thing is replaced in the first of two lists if its name is there. -/
theorem put_append_of_mem {left : Entries α} (right : Entries α) {name : String} (value : α)
    (present : name ∈ left.names) :
    put (left ++ right) name value = left.put name value ++ right := by
  induction left with
  | nil => cases present
  | cons entry left induction =>
      obtain ⟨key, old⟩ := entry
      rw [List.cons_append, put, put]
      split
      · rfl
      · next other =>
          have later : name ∈ names left := by
            rcases List.mem_cons.mp present with same | later
            · exact absurd same.symm other
            · exact later
          exact congrArg ((key, old) :: ·) (induction later)

theorem names_put_of_not_mem {entries : Entries α} {name : String} (value : α)
    (absent : name ∉ entries.names) :
    (entries.put name value).names = entries.names ++ [name] := by
  rw [put_of_not_mem value absent, names, List.map_append]
  rfl

theorem nodup_put {entries : Entries α} {name : String} {value : α}
    (distinct : entries.names.Nodup) : (entries.put name value).names.Nodup := by
  by_cases present : name ∈ entries.names
  · rw [names_put_of_mem value present]
    exact distinct
  · rw [names_put_of_not_mem value present]
    refine List.nodup_append.mpr ⟨distinct, by simp, ?_⟩
    intro other listed added isAdded same
    rw [List.mem_singleton.mp isAdded] at same
    exact present (same ▸ listed)

theorem remove_of_not_mem {entries : Entries α} {name : String} (absent : name ∉ entries.names) :
    entries.remove name = entries := by
  rw [remove, List.filter_eq_self]
  intro entry member
  simp only [ne_eq, decide_not, Bool.not_eq_true', decide_eq_false_iff_not]
  rintro rfl
  exact absent (List.mem_map_of_mem member)

theorem nodup_remove {entries : Entries α} {name : String} (distinct : entries.names.Nodup) :
    (entries.remove name).names.Nodup := by
  have kept : List.Sublist (entries.remove name) entries := List.filter_sublist
  exact distinct.sublist (kept.map Prod.fst)

theorem get?_foldl_remove (entries : Entries α) (dropped : List String) (name : String) :
    (dropped.foldl remove entries).get? name =
      if name ∈ dropped then none else entries.get? name := by
  induction dropped generalizing entries with
  | nil => rfl
  | cons first dropped induction =>
      rw [List.foldl_cons, induction]
      by_cases later : name ∈ dropped
      · simp [later]
      · by_cases same : name = first
        · simp [same]
        · simp [later, same, get?_remove_of_ne entries same]

theorem nodup_foldl_remove {entries : Entries α} (dropped : List String)
    (distinct : entries.names.Nodup) : (dropped.foldl remove entries).names.Nodup := by
  induction dropped generalizing entries with
  | nil => exact distinct
  | cons first dropped induction => exact induction (nodup_remove distinct)

/-- Entries that hold every name once replace what they are put over. -/
theorem get?_putAll (entries : Entries α) {added : Entries α} (distinct : added.names.Nodup)
    (name : String) :
    (entries.putAll added).get? name = (added.get? name).or (entries.get? name) := by
  induction added generalizing entries with
  | nil => rfl
  | cons entry added induction =>
      obtain ⟨key, value⟩ := entry
      rw [names, List.map_cons, List.nodup_cons] at distinct
      have step := induction (entries.put key value) distinct.2
      rw [putAll] at step
      rw [putAll, List.foldl_cons, step, get?]
      split
      · next same =>
          subst same
          have unseen : get? added key = none := get?_eq_none_iff.mpr distinct.1
          rw [unseen, get?_put_self]
          rfl
      · next other => rw [get?_put_of_ne entries fun same => other same.symm]

theorem names_map {β : Type} (entries : Entries α) (change : String → α → β) :
    names (entries.map fun entry => (entry.1, change entry.1 entry.2)) = entries.names := by
  simp [names]

theorem get?_map {β : Type} (entries : Entries α) (change : String → α → β) (name : String) :
    get? (entries.map fun entry => (entry.1, change entry.1 entry.2)) name =
      (entries.get? name).map (change name) := by
  induction entries with
  | nil => rfl
  | cons entry entries induction =>
      obtain ⟨key, value⟩ := entry
      rw [List.map_cons, get?, get?]
      split
      · next same => rw [same, Option.map_some]
      · exact induction

theorem get?_bind (entries : Entries α) (name other : String) (value : α) :
    (entries.bind name value).get? other =
      (entries.get? other).or (get? [(name, value)] other) := by
  unfold bind
  split
  · next present =>
      by_cases same : name = other
      · subst same
        rw [contains] at present
        simp [Option.or_of_isSome present]
      · simp [get?, same]
  · exact get?_append entries [(name, value)] other

theorem get?_bindAll (entries added : Entries α) (name : String) :
    (entries.bindAll added).get? name = (entries.get? name).or (added.get? name) := by
  induction added generalizing entries with
  | nil => simp [bindAll, get?]
  | cons entry added induction =>
      obtain ⟨key, value⟩ := entry
      have step := induction (entries.bind key value)
      rw [bindAll] at step
      rw [bindAll, List.foldl_cons, step, get?_bind, Option.or_assoc, ← get?_append]
      rfl

/-- The first of several entries that has a name is the one that counts. -/
theorem get?_foldl_bindAll (start : Entries α) (several : List (Entries α)) (name : String) :
    (several.foldl bindAll start).get? name =
      (start.get? name).or (several.findSome? fun entries => entries.get? name) := by
  induction several generalizing start with
  | nil => simp
  | cons first several induction =>
      rw [List.foldl_cons, induction (start.bindAll first), get?_bindAll, Option.or_assoc,
        List.findSome?_cons]
      cases first.get? name <;> rfl

/-- Adding entries one after another appends them, if no name is there twice and an absent
name is appended. -/
theorem foldl_of_nodup (add : Entries α → String → α → Entries α)
    (appends : ∀ (entries : Entries α) (name : String) (value : α), name ∉ entries.names →
      add entries name value = entries ++ [(name, value)])
    {entries added : Entries α} (distinct : (names (entries ++ added)).Nodup) :
    added.foldl (fun entries entry => add entries entry.1 entry.2) entries = entries ++ added := by
  induction added generalizing entries with
  | nil => exact (List.append_nil entries).symm
  | cons entry added induction =>
      obtain ⟨name, value⟩ := entry
      have absent : name ∉ entries.names := by
        intro present
        rw [names, List.map_append, List.nodup_append] at distinct
        exact distinct.2.2 name present name (by simp) rfl
      have longer : (names (entries ++ [(name, value)] ++ added)).Nodup := by
        simpa using distinct
      have step := induction longer
      rw [List.foldl_cons, appends entries name value absent, step, List.append_assoc,
        List.singleton_append]

theorem putAll_of_nodup {entries added : Entries α} (distinct : (names (entries ++ added)).Nodup) :
    entries.putAll added = entries ++ added :=
  foldl_of_nodup put (fun _ _ value absent => put_of_not_mem value absent) distinct

theorem bind_of_not_mem {entries : Entries α} {name : String} (value : α)
    (absent : name ∉ entries.names) : entries.bind name value = entries ++ [(name, value)] := by
  have missing : entries.contains name = false := by
    rw [contains, get?_eq_none_iff.mpr absent]
    rfl
  simp [bind, missing]

theorem bindAll_of_nodup {entries added : Entries α}
    (distinct : (names (entries ++ added)).Nodup) : entries.bindAll added = entries ++ added :=
  foldl_of_nodup bind (fun _ _ value absent => bind_of_not_mem value absent) distinct

/-- Putting entries that hold every name once gives the entries themselves. -/
theorem ofList_of_nodup {entries : Entries α} (distinct : entries.names.Nodup) :
    ofList entries = entries :=
  putAll_of_nodup distinct

theorem get?_eq_some_iff {entries : Entries α} (distinct : entries.names.Nodup) {name : String}
    {thing : α} : entries.get? name = some thing ↔ (name, thing) ∈ entries :=
  ⟨mem_of_get?, get?_of_mem distinct⟩

/-- The order of entries that hold every name once does not matter to lookups. -/
theorem get?_of_perm {entries others : Entries α} (permutation : others.Perm entries)
    (distinct : entries.names.Nodup) (name : String) : others.get? name = entries.get? name := by
  have namesPerm : others.names.Perm entries.names := permutation.map Prod.fst
  refine Option.ext fun thing => ?_
  rw [get?_eq_some_iff distinct, get?_eq_some_iff (namesPerm.nodup_iff.mpr distinct),
    permutation.mem_iff]

end ItemTable.Entries
