import ItemTable.Proofs.Entries
import ItemTable.Value.Basic

/-!
# Laws of values

A document that is built by insertion holds every name once, and so do the documents
inside its values.  `isDistinct` says so of a value at every depth.
-/

namespace ItemTable.Value

theorem isNull_iff {value : Value} : value.isNull = true ↔ value = .null := by
  cases value <;> simp [isNull]

mutual

/-- Whether every document inside a value holds a name once. -/
def isDistinct : Value → Bool
  | list items => areDistinct items
  | map fields => decide (Entries.names fields).Nodup && haveDistinct fields
  | _ => true

/-- Whether the documents inside the items hold a name once. -/
def areDistinct : List Value → Bool
  | [] => true
  | item :: rest => isDistinct item && areDistinct rest

/-- Whether the documents inside the fields hold a name once. -/
def haveDistinct : List (String × Value) → Bool
  | [] => true
  | (_, value) :: rest => isDistinct value && haveDistinct rest

end

variable {document : Document} {name : String} {value : Value}

theorem isDistinct_list {items : List Value} :
    (list items).isDistinct = true ↔ ∀ item ∈ items, item.isDistinct = true := by
  rw [isDistinct]
  induction items with
  | nil => simp [areDistinct]
  | cons item items induction => simp [areDistinct, induction]

theorem isDistinct_map :
    (map document).isDistinct = true ↔
      document.names.Nodup ∧ ∀ name value, (name, value) ∈ document → value.isDistinct = true := by
  have each : haveDistinct document = true ↔
      ∀ name value, (name, value) ∈ document → value.isDistinct = true := by
    induction document with
    | nil => simp [haveDistinct]
    | cons entry document induction =>
        obtain ⟨name, value⟩ := entry
        simp only [haveDistinct, Bool.and_eq_true, induction, List.mem_cons, Prod.mk.injEq]
        constructor
        · rintro ⟨here, later⟩ other otherValue (⟨rfl, rfl⟩ | member)
          · exact here
          · exact later other otherValue member
        · intro all
          exact ⟨all name value (Or.inl ⟨rfl, rfl⟩),
            fun other otherValue member => all other otherValue (Or.inr member)⟩
  rw [isDistinct, Bool.and_eq_true, decide_eq_true_eq, each]

theorem isDistinct_of_get? (distinct : (map document).isDistinct = true)
    (found : document.get? name = some value) : value.isDistinct = true :=
  (isDistinct_map.mp distinct).2 name value (Entries.mem_of_get? found)

theorem isDistinct_put (distinct : (map document).isDistinct = true)
    (added : value.isDistinct = true) : (map (document.put name value)).isDistinct = true := by
  rw [isDistinct_map] at distinct ⊢
  refine ⟨Entries.nodup_put distinct.1, ?_⟩
  intro other otherValue member
  rcases Entries.mem_put member with kept | ⟨-, rfl⟩
  · exact distinct.2 other otherValue kept
  · exact added

theorem isDistinct_remove (distinct : (map document).isDistinct = true) :
    (map (document.remove name)).isDistinct = true := by
  rw [isDistinct_map] at distinct ⊢
  have kept : List.Sublist (document.remove name) document := List.filter_sublist
  exact ⟨Entries.nodup_remove distinct.1,
    fun other otherValue member => distinct.2 other otherValue (kept.subset member)⟩

end ItemTable.Value
