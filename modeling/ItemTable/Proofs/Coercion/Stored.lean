import ItemTable.Coercion.Stored
import ItemTable.Proofs.Outcome
import ItemTable.Proofs.Value

/-!
# Stored values of properties without transforms

Without code of the user, a value that is no date is stored and read as it is.  A date
property stores instants only, each in the form of its format, and reads every value
that denotes an instant.
-/

namespace ItemTable.PropertyTraits

variable {traits : PropertyTraits} {value stored result : Value}

theorem store_of_ne_date (unset : traits.set = none) (notDate : traits.type ≠ .date) :
    traits.store value = .ok value := by
  rw [store, unset]
  split
  · rfl
  · change storeType traits.type traits.format value = .ok value
    rw [storeType]
    exact notDate

theorem store_eq_ok_iff_of_date (unset : traits.set = none) (isDate : traits.type = .date) :
    traits.store value = .ok stored ↔
      (value = .null ∧ stored = .null) ∨
        ∃ instant, value = .date instant ∧ stored = instant.toStored traits.format := by
  rw [store, unset]
  cases value with
  | null => simp [Value.isNull, eq_comm]
  | date instant =>
      simp [Value.isNull, transform, isDate, storeType, storeDate, bind, Except.bind, eq_comm]
  | _ => simp [Value.isNull, transform, isDate, storeType, storeDate, bind, Except.bind]

/-- A value that is stored without code of the user is null if it was null before. -/
theorem isNull_store (unset : traits.set = none) (stores : traits.store value = .ok stored) :
    stored.isNull = value.isNull := by
  by_cases isDate : traits.type = .date
  · rcases (store_eq_ok_iff_of_date unset isDate).mp stores with
      ⟨rfl, rfl⟩ | ⟨instant, rfl, rfl⟩
    · rfl
    · cases traits.format <;> rfl
  · rw [store_of_ne_date unset isDate] at stores
    cases stores
    rfl

theorem load_of_ne_date (unget : traits.get = none) (notDate : traits.type ≠ .date) :
    traits.load value = .ok value := by
  rw [load, unget]
  split
  · next isDate => exact absurd isDate notDate
  · rfl

theorem load_eq_ok_iff_of_date (unget : traits.get = none) (isDate : traits.type = .date) :
    traits.load value = .ok result ↔
      ∃ instant, value.toInstant? = some instant ∧ result = .date instant := by
  rw [load, unget, isDate]
  change loadDate value >>= transform .get none = .ok result ↔ _
  rw [bind_eq_ok_iff]
  simp only [transform, Except.ok.injEq]
  cases value with
  | date instant => simp [loadDate, Value.toInstant?, eq_comm]
  | number count =>
      rw [loadDate]
      cases (Value.number count).toInstant? <;> simp [eq_comm]
  | string text =>
      rw [loadDate]
      cases (Value.string text).toInstant? <;> simp [eq_comm]
  | _ => simp [loadDate, Value.toInstant?]

end ItemTable.PropertyTraits
