import ClassTidy.Config.Value

/-!
# Equality of values

Values are compared part by part, and mappings in the order of their keys, so it can be computed
whether two documents are the same.
-/

set_option autoImplicit false

namespace ClassTidy.Value

mutual

def isEqual : Value → Value → Bool
  | null, null => true
  | bool value, bool other => value == other
  | number value, number other => decide (value = other)
  | text value, text other => value == other
  | list items, list others => areEqual items others
  | mapping entries, mapping others => areEntriesEqual entries others
  | enclosing shape, enclosing other => decide (shape = other)
  | _, _ => false

def areEqual : List Value → List Value → Bool
  | [], [] => true
  | value :: rest, other :: others => value.isEqual other && areEqual rest others
  | _, _ => false

def areEntriesEqual : List (Text × Value) → List (Text × Value) → Bool
  | [], [] => true
  | (key, value) :: rest, (otherKey, other) :: others =>
    key == otherKey && (value.isEqual other && areEntriesEqual rest others)
  | _, _ => false

end

mutual

theorem isEqual_iff (value other : Value) : value.isEqual other = true ↔ value = other := by
  cases value with
  | list items => cases other <;> simp [isEqual, areEqual_iff items]
  | mapping entries => cases other <;> simp [isEqual, areEntriesEqual_iff entries]
  | _ => cases other <;> simp [isEqual]

theorem areEqual_iff (items others : List Value) :
    areEqual items others = true ↔ items = others := by
  cases items with
  | nil => cases others <;> simp [areEqual]
  | cons value rest => cases others <;> simp [areEqual, isEqual_iff value, areEqual_iff rest]

theorem areEntriesEqual_iff (entries others : List (Text × Value)) :
    areEntriesEqual entries others = true ↔ entries = others := by
  cases entries with
  | nil => cases others <;> simp [areEntriesEqual]
  | cons entry rest =>
    obtain ⟨key, value⟩ := entry
    cases others with
    | nil => simp [areEntriesEqual]
    | cons entry others =>
      obtain ⟨otherKey, other⟩ := entry
      simp [areEntriesEqual, isEqual_iff value, areEntriesEqual_iff rest, and_assoc]

end

instance : DecidableEq Value := fun value other => decidable_of_iff _ (isEqual_iff value other)

end ClassTidy.Value
