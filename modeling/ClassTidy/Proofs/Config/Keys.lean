import ClassTidy.Config.Value
import Mathlib.Data.List.Nodup

/-!
# Keys of mappings
-/

set_option autoImplicit false

namespace ClassTidy

namespace Mapping

def keys (mapping : Mapping) : List Text := mapping.map Prod.fst

theorem keys_cons (key : Text) (value : Value) (rest : Mapping) :
    keys ((key, value) :: rest) = key :: keys rest := rfl

theorem get?_cons (key present : Text) (value : Value) (rest : Mapping) :
    get? key ((present, value) :: rest) = if present = key then some value else get? key rest := rfl

theorem mem_of_get? {key : Text} {value : Value} {mapping : Mapping}
    (found : get? key mapping = some value) : (key, value) ∈ mapping := by
  induction mapping with
  | nil => cases found
  | cons entry rest ih =>
    obtain ⟨present, old⟩ := entry
    rw [get?_cons] at found
    split at found
    · next same =>
      cases found
      exact same ▸ List.mem_cons_self
    · exact List.mem_cons_of_mem _ (ih found)

theorem get?_eq_none_iff {key : Text} {mapping : Mapping} :
    get? key mapping = none ↔ key ∉ mapping.keys := by
  induction mapping with
  | nil => exact iff_of_true rfl (List.not_mem_nil)
  | cons entry rest ih =>
    obtain ⟨present, old⟩ := entry
    rw [get?_cons, keys, List.map_cons, List.mem_cons, not_or]
    split
    · next same => exact iff_of_false nofun fun other => other.1 same.symm
    · next other => exact ih.trans (and_iff_right fun same => other same.symm).symm

theorem get?_of_mem {key : Text} {value : Value} {mapping : Mapping}
    (distinct : mapping.keys.Nodup) (member : (key, value) ∈ mapping) :
    get? key mapping = some value := by
  induction mapping with
  | nil => cases member
  | cons entry rest ih =>
    obtain ⟨present, old⟩ := entry
    obtain ⟨fresh, restDistinct⟩ := List.nodup_cons.mp distinct
    rw [get?_cons]
    rcases List.mem_cons.mp member with same | later
    · cases same
      exact if_pos rfl
    · have other : present ≠ key := by
        rintro rfl
        exact fresh (List.mem_map.mpr ⟨_, later, rfl⟩)
      rw [if_neg other]
      exact ih restDistinct later

theorem get?_put (key other : Text) (value : Value) (mapping : Mapping) :
    get? other (put key value mapping) = if key = other then some value else get? other mapping := by
  induction mapping with
  | nil => rfl
  | cons entry rest ih =>
    obtain ⟨present, old⟩ := entry
    rw [put]
    split
    · next same =>
      subst same
      rw [get?_cons, get?_cons]
      split <;> rfl
    · next differs =>
      rw [get?_cons, ih, get?_cons]
      split
      · next same => rw [if_neg (same ▸ fun back => differs back.symm)]
      · rfl

theorem mem_put {key : Text} {value : Value} {mapping : Mapping} {entry : Text × Value}
    (member : entry ∈ put key value mapping) : entry = (key, value) ∨ entry ∈ mapping := by
  induction mapping with
  | nil => exact .inl (List.mem_singleton.mp member)
  | cons first rest ih =>
    obtain ⟨present, old⟩ := first
    rw [put] at member
    split at member
    · next same =>
      rcases List.mem_cons.mp member with rfl | later
      · exact .inl (same ▸ rfl)
      · exact .inr (List.mem_cons_of_mem _ later)
    · rcases List.mem_cons.mp member with rfl | later
      · exact .inr List.mem_cons_self
      · exact (ih later).imp_right (List.mem_cons_of_mem _)

theorem keys_put_nodup {key : Text} {value : Value} {mapping : Mapping}
    (distinct : mapping.keys.Nodup) : (put key value mapping).keys.Nodup := by
  induction mapping with
  | nil => exact List.nodup_singleton key
  | cons entry rest ih =>
    obtain ⟨present, old⟩ := entry
    obtain ⟨fresh, restDistinct⟩ := List.nodup_cons.mp distinct
    rw [put]
    split
    · exact distinct
    · next differs =>
      refine List.nodup_cons.mpr ⟨?_, ih restDistinct⟩
      intro present
      obtain ⟨entry, member, same⟩ := List.mem_map.mp present
      rcases mem_put member with rfl | later
      · exact differs same.symm
      · exact fresh (List.mem_map.mpr ⟨entry, later, same⟩)

/-- A key that has the value already keeps it. -/
theorem put_eq_self {key : Text} {value : Value} {mapping : Mapping}
    (held : get? key mapping = some value) : put key value mapping = mapping := by
  induction mapping with
  | nil => cases held
  | cons entry rest ih =>
    obtain ⟨present, old⟩ := entry
    rw [get?_cons] at held
    rw [put]
    split at held
    · next same =>
      cases held
      rw [if_pos same]
    · next other => rw [if_neg other, ih held]

theorem keys_put (key : Text) (value : Value) (mapping : Mapping) :
    (put key value mapping).keys =
      if key ∈ mapping.keys then mapping.keys else mapping.keys ++ [key] := by
  induction mapping with
  | nil => rfl
  | cons entry rest ih =>
    obtain ⟨present, old⟩ := entry
    rw [put]
    split
    · next same => simp [keys_cons, same]
    · next other =>
      simp only [keys_cons, List.mem_cons, Ne.symm other, false_or, ih]
      split <;> rfl

/-- A mapping is told by its keys in their order and by what is at each of them. -/
theorem eq_of_get? {mapping other : Mapping} (distinct : mapping.keys.Nodup)
    (sameKeys : mapping.keys = other.keys) (same : ∀ key, get? key mapping = get? key other) :
    mapping = other := by
  induction mapping generalizing other with
  | nil => exact (List.map_eq_nil_iff.mp sameKeys.symm).symm
  | cons entry rest ih =>
    obtain ⟨key, value⟩ := entry
    cases other with
    | nil => cases sameKeys
    | cons otherEntry otherRest =>
      obtain ⟨otherKey, otherValue⟩ := otherEntry
      rw [keys_cons, keys_cons] at sameKeys
      obtain ⟨rfl, restKeys⟩ := List.cons.inj sameKeys
      obtain ⟨fresh, restDistinct⟩ := List.nodup_cons.mp distinct
      have sameValue := same key
      rw [get?_cons, get?_cons, if_pos rfl, if_pos rfl] at sameValue
      cases sameValue
      refine congrArg ((key, value) :: ·) (ih restDistinct restKeys fun name => ?_)
      by_cases isFirst : name = key
      · subst isFirst
        rw [get?_eq_none_iff.mpr fresh, get?_eq_none_iff.mpr]
        exact restKeys ▸ fresh
      · have later := same name
        rwa [get?_cons, get?_cons, if_neg (Ne.symm isFirst), if_neg (Ne.symm isFirst)] at later

end Mapping

/-- No key occurs twice in a mapping, also not in one that is a part of the value. -/
inductive Value.DistinctKeys : Value → Prop where
  | null : DistinctKeys .null
  | bool {value : Bool} : DistinctKeys (.bool value)
  | number {value : Number} : DistinctKeys (.number value)
  | text {value : Text} : DistinctKeys (.text value)
  | list {items : List Value} : (∀ item ∈ items, DistinctKeys item) → DistinctKeys (.list items)
  | mapping {entries : Mapping} : entries.keys.Nodup → (∀ entry ∈ entries, DistinctKeys entry.2) →
      DistinctKeys (.mapping entries)
  | enclosing {shape : Shape} : DistinctKeys (.enclosing shape)

namespace Value.DistinctKeys

theorem entries {entries : Mapping} (distinct : DistinctKeys (.mapping entries)) :
    entries.keys.Nodup ∧ ∀ entry ∈ entries, entry.2.DistinctKeys := by
  cases distinct with
  | mapping keysDistinct values => exact ⟨keysDistinct, values⟩

theorem put {mapping : Mapping} (held : DistinctKeys (.mapping mapping)) (key : Text)
    {value : Value} (distinct : value.DistinctKeys) :
    DistinctKeys (.mapping (mapping.put key value)) := by
  cases held with
  | mapping keysDistinct values =>
    refine .mapping (Mapping.keys_put_nodup keysDistinct) ?_
    intro entry member
    rcases Mapping.mem_put member with rfl | earlier
    · exact distinct
    · exact values entry earlier

theorem ofEntries {entries : List (Text × Value)} (values : ∀ entry ∈ entries, entry.2.DistinctKeys) :
    DistinctKeys (.mapping (Mapping.ofEntries entries)) :=
  List.foldlRecOn (motive := fun mapping => DistinctKeys (.mapping mapping)) entries _
    (.mapping List.nodup_nil (List.forall_mem_nil _))
    fun _ held added member => held.put added.1 (values added member)

end Value.DistinctKeys

end ClassTidy
