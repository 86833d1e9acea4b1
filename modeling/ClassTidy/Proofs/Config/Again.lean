import ClassTidy.Proofs.Config.Stacked

/-!
# The same update again

An update whose canonical orders have no repeats changes nothing when it is laid over what it came
to before. The second time a mapping may be laid over itself, and an order added to itself, where
the first time something else stood or nothing did.
-/

set_option autoImplicit false

namespace ClassTidy

namespace Value

/-- Whether values can be compared, and no two of them are equal. -/
structure Unrepeated (members : List Value) : Prop where
  comparable : Comparable members
  apart : members.Pairwise fun a b => a.same b = false

theorem Unrepeated.distinct_eq_self {members : List Value} (unrepeated : Unrepeated members) :
    distinct members = members :=
  distinctFrom_eq_self unrepeated.apart

/-- Values add nothing to distinct ones of which they were some before. -/
theorem Comparable.distinct_append_subset {members values : List Value}
    (comparable : Comparable members) (subset : members ⊆ values) :
    Value.distinct (Value.distinct values ++ members) = Value.distinct values := by
  have known : ∀ member ∈ members, (Value.distinct values).any (·.same member) = true := by
    intro member isMember
    rw [any_same_distinct]
    have keyed := key?_isSome_iff.mpr (comparable member isMember)
    exact List.any_eq_true.mpr ⟨member, subset isMember, same_self keyed⟩
  rw [distinct_append, distinct_distinct, distinctFrom_eq_nil known, List.append_nil]

end Value

theorem addOrder_distinct {members values : List Value} (comparable : Value.Comparable members)
    (subset : members ⊆ values) (simple : values.any (·.isCompound) = false) :
    addOrder (Value.distinct values) members = .ok (.list (Value.distinct values)) := by
  refine addOrder_eq_ok.mpr ⟨?_, ?_⟩
  · rw [List.any_append, Value.any_isCompound_distinct simple, comparable.any_isCompound]
    rfl
  · rw [comparable.distinct_append_subset subset]

/-- What a canonical order comes to does not change when the order is added again. -/
theorem Value.layer_list_again {key : Text} {old : Option Value} {members : List Value}
    {new : Value} (unrepeated : key = classOrderKey → Unrepeated members)
    (laid : Value.layer key old (.list members) = .ok new) :
    Value.layer key (some new) (.list members) = .ok new := by
  by_cases order : key = classOrderKey
  · subst order
    have isOrder := unrepeated rfl
    by_cases added : ∃ below, old = some (.list below)
    · obtain ⟨below, rfl⟩ := added
      rw [Value.layer_order] at laid
      obtain ⟨simple, rfl⟩ := addOrder_eq_ok.mp laid
      rw [Value.layer_order]
      exact addOrder_distinct isOrder.comparable (List.subset_append_right below members) simple
    · have replaces : Value.layer classOrderKey old (.list members) = .ok (.list members) :=
        Value.layer_replaces nofun fun _ below _ held => (added ⟨below, held⟩).elim
      cases replaces.symm.trans laid
      have again := addOrder_distinct isOrder.comparable (List.Subset.refl members)
        isOrder.comparable.any_isCompound
      rwa [isOrder.distinct_eq_self, ← Value.layer_order] at again
  · rw [Value.layer_of_other rfl fun isOrder => (order isOrder).elim] at laid ⊢
    cases laid
    rfl

theorem Value.layer_value_again {update : Value} (distinct : update.DistinctKeys) {key : Text}
    {old : Option Value} {new : Value}
    (order : key = classOrderKey → ∀ members, update = .list members → Unrepeated members)
    (within : ∀ inner, update = .mapping inner → Mapping.EveryOrder Unrepeated inner)
    (laid : Value.layer key old update = .ok new) :
    Value.layer key (some new) update = .ok new := by
  induction distinct generalizing key old new with
  | list => exact Value.layer_list_again (fun isOrder => order isOrder _ rfl) laid
  | @mapping outer keysDistinct _ ih =>
    obtain ⟨orders, deeper⟩ := Mapping.everyOrder_iff.mp (within outer rfl)
    have again {entry : Text × Value} (member : entry ∈ outer) {below : Option Value}
        {above : Value} (entryLaid : Value.layer entry.1 below entry.2 = .ok above) :
        Value.layer entry.1 (some above) entry.2 = .ok above := by
      have held := Mapping.get?_of_mem keysDistinct member
      refine ih entry member ?_ ?_ entryLaid
      · intro isOrder members isList
        exact orders members (isOrder ▸ isList ▸ held)
      · intro inner isMapping
        exact deeper entry.1 inner (isMapping ▸ held)
    by_cases both : ∃ inner, old = some (.mapping inner)
    · obtain ⟨inner, rfl⟩ := both
      rw [Value.layer_mapping] at laid
      obtain ⟨merged, merges, rfl⟩ := map_eq_ok.mp laid
      rw [Value.layer_mapping, Mapping.layer_eq_self]
      · rfl
      · intro entry member
        obtain ⟨above, entryLaid, read⟩ :=
          Mapping.get?_layer keysDistinct (Mapping.get?_of_mem keysDistinct member) merges
        exact ⟨above, read, again member entryLaid⟩
    · have replaces : Value.layer key old (.mapping outer) = .ok (.mapping outer) :=
        Value.layer_replaces (fun inner _ held => (both ⟨inner, held⟩).elim) fun _ _ _ _ => nofun
      cases replaces.symm.trans laid
      rw [Value.layer_mapping, Mapping.layer_eq_self]
      · rfl
      · intro entry member
        have overNothing := Value.layer_none entry.1 entry.2
        exact ⟨entry.2, Mapping.get?_of_mem keysDistinct member, again member overNothing⟩
  | _ => cases laid; rfl

/-- An update without repeats in its canonical orders changes nothing when it is laid over its own
result. -/
theorem Mapping.layer_again {base update merged : Mapping}
    (distinct : (Value.mapping update).DistinctKeys)
    (unrepeated : EveryOrder Value.Unrepeated update)
    (laid : Mapping.layer base update = .ok merged) : Mapping.layer merged update = .ok merged := by
  have root : Value.layer [] (some (.mapping base)) (.mapping update) = .ok (.mapping merged) :=
    Value.layer_mapping_eq_ok.mpr laid
  have within : ∀ inner, Value.mapping update = .mapping inner →
      EveryOrder Value.Unrepeated inner := by
    rintro _ ⟨⟩
    exact unrepeated
  exact Value.layer_mapping_eq_ok.mp
    (Value.layer_value_again distinct (fun _ _ => nofun) within root)

/-- The second time, the mapping at the first key is laid over itself, and the order in it is added
to itself. -/
theorem Mapping.layer_again_nested :
    let order : Mapping := [(classOrderKey, .list [.text ['x'], .number (.int 1)])]
    let base : Mapping := [(['a'], .text ['x']), (classOrderKey, .list [.bool true])]
    let update := (['a'], .mapping order) :: order
    let merged : Mapping :=
      [(['a'], .mapping order), (classOrderKey, .list [.bool true, .text ['x']])]
    (Value.mapping update).DistinctKeys ∧ EveryOrder Value.Unrepeated update ∧
      Mapping.layer base update = .ok merged ∧ Mapping.layer merged update = .ok merged := by
  intro order base update merged
  have members : (Value.list [.text ['x'], .number (.int 1)]).DistinctKeys :=
    .list (by simp [Value.DistinctKeys.text, Value.DistinctKeys.number])
  have inner : (Value.mapping order).DistinctKeys :=
    .mapping (List.nodup_singleton _) (List.forall_mem_singleton.mpr members)
  have distinct : (Value.mapping update).DistinctKeys :=
    .mapping (by decide) (List.forall_mem_cons.mpr ⟨inner, List.forall_mem_singleton.mpr members⟩)
  have unrepeated : Value.Unrepeated [.text ['x'], .number (.int 1)] :=
    ⟨by decide, by decide⟩
  have orderUnrepeated : EveryOrder Value.Unrepeated order := by
    refine everyOrder_iff.mpr ⟨?_, fun key inner held => ?_⟩
    · rintro _ ⟨⟩
      exact unrepeated
    · cases List.mem_singleton.mp (mem_of_get? held)
  have every : EveryOrder Value.Unrepeated update := by
    refine everyOrder_iff.mpr ⟨?_, fun key inner held => ?_⟩
    · rintro _ ⟨⟩
      exact unrepeated
    · rcases List.mem_cons.mp (mem_of_get? held) with same | later
      · cases same
        exact orderUnrepeated
      · cases List.mem_singleton.mp later
  have laid : Mapping.layer base update = .ok merged := by rfl
  exact ⟨distinct, every, laid, layer_again distinct every laid⟩

end ClassTidy
