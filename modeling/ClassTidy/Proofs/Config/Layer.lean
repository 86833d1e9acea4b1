import ClassTidy.Config.Layer
import ClassTidy.Proofs.Config.Distinct
import ClassTidy.Proofs.Config.Keys
import ClassTidy.Proofs.Steps

/-!
# Layers of a configuration

Where no key occurs twice in an update, each of its entries is laid over what the configuration
below has at that key, and over nothing else. Only the members of a canonical order can be at fault,
so an update is refused if it adds members that are lists or mappings to one.
-/

set_option autoImplicit false

namespace ClassTidy

theorem Value.layer_mapping (key : Text) (entries update : Mapping) :
    Value.layer key (some (.mapping entries)) (.mapping update) =
      Value.mapping <$> Mapping.layer entries update := by
  rw [Value.layer]

theorem Value.layer_mapping_eq_ok {key : Text} {entries update merged : Mapping} :
    Value.layer key (some (.mapping entries)) (.mapping update) = .ok (.mapping merged) ↔
      Mapping.layer entries update = .ok merged := by
  rw [Value.layer_mapping, map_eq_ok]
  simp

/-- A mapping is laid over a mapping, and anything else takes its place. -/
theorem Value.layer_over_mapping {key : Text} {entries : Mapping} {update new : Value}
    (laid : Value.layer key (some (.mapping entries)) update = .ok new) :
    (∃ above merged, update = .mapping above ∧ new = .mapping merged ∧
        Mapping.layer entries above = .ok merged) ∨
      (∀ above, update ≠ .mapping above) ∧ new = update := by
  cases update with
  | mapping above =>
    obtain ⟨merged, merges, rfl⟩ := map_eq_ok.mp (Value.layer_mapping key entries above ▸ laid)
    exact .inl ⟨above, merged, rfl, rfl, merges⟩
  | _ =>
    cases laid
    exact .inr ⟨nofun, rfl⟩

/-- A value takes the place of what it is laid over, unless both are mappings or canonical orders. -/
theorem Value.layer_replaces {key : Text} {old : Option Value} {new : Value}
    (notMappings : ∀ inner outer, old = some (.mapping inner) → new ≠ .mapping outer)
    (notOrders : key = classOrderKey → ∀ members added, old = some (.list members) →
      new ≠ .list added) :
    Value.layer key old new = .ok new := by
  cases new with
  | mapping outer =>
    unfold Value.layer
    split
    next inner => exact absurd rfl (notMappings inner outer rfl)
    next => rfl
  | list added =>
    unfold Value.layer
    split
    next members =>
      by_cases order : key = classOrderKey
      · exact absurd rfl (notOrders order members added rfl)
      · rw [if_neg order]
    next => rfl
  | _ => rfl

/-- Anything takes the place of a value without parts. -/
theorem Value.layer_of_simple {key : Text} {old : Option Value}
    (simple : ∀ value ∈ old, value.isCompound = false) (update : Value) :
    Value.layer key old update = .ok update := by
  apply Value.layer_replaces
  · intro inner outer below
    cases simple _ below
  · intro _ members added below
    cases simple _ below

theorem Value.layer_none (key : Text) (update : Value) : Value.layer key none update = .ok update := by
  cases update <;> rfl

namespace Mapping

theorem layer_cons {base : Mapping} {key : Text} {value : Value} {rest : List (Text × Value)}
    {result : Mapping} :
    Mapping.layer base ((key, value) :: rest) = .ok result ↔
      ∃ layered, Value.layer key (get? key base) value = .ok layered ∧
        Mapping.layer (put key layered base) rest = .ok result := by
  rw [Mapping.layer]
  exact bind_eq_ok

/-- A key that is not in the update keeps its value. -/
theorem get?_layer_of_not_mem {base result : Mapping} {update : List (Text × Value)} {key : Text}
    (absent : get? key update = none) (layered : Mapping.layer base update = .ok result) :
    get? key result = get? key base := by
  induction update generalizing base with
  | nil =>
    rw [Mapping.layer] at layered
    cases layered
    rfl
  | cons entry rest ih =>
    obtain ⟨present, value⟩ := entry
    obtain ⟨new, -, restLayered⟩ := layer_cons.mp layered
    rw [get?_cons] at absent
    split at absent
    · cases absent
    · next other =>
      rw [ih absent restLayered, get?_put, if_neg other]

/-- A key of the update gets what its value comes to, laid over the one below. -/
theorem get?_layer {base result : Mapping} {update : List (Text × Value)} {key : Text}
    {value : Value} (distinct : (keys update).Nodup) (found : get? key update = some value)
    (layered : Mapping.layer base update = .ok result) :
    ∃ new, Value.layer key (get? key base) value = .ok new ∧ get? key result = some new := by
  induction update generalizing base with
  | nil => cases found
  | cons entry rest ih =>
    obtain ⟨present, held⟩ := entry
    obtain ⟨new, here, restLayered⟩ := layer_cons.mp layered
    obtain ⟨fresh, restDistinct⟩ := List.nodup_cons.mp distinct
    rw [get?_cons] at found
    split at found
    · next same =>
      cases found
      subst same
      refine ⟨new, here, ?_⟩
      rw [get?_layer_of_not_mem (get?_eq_none_iff.mpr fresh) restLayered, get?_put, if_pos rfl]
    · next other =>
      obtain ⟨later, laid, read⟩ := ih restDistinct found restLayered
      rw [get?_put, if_neg other] at laid
      exact ⟨later, laid, read⟩

/-- A key of the result has what the update comes to there, or else what it has below. -/
theorem get?_layer_cases {base result : Mapping} {update : List (Text × Value)}
    (distinct : (keys update).Nodup) (layered : Mapping.layer base update = .ok result)
    (key : Text) :
    (∃ value, get? key update = some value ∧ ∃ new,
        Value.layer key (get? key base) value = .ok new ∧ get? key result = some new) ∨
      get? key update = none ∧ get? key result = get? key base := by
  cases held : get? key update with
  | none => exact .inr ⟨rfl, get?_layer_of_not_mem held layered⟩
  | some value => exact .inl ⟨value, rfl, get?_layer distinct held layered⟩

/-- What is at a key of the result is told by what the update has there. -/
theorem get?_layer_congr {base result other : Mapping} {update change : List (Text × Value)}
    {key : Text} (distinct : (keys update).Nodup) (changeDistinct : (keys change).Nodup)
    (same : get? key update = get? key change) (layered : Mapping.layer base update = .ok result)
    (changeLayered : Mapping.layer base change = .ok other) :
    get? key result = get? key other := by
  cases held : get? key update with
  | none =>
    rw [get?_layer_of_not_mem held layered, get?_layer_of_not_mem (same ▸ held) changeLayered]
  | some value =>
    obtain ⟨new, laid, read⟩ := get?_layer distinct held layered
    obtain ⟨otherNew, otherLaid, otherRead⟩ := get?_layer changeDistinct (same ▸ held) changeLayered
    rw [read, otherRead, Except.ok.inj (laid.symm.trans otherLaid)]

theorem get?_layer_of_simple {base update result : Mapping} {key : Text} {value : Value}
    (keysDistinct : (keys update).Nodup) (below : get? key base = some value)
    (simple : value.isCompound = false) (laid : Mapping.layer base update = .ok result) :
    get? key result = some ((get? key update).getD value) := by
  cases held : get? key update with
  | none => rw [get?_layer_of_not_mem held laid, below, Option.getD_none]
  | some above =>
    obtain ⟨new, replaced, read⟩ := get?_layer keysDistinct held laid
    rw [below, Value.layer_of_simple] at replaced
    · cases replaced
      exact read
    · rintro _ ⟨⟩
      exact simple

/-- Some keys, and behind them those of others that are not among them. -/
def joinKeys (keys added : List Text) : List Text :=
  keys ++ added.filter fun key => !keys.contains key

theorem mem_joinKeys {keys added : List Text} {key : Text} :
    key ∈ joinKeys keys added ↔ key ∈ keys ∨ key ∈ added := by
  by_cases isOld : key ∈ keys <;> simp [joinKeys, isOld]

theorem joinKeys_nodup {keys added : List Text} (distinct : keys.Nodup)
    (addedDistinct : added.Nodup) : (joinKeys keys added).Nodup := by
  refine List.nodup_append.mpr ⟨distinct, addedDistinct.filter _, ?_⟩
  rintro key isOld _ isNew rfl
  have absent := (List.mem_filter.mp isNew).2
  rw [List.contains_iff_mem.mpr isOld] at absent
  cases absent

theorem joinKeys_joinKeys (keys added more : List Text) :
    joinKeys (joinKeys keys added) more = joinKeys keys (joinKeys added more) := by
  have notTwice : (fun key => !(joinKeys keys added).contains key) =
      fun key => !keys.contains key && !added.contains key := by
    funext key
    simp [mem_joinKeys]
  rw [joinKeys, notTwice, joinKeys, joinKeys, joinKeys, List.filter_append, List.filter_filter,
    List.append_assoc]

/-- An update adds its keys behind those that are there. -/
theorem keys_layer {base result : Mapping} {update : List (Text × Value)}
    (distinct : (keys update).Nodup) (laid : Mapping.layer base update = .ok result) :
    result.keys = joinKeys base.keys (keys update) := by
  induction update generalizing base with
  | nil =>
    rw [Mapping.layer] at laid
    cases laid
    exact (List.append_nil _).symm
  | cons entry rest ih =>
    obtain ⟨key, value⟩ := entry
    obtain ⟨new, -, restLaid⟩ := layer_cons.mp laid
    obtain ⟨fresh, restDistinct⟩ := List.nodup_cons.mp distinct
    rw [ih restDistinct restLaid, keys_put, keys_cons, joinKeys, joinKeys]
    split
    next isOld => rw [List.filter_cons_of_neg (by simpa using isOld)]
    next isNew =>
      have others : ((keys rest).filter fun name => !(base.keys ++ [key]).contains name) =
          (keys rest).filter fun name => !base.keys.contains name := by
        refine List.filter_congr fun name member => ?_
        have other : name ≠ key := fun same => fresh (same ▸ member)
        simp [other]
      rw [others, List.filter_cons_of_pos (by simpa using isNew), List.append_assoc,
        List.singleton_append]

theorem mem_keys_layer {base update result : Mapping} (distinct : update.keys.Nodup)
    (laid : Mapping.layer base update = .ok result) (key : Text) :
    key ∈ result.keys ↔ key ∈ base.keys ∨ key ∈ update.keys := by
  rw [keys_layer distinct laid, mem_joinKeys]

/-- An update is laid over a mapping just when each of its entries is. -/
theorem exists_layer_iff {base : Mapping} {update : List (Text × Value)}
    (distinct : (keys update).Nodup) :
    (∃ result, Mapping.layer base update = .ok result) ↔
      ∀ entry ∈ update, ∃ new, Value.layer entry.1 (get? entry.1 base) entry.2 = .ok new := by
  induction update generalizing base with
  | nil => exact iff_of_true ⟨base, by rw [Mapping.layer]⟩ (List.forall_mem_nil _)
  | cons entry rest ih =>
    obtain ⟨key, value⟩ := entry
    obtain ⟨fresh, restDistinct⟩ := List.nodup_cons.mp distinct
    have below : ∀ layered, ∀ entry ∈ rest,
        get? entry.1 (put key layered base) = get? entry.1 base := by
      intro layered entry member
      rw [get?_put, if_neg]
      rintro rfl
      exact fresh (List.mem_map.mpr ⟨entry, member, rfl⟩)
    constructor
    · rintro ⟨result, layered⟩
      obtain ⟨new, here, restLayered⟩ := layer_cons.mp layered
      refine List.forall_mem_cons.mpr ⟨⟨new, here⟩, ?_⟩
      intro entry member
      have laid := (ih restDistinct).mp ⟨result, restLayered⟩ entry member
      rwa [below new entry member] at laid
    · intro every
      obtain ⟨⟨new, here⟩, later⟩ := List.forall_mem_cons.mp every
      have restLayers : ∃ result, Mapping.layer (put key new base) rest = .ok result := by
        apply (ih restDistinct).mpr
        intro entry member
        rw [below new entry member]
        exact later entry member
      obtain ⟨result, restLayered⟩ := restLayers
      exact ⟨result, layer_cons.mpr ⟨new, here, restLayered⟩⟩

/-- An update changes nothing if all its values come to what is there. -/
theorem layer_eq_self {config : Mapping} {update : List (Text × Value)}
    (settled : ∀ entry ∈ update, ∃ value, get? entry.1 config = some value ∧
      Value.layer entry.1 (some value) entry.2 = .ok value) :
    Mapping.layer config update = .ok config := by
  induction update with
  | nil => rw [Mapping.layer]
  | cons entry rest ih =>
    obtain ⟨⟨value, held, same⟩, later⟩ := List.forall_mem_cons.mp settled
    refine layer_cons.mpr ⟨value, held ▸ same, ?_⟩
    rw [put_eq_self held]
    exact ih later

end Mapping

/-! ## Canonical orders -/

theorem Value.layer_order (members added : List Value) :
    Value.layer classOrderKey (some (.list members)) (.list added) = addOrder members added := by
  unfold Value.layer
  exact if_pos rfl

theorem addOrder_eq_ok {members added : List Value} {result : Value} :
    addOrder members added = .ok result ↔
      (members ++ added).any (·.isCompound) = false ∧
        result = .list (Value.distinct (members ++ added)) := by
  rw [addOrder]
  cases (members ++ added).any (·.isCompound) <;> simp [eq_comm]

theorem addOrder_fault {members added : List Value} {fault : Fault}
    (refused : addOrder members added = .error fault) : fault = .compoundMember := by
  rw [addOrder] at refused
  split at refused <;> cases refused
  rfl

/-! ## Faults -/

mutual

theorem Value.layer_fault {key : Text} {old : Option Value} (update : Value) {fault : Fault}
    (refused : Value.layer key old update = .error fault) : fault = .compoundMember := by
  cases update with
  | mapping update =>
    unfold Value.layer at refused
    split at refused
    · exact Mapping.layer_fault update (map_eq_error.mp refused)
    · cases refused
  | list items =>
    unfold Value.layer at refused
    split at refused
    · split at refused
      · exact addOrder_fault refused
      · cases refused
    · cases refused
  | _ => cases refused

theorem Mapping.layer_fault {base : Mapping} (update : List (Text × Value)) {fault : Fault}
    (refused : Mapping.layer base update = .error fault) : fault = .compoundMember := by
  cases update with
  | nil => cases refused
  | cons entry rest =>
    obtain ⟨key, value⟩ := entry
    rw [Mapping.layer] at refused
    rcases bind_eq_error.mp refused with here | ⟨layered, -, later⟩
    · exact value.layer_fault here
    · exact Mapping.layer_fault rest later

end

end ClassTidy
