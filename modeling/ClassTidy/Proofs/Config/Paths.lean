import ClassTidy.Proofs.Config.Layer

/-!
# Layers along paths

Where a path of keys leads through mappings on both sides, an update is laid over what is found
there just as it is at the root. So what a path leads to is settled at the key where it leaves the
mappings of one side, and a canonical order that cannot be added to is at fault wherever such a path
leads to it.
-/

set_option autoImplicit false

namespace ClassTidy

namespace Value

/-! ## What a path leads to -/

/-- What a value has at the end of a path of keys. Only mappings have keys. -/
def reach? : List Text → Value → Option Value
  | [], value => some value
  | key :: path, .mapping entries => (Mapping.get? key entries).bind (reach? path)
  | _ :: _, _ => none

theorem reach?_append (path rest : List Text) (value : Value) :
    value.reach? (path ++ rest) = (value.reach? path).bind (reach? rest) := by
  induction path generalizing value with
  | nil => rfl
  | cons key path ih =>
    cases value with
    | mapping entries =>
      simp only [List.cons_append, reach?]
      cases Mapping.get? key entries with
      | none => rfl
      | some held => exact ih held
    | _ => rfl

theorem exists_mapping_of_reach? {value : Value} {path : List Text} {entries : Mapping}
    (found : value.reach? path = some (.mapping entries)) : ∃ held, value = .mapping held := by
  cases path with
  | nil => exact ⟨entries, Option.some.inj found⟩
  | cons key path =>
    cases value with
    | mapping held => exact ⟨held, rfl⟩
    | _ => cases found

end Value

namespace Mapping

/-- Whether a path leads through mappings on both sides, and in the end to these two. -/
structure Meet (base update : Mapping) (path : List Text) (below above : Mapping) : Prop where
  ofBase : (Value.mapping base).reach? path = some (.mapping below)
  ofUpdate : (Value.mapping update).reach? path = some (.mapping above)

/-- Whether a key has mappings on both sides. -/
def BothMappings (below above : Mapping) (key : Text) : Prop :=
  ∃ inner outer, get? key below = some (.mapping inner) ∧ get? key above = some (.mapping outer)

/-- Whether a key is that of the canonical order and has lists on both sides. -/
def BothOrders (below above : Mapping) (key : Text) : Prop :=
  key = classOrderKey ∧
    ∃ members added, get? key below = some (.list members) ∧ get? key above = some (.list added)

theorem meet_root (base update : Mapping) : Meet base update [] base update := ⟨rfl, rfl⟩

theorem meet_cons {base update : Mapping} {key : Text} {path : List Text} {below above : Mapping} :
    Meet base update (key :: path) below above ↔
      ∃ inner outer, get? key base = some (.mapping inner) ∧
        get? key update = some (.mapping outer) ∧ Meet inner outer path below above := by
  constructor
  · intro ⟨ofBase, ofUpdate⟩
    obtain ⟨heldBelow, readBelow, leadsBelow⟩ := Option.bind_eq_some_iff.mp ofBase
    obtain ⟨heldAbove, readAbove, leadsAbove⟩ := Option.bind_eq_some_iff.mp ofUpdate
    obtain ⟨inner, rfl⟩ := Value.exists_mapping_of_reach? leadsBelow
    obtain ⟨outer, rfl⟩ := Value.exists_mapping_of_reach? leadsAbove
    exact ⟨inner, outer, readBelow, readAbove, leadsBelow, leadsAbove⟩
  · intro ⟨inner, outer, readBelow, readAbove, leadsBelow, leadsAbove⟩
    exact ⟨Option.bind_eq_some_iff.mpr ⟨_, readBelow, leadsBelow⟩,
      Option.bind_eq_some_iff.mpr ⟨_, readAbove, leadsAbove⟩⟩

/-- A path leads through mappings on both sides up to its end, or up to some key. -/
theorem exists_meet (base update : Mapping) (path : List Text) :
    (∃ below above, Meet base update path below above) ∨
      ∃ front key rest below above, path = front ++ key :: rest ∧
        Meet base update front below above ∧ ¬ BothMappings below above key := by
  induction path generalizing base update with
  | nil => exact .inl ⟨base, update, meet_root base update⟩
  | cons key path ih =>
    by_cases both : BothMappings base update key
    · obtain ⟨inner, outer, readBelow, readAbove⟩ := both
      rcases ih inner outer with
        ⟨below, above, meet⟩ | ⟨front, last, rest, below, above, rfl, meet, parts⟩
      · exact .inl ⟨below, above, meet_cons.mpr ⟨inner, outer, readBelow, readAbove, meet⟩⟩
      · exact .inr ⟨key :: front, last, rest, below, above, rfl,
          meet_cons.mpr ⟨inner, outer, readBelow, readAbove, meet⟩, parts⟩
    · exact .inr ⟨[], key, path, base, update, rfl, meet_root base update, both⟩

/-! ## What is laid over what -/

/-- The mappings that a path leads to are laid over each other. -/
theorem Meet.layer {base update merged : Mapping} {path : List Text} {below above : Mapping}
    (meet : Meet base update path below above) (distinct : (Value.mapping update).DistinctKeys)
    (laid : Mapping.layer base update = .ok merged) :
    ∃ result, (Value.mapping merged).reach? path = some (.mapping result) ∧
      Mapping.layer below above = .ok result ∧ above.keys.Nodup := by
  induction path generalizing base update merged with
  | nil =>
    cases meet.ofBase
    cases meet.ofUpdate
    cases distinct with
    | mapping keysDistinct _ => exact ⟨merged, rfl, laid, keysDistinct⟩
  | cons key path ih =>
    obtain ⟨inner, outer, readBelow, readAbove, meets⟩ := meet_cons.mp meet
    cases distinct with
    | mapping keysDistinct values =>
      obtain ⟨new, newLaid, read⟩ := get?_layer keysDistinct readAbove laid
      rw [readBelow, Value.layer_mapping] at newLaid
      obtain ⟨within, withinLaid, rfl⟩ := map_eq_ok.mp newLaid
      obtain ⟨result, found, resultLaid⟩ :=
        ih meets (values _ (mem_of_get? readAbove)) withinLaid
      refine ⟨result, ?_, resultLaid⟩
      exact Option.bind_eq_some_iff.mpr ⟨_, read, found⟩

/-- What a key comes to that has not mappings on both sides. -/
theorem get?_layer_of_parts {below above result : Mapping} {key : Text}
    (distinct : above.keys.Nodup) (laid : Mapping.layer below above = .ok result)
    (parts : ¬ BothMappings below above key) :
    (get? key above = none ∧ get? key result = get? key below) ∨
      (∃ members added, key = classOrderKey ∧ get? key below = some (.list members) ∧
        get? key above = some (.list added) ∧
        get? key result = some (.list (Value.withoutRepeats (members ++ added)))) ∨
      ∃ new, get? key above = some new ∧ ¬ BothOrders below above key ∧
        get? key result = some new := by
  rcases get?_layer_cases distinct laid key with ⟨new, held, settled, newLaid, read⟩ | absent
  · by_cases orders : BothOrders below above key
    · obtain ⟨rfl, members, added, readBelow, readAbove⟩ := orders
      cases held.symm.trans readAbove
      rw [readBelow, Value.layer_order] at newLaid
      obtain ⟨-, rfl⟩ := addOrder_eq_ok.mp newLaid
      rw [Value.distinct_eq_withoutRepeats] at read
      exact .inr (.inl ⟨members, added, rfl, readBelow, readAbove, read⟩)
    · have replaces : Value.layer key (get? key below) new = .ok new := by
        apply Value.layer_replaces
        · intro inner outer readBelow isOuter
          exact parts ⟨inner, outer, readBelow, isOuter ▸ held⟩
        · intro isOrder members added readBelow isAdded
          exact orders ⟨isOrder, members, added, readBelow, isAdded ▸ held⟩
      cases replaces.symm.trans newLaid
      exact .inr (.inr ⟨new, held, orders, read⟩)
  · exact .inl absent

/-! ## What cannot be laid -/

/-- Whether a path leads to two canonical orders of which one has a list or a mapping as a
member. -/
def OrdersClash (base update : Mapping) (path : List Text) : Prop :=
  ∃ below above members added, Meet base update path below above ∧
    get? classOrderKey below = some (.list members) ∧
    get? classOrderKey above = some (.list added) ∧
    (members ++ added).any (·.isCompound) = true

theorem ordersClash_cons {base update inner outer : Mapping} {key : Text} {path : List Text}
    (readBelow : get? key base = some (.mapping inner))
    (readAbove : get? key update = some (.mapping outer)) (clash : OrdersClash inner outer path) :
    OrdersClash base update (key :: path) := by
  obtain ⟨below, above, members, added, meet, clashes⟩ := clash
  exact ⟨below, above, members, added,
    meet_cons.mpr ⟨inner, outer, readBelow, readAbove, meet⟩, clashes⟩

theorem not_ordersClash {base update merged : Mapping}
    (distinct : (Value.mapping update).DistinctKeys)
    (laid : Mapping.layer base update = .ok merged) (path : List Text) :
    ¬ OrdersClash base update path := by
  intro ⟨below, above, members, added, meet, readBelow, readAbove, compound⟩
  obtain ⟨result, -, resultLaid, keysDistinct⟩ := meet.layer distinct laid
  obtain ⟨new, newLaid, -⟩ := get?_layer keysDistinct readAbove resultLaid
  rw [readBelow, Value.layer_order] at newLaid
  obtain ⟨simple, -⟩ := addOrder_eq_ok.mp newLaid
  rw [simple] at compound
  cases compound

end Mapping

/-- Whatever meets no clash can be laid over anything. -/
theorem Value.exists_layer_of_unclashed {update : Value} (distinct : update.DistinctKeys)
    {key : Text} {old : Option Value}
    (order : key = classOrderKey → ∀ members added, old = some (.list members) →
      update = .list added → (members ++ added).any (·.isCompound) = false)
    (within : ∀ inner outer path, old = some (.mapping inner) → update = .mapping outer →
      ¬ Mapping.OrdersClash inner outer path) :
    ∃ new, Value.layer key old update = .ok new := by
  induction distinct generalizing key old with
  | @list added _ _ =>
    unfold Value.layer
    split
    next members =>
      split
      next isOrder =>
        exact ⟨_, addOrder_eq_ok.mpr ⟨order isOrder members added rfl rfl, rfl⟩⟩
      next => exact ⟨_, rfl⟩
    next => exact ⟨_, rfl⟩
  | @mapping outer keysDistinct _ ih =>
    unfold Value.layer
    split
    next inner =>
      have layers : ∃ result, Mapping.layer inner outer = .ok result := by
        apply (Mapping.exists_layer_iff keysDistinct).mpr
        intro entry member
        have readAbove := Mapping.get?_of_mem keysDistinct member
        apply ih entry member
        · intro isOrder members added readBelow isAdded
          rw [isOrder] at readBelow readAbove
          rw [isAdded] at readAbove
          refine Bool.eq_false_iff.mpr fun compound => within inner outer [] rfl rfl ?_
          exact ⟨inner, outer, members, added, Mapping.meet_root _ _, readBelow, readAbove,
            compound⟩
        · intro below above path readBelow isAbove clash
          rw [isAbove] at readAbove
          exact within inner outer (entry.1 :: path) rfl rfl
            (Mapping.ordersClash_cons readBelow readAbove clash)
      obtain ⟨result, laid⟩ := layers
      exact ⟨.mapping result, by rw [laid]; rfl⟩
    next => exact ⟨_, rfl⟩
  | _ => exact ⟨_, rfl⟩

namespace Mapping

theorem exists_layer_of_unclashed {base update : Mapping}
    (distinct : (Value.mapping update).DistinctKeys)
    (unclashed : ¬ ∃ path, OrdersClash base update path) :
    ∃ merged, Mapping.layer base update = .ok merged := by
  have laid : ∃ new, Value.layer [] (some (.mapping base)) (.mapping update) = .ok new := by
    refine Value.exists_layer_of_unclashed distinct (fun _ _ _ => nofun) ?_
    rintro _ _ path ⟨⟩ ⟨⟩ clash
    exact unclashed ⟨path, clash⟩
  obtain ⟨new, newLaid⟩ := laid
  rw [Value.layer_mapping] at newLaid
  obtain ⟨merged, mergedLaid, -⟩ := map_eq_ok.mp newLaid
  exact ⟨merged, mergedLaid⟩

/-! ## What a path leads to in the end -/

/-- What a path leads to where an update is laid over a mapping. Either it leads through mappings on
both sides to its end, or it is settled at the first key that has not mappings on both. -/
inductive LeadsTo (base update : Mapping) : List Text → Option Value → Prop where
  | both {path : List Text} {below above result : Mapping} :
      Meet base update path below above →
      (∀ key, key ∈ result.keys ↔ key ∈ below.keys ∨ key ∈ above.keys) →
      LeadsTo base update path (some (.mapping result))
  | kept {path rest : List Text} {key : Text} {below above : Mapping} :
      Meet base update path below above → get? key above = none →
      LeadsTo base update (path ++ key :: rest)
        ((Value.mapping base).reach? (path ++ key :: rest))
  | added {path rest : List Text} {below above : Mapping} {members added : List Value} :
      Meet base update path below above → get? classOrderKey below = some (.list members) →
      get? classOrderKey above = some (.list added) →
      LeadsTo base update (path ++ classOrderKey :: rest)
        ((Value.list (Value.withoutRepeats (members ++ added))).reach? rest)
  | replaced {path rest : List Text} {key : Text} {below above : Mapping} {new : Value} :
      Meet base update path below above → get? key above = some new →
      ¬ BothMappings below above key → ¬ BothOrders below above key →
      LeadsTo base update (path ++ key :: rest)
        ((Value.mapping update).reach? (path ++ key :: rest))

theorem reach?_behind {mapping inner : Mapping} {path : List Text}
    (found : (Value.mapping mapping).reach? path = some (.mapping inner)) (key : Text)
    (rest : List Text) :
    (Value.mapping mapping).reach? (path ++ key :: rest) =
      (get? key inner).bind (Value.reach? rest) := by
  rw [Value.reach?_append, found]
  rfl

theorem leadsTo_of_layer {base update merged : Mapping}
    (distinct : (Value.mapping update).DistinctKeys)
    (laid : Mapping.layer base update = .ok merged) (path : List Text) :
    LeadsTo base update path ((Value.mapping merged).reach? path) := by
  rcases exists_meet base update path with
    ⟨below, above, meet⟩ | ⟨front, key, rest, below, above, rfl, meet, parts⟩
  · obtain ⟨result, found, resultLaid, keysDistinct⟩ := meet.layer distinct laid
    rw [found]
    exact .both meet (mem_keys_layer keysDistinct resultLaid)
  · obtain ⟨result, found, resultLaid, keysDistinct⟩ := meet.layer distinct laid
    rw [reach?_behind found]
    rcases get?_layer_of_parts keysDistinct resultLaid parts with
      ⟨absent, read⟩ | ⟨members, added, rfl, readBelow, readAbove, read⟩ | ⟨new, held, orders, read⟩
    · rw [read, ← reach?_behind meet.ofBase]
      exact .kept meet absent
    · rw [read]
      exact .added meet readBelow readAbove
    · rw [read, ← held, ← reach?_behind meet.ofUpdate]
      exact .replaced meet held parts orders

/-- An update is refused where a path leads to canonical orders that clash. Otherwise it is laid
over the mapping, and every path leads to what is settled where it leaves the mappings of one
side. -/
theorem layer_along_paths (base : Mapping) {update : Mapping}
    (distinct : (Value.mapping update).DistinctKeys) :
    (∃ path, OrdersClash base update path) ∧
        Mapping.layer base update = .error .compoundMember ∨
      (¬ ∃ path, OrdersClash base update path) ∧
        ∃ merged, Mapping.layer base update = .ok merged ∧
          ∀ path, LeadsTo base update path ((Value.mapping merged).reach? path) := by
  cases outcome : Mapping.layer base update with
  | error fault =>
    rw [Mapping.layer_fault update outcome]
    refine .inl ⟨?_, rfl⟩
    by_contra unclashed
    obtain ⟨merged, laid⟩ := exists_layer_of_unclashed distinct unclashed
    rw [outcome] at laid
    cases laid
  | ok merged =>
    refine .inr ⟨?_, merged, rfl, leadsTo_of_layer distinct outcome⟩
    exact fun ⟨path, clash⟩ => not_ordersClash distinct outcome path clash

/-- The number equal to a truth value is dropped, and the mapping takes the place of the text. -/
theorem layer_along_paths_nested :
    let order (members : List Value) : Mapping := [(classOrderKey, .list members)]
    let base : Mapping :=
      [(['a'], .mapping (order [.text ['x'], .number (.int 1)])), (['b'], .text ['x'])]
    let update : Mapping :=
      [(['a'], .mapping (order [.bool true, .text ['y']])), (['b'], .mapping [])]
    let merged : Mapping :=
      [(['a'], .mapping (order [.text ['x'], .number (.int 1), .text ['y']])), (['b'], .mapping [])]
    (Value.mapping update).DistinctKeys ∧ Mapping.layer base update = .ok merged ∧
      ∀ path, LeadsTo base update path ((Value.mapping merged).reach? path) := by
  intro order base update merged
  have added : (Value.list [.bool true, .text ['y']]).DistinctKeys :=
    .list (List.forall_mem_cons.mpr ⟨.bool, List.forall_mem_singleton.mpr .text⟩)
  have inner : (Value.mapping (order [.bool true, .text ['y']])).DistinctKeys :=
    .mapping (List.nodup_singleton _) (List.forall_mem_singleton.mpr added)
  have empty : (Value.mapping []).DistinctKeys := .mapping List.nodup_nil (List.forall_mem_nil _)
  have distinct : (Value.mapping update).DistinctKeys :=
    .mapping (by decide) (List.forall_mem_cons.mpr ⟨inner, List.forall_mem_singleton.mpr empty⟩)
  have laid : Mapping.layer base update = .ok merged := by rfl
  refine ⟨distinct, laid, ?_⟩
  rcases layer_along_paths base distinct with ⟨-, refused⟩ | ⟨-, other, otherLaid, leads⟩
  · rw [laid] at refused
    cases refused
  · rw [laid] at otherLaid
    cases otherLaid
    exact leads

end Mapping

/-! ## Configurations without lists -/

mutual

/-- Whether a value is no list and has none at its keys. -/
def Value.isListFree : Value → Bool
  | .list _ => false
  | .mapping entries => Mapping.isListFree entries
  | _ => true

def Mapping.isListFree : List (Text × Value) → Bool
  | [] => true
  | (_, value) :: rest => value.isListFree && Mapping.isListFree rest

end

theorem Mapping.isListFree_of_get? {key : Text} {value : Value} {mapping : Mapping}
    (free : Mapping.isListFree mapping = true) (found : get? key mapping = some value) :
    value.isListFree = true := by
  induction mapping with
  | nil => cases found
  | cons entry rest ih =>
    obtain ⟨present, held⟩ := entry
    rw [Mapping.isListFree, Bool.and_eq_true] at free
    rw [get?_cons] at found
    split at found
    · cases found
      exact free.1
    · exact ih free.2 found

theorem Value.isListFree_of_reach? {value found : Value} {path : List Text}
    (free : value.isListFree = true) (reached : value.reach? path = some found) :
    found.isListFree = true := by
  induction path generalizing value with
  | nil =>
    cases reached
    exact free
  | cons key path ih =>
    cases value with
    | mapping entries =>
      obtain ⟨held, read, further⟩ := Option.bind_eq_some_iff.mp reached
      exact ih (Mapping.isListFree_of_get? free read) further
    | _ => cases reached

/-- Over a value without lists anything can be laid. -/
theorem Value.exists_layer {update : Value} (distinct : update.DistinctKeys) (key : Text)
    {old : Option Value} (free : ∀ value ∈ old, value.isListFree = true) :
    ∃ new, Value.layer key old update = .ok new := by
  apply Value.exists_layer_of_unclashed distinct
  · intro _ members added below
    cases free _ below
  · intro inner outer path below _ clash
    obtain ⟨reached, _, members, _, meet, read, -⟩ := clash
    have reachedFree := Value.isListFree_of_reach? (free _ below) meet.ofBase
    cases Mapping.isListFree_of_get? reachedFree read

end ClassTidy
