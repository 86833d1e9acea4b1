import ClassTidy.Proofs.Config.Paths

/-!
# Layers upon layers

Of three configurations it makes no difference which two are laid over each other first, as long as
those next to each other have mappings, and canonical orders, at the same paths.
-/

set_option autoImplicit false

namespace ClassTidy

/-! ## What a key comes to -/

/-- What is at a key with an update laid over it. An update without the key leaves what is there. -/
def Value.overlay (key : Text) (old : Option Value) : Option Value → Except Fault (Option Value)
  | none => .ok old
  | some update => some <$> Value.layer key old update

theorem Value.overlay_none (key : Text) (update : Option Value) :
    Value.overlay key none update = .ok update := by
  cases update with
  | none => rfl
  | some update =>
    rw [overlay, Value.layer_none]
    rfl

namespace Mapping

theorem overlay_of_layer {base update result : Mapping} (distinct : update.keys.Nodup)
    (laid : Mapping.layer base update = .ok result) (key : Text) :
    Value.overlay key (get? key base) (get? key update) = .ok (get? key result) := by
  rcases get?_layer_cases distinct laid key with ⟨value, held, new, newLaid, read⟩ | ⟨absent, read⟩
  · rw [held, read, Value.overlay, newLaid]
    rfl
  · rw [absent, read, Value.overlay]

/-- A mapping is what laying an update comes to if it has the keys for that and, at each of them,
what the update comes to there. -/
theorem layer_of_overlay {base update result : Mapping} (baseDistinct : base.keys.Nodup)
    (distinct : update.keys.Nodup) (joined : result.keys = joinKeys base.keys update.keys)
    (settled : ∀ key, Value.overlay key (get? key base) (get? key update) = .ok (get? key result)) :
    Mapping.layer base update = .ok result := by
  have layers : ∃ merged, Mapping.layer base update = .ok merged := by
    apply (exists_layer_iff distinct).mpr
    intro entry member
    have here := settled entry.1
    rw [get?_of_mem distinct member] at here
    obtain ⟨new, newLaid, -⟩ := map_eq_ok.mp here
    exact ⟨new, newLaid⟩
  obtain ⟨merged, laid⟩ := layers
  have mergedKeys := keys_layer distinct laid
  have same : merged = result := by
    apply eq_of_get?
    · rw [mergedKeys]
      exact joinKeys_nodup baseDistinct distinct
    · rw [mergedKeys, joined]
    · intro key
      exact Except.ok.inj ((overlay_of_layer distinct laid key).symm.trans (settled key))
  rw [laid, same]

end Mapping

/-! ## Canonical orders at every depth -/

namespace Value

/-- Whether each of some values can be told from the others, or found equal to one: none is a list
or a mapping, and none is not a number. -/
def Comparable (members : List Value) : Prop :=
  ∀ member ∈ members, member.isCompound = false ∧ member.isNaN = false

instance (members : List Value) : Decidable (Comparable members) :=
  inferInstanceAs (Decidable (∀ member ∈ members, member.isCompound = false ∧ member.isNaN = false))

theorem Comparable.any_isCompound {members : List Value} (comparable : Comparable members) :
    members.any (·.isCompound) = false :=
  List.any_eq_false.mpr fun member isMember => Bool.eq_false_iff.mp (comparable member isMember).1

theorem Comparable.append {members added : List Value} (comparable : Comparable members)
    (addedComparable : Comparable added) : Comparable (members ++ added) :=
  List.forall_mem_append.mpr ⟨comparable, addedComparable⟩

theorem Comparable.distinct {members : List Value} (comparable : Comparable members) :
    Comparable (Value.distinct members) :=
  fun member stays => comparable member (mem_of_mem_distinctFrom stays)

end Value

namespace Mapping

/-- Whether all canonical orders in a configuration are of a kind, however deep they are. -/
def EveryOrder (ofKind : List Value → Prop) (config : Mapping) : Prop :=
  ∀ path members, (Value.mapping config).reach? (path ++ [classOrderKey]) = some (.list members) →
    ofKind members

theorem everyOrder_iff {ofKind : List Value → Prop} {config : Mapping} :
    EveryOrder ofKind config ↔
      (∀ members, get? classOrderKey config = some (.list members) → ofKind members) ∧
        ∀ key inner, get? key config = some (.mapping inner) → EveryOrder ofKind inner := by
  constructor
  · intro every
    refine ⟨fun members held => every [] members ?_, fun key inner held path members found => ?_⟩
    · exact Option.bind_eq_some_iff.mpr ⟨_, held, rfl⟩
    · exact every (key :: path) members (Option.bind_eq_some_iff.mpr ⟨_, held, found⟩)
  · rintro ⟨here, within⟩ path members found
    cases path with
    | nil =>
      obtain ⟨held, read, reached⟩ := Option.bind_eq_some_iff.mp found
      cases reached
      exact here members read
    | cons key path =>
      obtain ⟨held, read, reached⟩ := Option.bind_eq_some_iff.mp found
      cases held with
      | mapping inner => exact within key inner read path members reached
      | _ => cases path <;> cases reached

theorem Meet.everyOrder {ofKind : List Value → Prop} {base update below above : Mapping}
    {path : List Text} (meet : Meet base update path below above) {members : List Value} :
    (EveryOrder ofKind base → get? classOrderKey below = some (.list members) → ofKind members) ∧
      (EveryOrder ofKind update → get? classOrderKey above = some (.list members) →
        ofKind members) := by
  constructor
  · intro every held
    exact every path members (by rw [reach?_behind meet.ofBase, held]; rfl)
  · intro every held
    exact every path members (by rw [reach?_behind meet.ofUpdate, held]; rfl)

section

variable {base update : Mapping} (distinct : (Value.mapping update).DistinctKeys)
  (comparable : EveryOrder Value.Comparable base)
  (updateComparable : EveryOrder Value.Comparable update)
include distinct comparable updateComparable

theorem exists_layer_of_comparable : ∃ merged, Mapping.layer base update = .ok merged := by
  apply exists_layer_of_unclashed distinct
  rintro ⟨path, below, above, members, added, meet, readBelow, readAbove, compound⟩
  have both : Value.Comparable (members ++ added) :=
    (meet.everyOrder.1 comparable readBelow).append (meet.everyOrder.2 updateComparable readAbove)
  rw [both.any_isCompound] at compound
  cases compound

theorem everyOrder_layer {merged : Mapping} (laid : Mapping.layer base update = .ok merged) :
    EveryOrder Value.Comparable merged := by
  intro path members found
  have leads := leadsTo_of_layer distinct laid (path ++ [classOrderKey])
  rw [found] at leads
  generalize whole : path ++ [classOrderKey] = toOrder at leads
  generalize reached : some (Value.list members) = outcome at leads
  cases leads with
  | both => cases reached
  | kept meet absent =>
    rw [← whole] at reached
    exact comparable path members reached.symm
  | @added _ rest _ _ old added meet readBelow readAbove =>
    cases rest with
    | nil =>
      cases reached
      rw [← Value.distinct_eq_withoutRepeats]
      exact ((meet.everyOrder.1 comparable readBelow).append
        (meet.everyOrder.2 updateComparable readAbove)).distinct
    | cons key rest => cases reached
  | replaced meet held parts orders =>
    rw [← whole] at reached
    exact updateComparable path members reached.symm

end

end Mapping

/-! ## Three layers -/

namespace Value

def isMapping : Value → Bool
  | mapping _ => true
  | _ => false

def isList : Value → Bool
  | list _ => true
  | _ => false

theorem isMapping_iff {value : Value} :
    value.isMapping = true ↔ ∃ entries, value = .mapping entries := by
  cases value <;> simp [isMapping]

theorem isList_iff {value : Value} : value.isList = true ↔ ∃ items, value = .list items := by
  cases value <;> simp [isList]

end Value

/-- Whether two values at a key are both mappings or both not, and both lists or both not if the key
is that of the canonical order. -/
structure Value.AlikeAt (key : Text) (value other : Value) : Prop where
  mappings : value.isMapping = other.isMapping
  orders : key = classOrderKey → value.isList = other.isList

namespace Mapping

/-- Whether what two configurations have at one path is alike, wherever the path leads through
mappings on both sides. -/
def Compatible (config other : Mapping) : Prop :=
  ∀ path below above, Meet config other path below above →
    ∀ key value found, get? key below = some value → get? key above = some found →
      value.AlikeAt key found

end Mapping

/-- Whether two values at a key are alike, and compatible if they are mappings. -/
def Value.CompatibleAt (key : Text) (value other : Value) : Prop :=
  value.AlikeAt key other ∧ ∀ inner outer, value = .mapping inner → other = .mapping outer →
    Mapping.Compatible inner outer

theorem Mapping.compatible_iff {config other : Mapping} :
    Compatible config other ↔
      ∀ key, ∀ value ∈ get? key config, ∀ found ∈ get? key other, value.CompatibleAt key found := by
  constructor
  · intro compatible key value held found heldOther
    refine ⟨compatible [] _ _ (meet_root _ _) key value found held heldOther, ?_⟩
    rintro inner outer rfl rfl path below above meet
    exact compatible (key :: path) below above
      (meet_cons.mpr ⟨inner, outer, held, heldOther, meet⟩)
  · intro every path below above meet
    cases path with
    | nil =>
      cases meet.ofBase
      cases meet.ofUpdate
      exact fun key value found held heldOther => (every key value held found heldOther).1
    | cons first path =>
      obtain ⟨inner, outer, held, heldOther, meets⟩ := meet_cons.mp meet
      exact (every first _ held _ heldOther).2 inner outer rfl rfl path below above meets

theorem addOrder_addOrder {members added more : List Value} {lower upper merged : Value}
    (lowerAdded : addOrder members added = .ok lower) (upperAdded : addOrder added more = .ok upper)
    (laid : Value.layer classOrderKey (some lower) (.list more) = .ok merged) :
    Value.layer classOrderKey (some (.list members)) upper = .ok merged := by
  obtain ⟨lowerSimple, rfl⟩ := addOrder_eq_ok.mp lowerAdded
  obtain ⟨upperSimple, rfl⟩ := addOrder_eq_ok.mp upperAdded
  rw [Value.layer_order] at laid ⊢
  obtain ⟨-, rfl⟩ := addOrder_eq_ok.mp laid
  refine addOrder_eq_ok.mpr ⟨?_, ?_⟩
  · rw [List.any_append, Bool.or_eq_false_iff] at lowerSimple ⊢
    exact ⟨lowerSimple.1, Value.any_isCompound_distinct upperSimple⟩
  · rw [Value.distinct_distinct_append, Value.distinct_append_distinct, List.append_assoc]

/-- It is enough to look at keys that all three have. -/
theorem Value.overlay_overlay {key : Text} {base middle top lower upper merged : Option Value}
    (lowerLaid : Value.overlay key base middle = .ok lower)
    (upperLaid : Value.overlay key middle top = .ok upper)
    (laid : Value.overlay key lower top = .ok merged)
    (shared : ∀ low ∈ base, ∀ value ∈ middle, ∀ high ∈ top, ∀ below above new,
      Value.layer key (some low) value = .ok below → Value.layer key (some value) high = .ok above →
      Value.layer key (some below) high = .ok new → Value.layer key (some low) above = .ok new) :
    Value.overlay key base upper = .ok merged := by
  cases top with
  | none =>
    cases upperLaid
    cases laid
    exact lowerLaid
  | some high =>
    cases middle with
    | none =>
      rw [Value.overlay_none] at upperLaid
      cases upperLaid
      cases lowerLaid
      exact laid
    | some value =>
      cases base with
      | none =>
        rw [Value.overlay_none] at lowerLaid ⊢
        cases lowerLaid
        exact upperLaid.symm.trans laid
      | some low =>
        obtain ⟨below, belowLaid, rfl⟩ := map_eq_ok.mp lowerLaid
        obtain ⟨above, aboveLaid, rfl⟩ := map_eq_ok.mp upperLaid
        obtain ⟨new, newLaid, rfl⟩ := map_eq_ok.mp laid
        exact map_eq_ok.mpr
          ⟨new, shared low rfl value rfl high rfl below above new belowLaid aboveLaid newLaid, rfl⟩

theorem Mapping.layer_layer_of_keys {base middle top lower upper merged : Mapping}
    (baseDistinct : base.keys.Nodup) (middleDistinct : middle.keys.Nodup)
    (topDistinct : top.keys.Nodup) (lowerLaid : Mapping.layer base middle = .ok lower)
    (upperLaid : Mapping.layer middle top = .ok upper) (laid : Mapping.layer lower top = .ok merged)
    (shared : ∀ key, ∀ low ∈ get? key base, ∀ value ∈ get? key middle, ∀ high ∈ get? key top,
      ∀ below above new, Value.layer key (some low) value = .ok below →
      Value.layer key (some value) high = .ok above →
      Value.layer key (some below) high = .ok new → Value.layer key (some low) above = .ok new) :
    Mapping.layer base upper = .ok merged := by
  have upperKeys := keys_layer topDistinct upperLaid
  apply layer_of_overlay baseDistinct
  · rw [upperKeys]
    exact joinKeys_nodup middleDistinct topDistinct
  · rw [keys_layer topDistinct laid, keys_layer middleDistinct lowerLaid, upperKeys,
      joinKeys_joinKeys]
  · intro key
    exact Value.overlay_overlay (overlay_of_layer middleDistinct lowerLaid key)
      (overlay_of_layer topDistinct upperLaid key) (overlay_of_layer topDistinct laid key)
      (shared key)

/-- What is no mapping and no canonical order takes the place of anything. -/
theorem Value.layer_of_other {key : Text} {update : Value} (notMapping : update.isMapping = false)
    (notOrder : key = classOrderKey → update.isList = false) (old : Option Value) :
    Value.layer key old update = .ok update := by
  apply Value.layer_replaces
  · rintro _ outer - rfl
    cases notMapping
  · rintro isOrder _ added - rfl
    cases notOrder isOrder

theorem Value.layer_of_alikeAt {key : Text} {base middle top lower upper merged : Value}
    (notMapping : top.isMapping = false) (alike : base.AlikeAt key middle)
    (alikeAbove : middle.AlikeAt key top)
    (lowerLaid : Value.layer key (some base) middle = .ok lower)
    (upperLaid : Value.layer key (some middle) top = .ok upper)
    (laid : Value.layer key (some lower) top = .ok merged) :
    Value.layer key (some base) upper = .ok merged := by
  by_cases order : key = classOrderKey ∧ top.isList = true
  · obtain ⟨rfl, isList⟩ := order
    have middleIsList := (alikeAbove.orders rfl).trans isList
    obtain ⟨more, rfl⟩ := Value.isList_iff.mp isList
    obtain ⟨added, rfl⟩ := Value.isList_iff.mp middleIsList
    obtain ⟨members, rfl⟩ := Value.isList_iff.mp ((alike.orders rfl).trans middleIsList)
    rw [Value.layer_order] at lowerLaid upperLaid
    exact addOrder_addOrder lowerLaid upperLaid laid
  · have notOrder (isOrder : key = classOrderKey) : top.isList = false :=
      Bool.eq_false_iff.mpr fun isList => order ⟨isOrder, isList⟩
    rw [Value.layer_of_other notMapping notOrder] at upperLaid laid
    cases upperLaid
    rw [Value.layer_of_other notMapping notOrder]
    exact laid

theorem Value.layer_of_compatibleAt {top : Value} (topDistinct : top.DistinctKeys) {key : Text}
    {base middle lower upper merged : Value} (baseDistinct : base.DistinctKeys)
    (middleDistinct : middle.DistinctKeys) (compatible : base.CompatibleAt key middle)
    (compatibleAbove : middle.CompatibleAt key top)
    (lowerLaid : Value.layer key (some base) middle = .ok lower)
    (upperLaid : Value.layer key (some middle) top = .ok upper)
    (laid : Value.layer key (some lower) top = .ok merged) :
    Value.layer key (some base) upper = .ok merged := by
  induction topDistinct generalizing key base middle lower upper merged with
  | @mapping topEntries topKeys _ ih =>
    have middleIsMapping := compatibleAbove.1.mappings.trans rfl
    obtain ⟨middleEntries, rfl⟩ := Value.isMapping_iff.mp middleIsMapping
    obtain ⟨baseEntries, rfl⟩ :=
      Value.isMapping_iff.mp (compatible.1.mappings.trans middleIsMapping)
    rw [Value.layer_mapping] at lowerLaid upperLaid
    obtain ⟨lowerEntries, lowerMerges, rfl⟩ := map_eq_ok.mp lowerLaid
    obtain ⟨upperEntries, upperMerges, rfl⟩ := map_eq_ok.mp upperLaid
    rw [Value.layer_mapping] at laid ⊢
    obtain ⟨mergedEntries, merges, rfl⟩ := map_eq_ok.mp laid
    have within := Mapping.compatible_iff.mp (compatible.2 _ _ rfl rfl)
    have withinAbove := Mapping.compatible_iff.mp (compatibleAbove.2 _ _ rfl rfl)
    obtain ⟨baseKeys, baseValues⟩ := baseDistinct.entries
    obtain ⟨middleKeys, middleValues⟩ := middleDistinct.entries
    refine map_eq_ok.mpr ⟨mergedEntries, ?_, rfl⟩
    refine Mapping.layer_layer_of_keys baseKeys middleKeys topKeys lowerMerges upperMerges merges ?_
    intro name low isLow value isValue high isHigh below above new
    exact ih (name, high) (Mapping.mem_of_get? isHigh)
      (baseValues _ (Mapping.mem_of_get? isLow)) (middleValues _ (Mapping.mem_of_get? isValue))
      (within name low isLow value isValue) (withinAbove name value isValue high isHigh)
  | _ =>
    exact Value.layer_of_alikeAt rfl compatible.1 compatibleAbove.1 lowerLaid upperLaid laid

theorem Mapping.layer_of_compatible {base middle top lower upper merged : Mapping}
    (topDistinct : (Value.mapping top).DistinctKeys)
    (baseDistinct : (Value.mapping base).DistinctKeys)
    (middleDistinct : (Value.mapping middle).DistinctKeys) (compatible : Compatible base middle)
    (compatibleAbove : Compatible middle top) (lowerLaid : Mapping.layer base middle = .ok lower)
    (upperLaid : Mapping.layer middle top = .ok upper)
    (laid : Mapping.layer lower top = .ok merged) : Mapping.layer base upper = .ok merged := by
  have roots {config other : Mapping} (alike : Compatible config other) :
      Value.CompatibleAt [] (.mapping config) (.mapping other) := by
    refine ⟨⟨rfl, fun _ => rfl⟩, ?_⟩
    rintro _ _ ⟨⟩ ⟨⟩
    exact alike
  exact Value.layer_mapping_eq_ok.mp (Value.layer_of_compatibleAt topDistinct baseDistinct
    middleDistinct (roots compatible) (roots compatibleAbove)
    (Value.layer_mapping_eq_ok.mpr lowerLaid)
    (Value.layer_mapping_eq_ok.mpr upperLaid) (Value.layer_mapping_eq_ok.mpr laid))

/-- With canonical orders whose members can be compared, three configurations come to the same
whichever two of them are laid over each other first. -/
theorem Mapping.layer_layer {base middle top : Mapping}
    (distinct : ∀ config ∈ [base, middle, top], (Value.mapping config).DistinctKeys)
    (comparable : ∀ config ∈ [base, middle, top], EveryOrder Value.Comparable config)
    (compatible : Compatible base middle) (compatibleAbove : Compatible middle top) :
    ∃ lower upper merged, Mapping.layer base middle = .ok lower ∧
      Mapping.layer middle top = .ok upper ∧ Mapping.layer lower top = .ok merged ∧
      Mapping.layer base upper = .ok merged := by
  simp only [List.forall_mem_cons, List.not_mem_nil, false_imp_iff, implies_true, and_true]
    at distinct comparable
  obtain ⟨baseDistinct, middleDistinct, topDistinct⟩ := distinct
  obtain ⟨baseComparable, middleComparable, topComparable⟩ := comparable
  obtain ⟨lower, lowerLaid⟩ :=
    exists_layer_of_comparable middleDistinct baseComparable middleComparable
  obtain ⟨upper, upperLaid⟩ :=
    exists_layer_of_comparable topDistinct middleComparable topComparable
  have lowerComparable := everyOrder_layer middleDistinct baseComparable middleComparable lowerLaid
  obtain ⟨merged, laid⟩ := exists_layer_of_comparable topDistinct lowerComparable topComparable
  refine ⟨lower, upper, merged, lowerLaid, upperLaid, laid, ?_⟩
  exact layer_of_compatible topDistinct baseDistinct middleDistinct compatible compatibleAbove
    lowerLaid upperLaid laid

/-- A truth value in the middle is dropped for the number equal to it below, and so is that number
for it above. -/
theorem Mapping.layer_layer_nested :
    let nested (members : List Value) : Mapping :=
      [(['a'], .mapping [(classOrderKey, .list members)])]
    let base := nested [.text ['x'], .number (.int 1)]
    let middle := nested [.text ['y'], .bool true, .text ['y']]
    let top := nested [.number (.float ⟨0x3FF0000000000000⟩), .text ['z'], .text ['x']]
    let merged := nested [.text ['x'], .number (.int 1), .text ['y'], .text ['z']]
    (∀ config ∈ [base, middle, top], (Value.mapping config).DistinctKeys) ∧
      (∀ config ∈ [base, middle, top], EveryOrder Value.Comparable config) ∧
      Compatible base middle ∧ Compatible middle top ∧
      ∃ lower upper, Mapping.layer base middle = .ok lower ∧ Mapping.layer middle top = .ok upper ∧
        Mapping.layer lower top = .ok merged ∧ Mapping.layer base upper = .ok merged := by
  intro nested base middle top merged
  have single {key : Text} {value : Value} (distinct : value.DistinctKeys) :
      (Value.mapping [(key, value)]).DistinctKeys :=
    .mapping (List.nodup_singleton _) (List.forall_mem_singleton.mpr distinct)
  have distinct : ∀ config ∈ [base, middle, top], (Value.mapping config).DistinctKeys := by
    simp only [List.forall_mem_cons]
    refine ⟨single (single (.list ?_)), single (single (.list ?_)), single (single (.list ?_)),
      List.forall_mem_nil _⟩ <;>
      simp [Value.DistinctKeys.text, Value.DistinctKeys.number, Value.DistinctKeys.bool]
  have orders {members : List Value} (comparable : Value.Comparable members) :
      EveryOrder Value.Comparable (nested members) := by
    refine everyOrder_iff.mpr ⟨nofun, fun key inner held => ?_⟩
    cases List.mem_singleton.mp (mem_of_get? held)
    refine everyOrder_iff.mpr ⟨?_, fun key inner held => ?_⟩
    · rintro _ ⟨⟩
      exact comparable
    · cases List.mem_singleton.mp (mem_of_get? held)
  have comparable : ∀ config ∈ [base, middle, top], EveryOrder Value.Comparable config := by
    simp only [List.forall_mem_cons]
    exact ⟨orders (by decide), orders (by decide), orders (by decide), List.forall_mem_nil _⟩
  have compatible (members added : List Value) : Compatible (nested members) (nested added) := by
    refine compatible_iff.mpr fun key value held found heldOther => ?_
    cases List.mem_singleton.mp (mem_of_get? held)
    cases List.mem_singleton.mp (mem_of_get? heldOther)
    refine ⟨⟨rfl, fun _ => rfl⟩, ?_⟩
    rintro _ _ ⟨⟩ ⟨⟩
    refine compatible_iff.mpr fun key value held found heldOther => ?_
    cases List.mem_singleton.mp (mem_of_get? held)
    cases List.mem_singleton.mp (mem_of_get? heldOther)
    exact ⟨⟨rfl, fun _ => rfl⟩, nofun⟩
  obtain ⟨lower, upper, new, lowerLaid, upperLaid, laid, same⟩ :=
    layer_layer distinct comparable (compatible _ _) (compatible _ _)
  cases lowerLaid
  cases upperLaid
  cases laid
  exact ⟨distinct, comparable, compatible _ _, compatible _ _, _, _, rfl, rfl, rfl, same⟩

end ClassTidy
