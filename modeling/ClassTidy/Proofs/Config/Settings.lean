import ClassTidy.Proofs.Class.Position
import ClassTidy.Proofs.Config.Loaded

/-!
# Settings over the defaults

The default configuration says what the settings come to where a configuration is silent. So laying
a configuration over it changes nothing about the settings that are read: each comes to the same, or
is refused with the same fault, and the canonical order has the same members.
-/

set_option autoImplicit false

namespace ClassTidy

namespace Mapping

/-! ## Sections -/

theorem subsection_of_mapping {name : Section} {config entries : Mapping}
    (held : config.get? name.key.toList = some (.mapping entries)) :
    config.subsection name = .ok entries := by
  rw [subsection, held]
  cases entries <;> rfl

theorem subsection_eq_ok {name : Section} {config entries : Mapping}
    (found : config.subsection name = .ok entries) :
    entries = [] ∨ config.get? name.key.toList = some (.mapping entries) := by
  unfold subsection at found
  split at found
  · cases found
    exact .inl rfl
  · next value held =>
    split at found
    · split at found
      · cases found
        exact .inr held
      · cases found
    · cases found
      exact .inl rfl

/-- Whether a section is another one, perhaps laid over its defaults. -/
def Completes (defaults entries merged : Mapping) : Prop :=
  merged = entries ∨ Value.DistinctKeys (.mapping entries) ∧
    Mapping.layer defaults entries = .ok merged

/-- A section that is no mapping takes the place of its defaults, and any other one is laid over
them. -/
theorem subsection_layer (name : Section) {base user config defaults : Mapping}
    (distinct : Value.DistinctKeys (.mapping user))
    (below : get? name.key.toList base = some (.mapping defaults))
    (laid : Mapping.layer base user = .ok config) :
    StepsAlike (Completes defaults) (user.subsection name) (config.subsection name) := by
  cases distinct with
  | mapping keysDistinct values =>
    rcases get?_layer_cases keysDistinct laid name.key.toList with
      ⟨value, held, new, newLaid, read⟩ | ⟨absent, same⟩
    · rw [below] at newLaid
      rcases Value.layer_over_mapping newLaid with ⟨entries, merged, rfl, rfl, merges⟩ | ⟨-, rfl⟩
      · exact .inr ⟨entries, merged, subsection_of_mapping held, subsection_of_mapping read,
          .inr ⟨values _ (mem_of_get? held), merges⟩⟩
      · have replaced : config.subsection name = user.subsection name := by
          rw [subsection, subsection, held, read]
        rw [replaced]
        exact .of_eq fun _ _ => .inl rfl
    · have silent : user.subsection name = .ok [] := by rw [subsection, absent]
      have nothing : Mapping.layer defaults [] = .ok defaults := by rw [Mapping.layer]
      exact .inr ⟨[], defaults, silent, subsection_of_mapping (same.trans below),
        .inr ⟨.mapping List.nodup_nil (List.forall_mem_nil _), nothing⟩⟩

theorem Completes.getD {defaults entries merged : Mapping}
    (completes : Completes defaults entries merged) (key : Text) {value : Value}
    (below : get? key defaults = some value) (simple : value.isCompound = false) :
    (get? key entries).getD value = (get? key merged).getD value := by
  rcases completes with rfl | ⟨distinct, laid⟩
  · rfl
  · cases distinct with
    | mapping keysDistinct _ => rw [get?_layer_of_simple keysDistinct below simple laid]; rfl

theorem isTruthy_eq_getD (key : String) (value : Value) (entries : Mapping) :
    entries.isTruthy key value.isTruthy = ((get? key.toList entries).getD value).isTruthy := by
  rw [isTruthy]
  cases get? key.toList entries <;> rfl

theorem Completes.isTruthy {defaults entries merged : Mapping}
    (completes : Completes defaults entries merged) (key : String) (value : Value)
    (below : get? key.toList defaults = some value) (simple : value.isCompound = false) :
    entries.isTruthy key value.isTruthy = merged.isTruthy key value.isTruthy := by
  rw [isTruthy_eq_getD, isTruthy_eq_getD, completes.getD key.toList below simple]

end Mapping

/-! ## Options -/

def Options.ofSection (options : Mapping) : Except Fault Options :=
  (fun least =>
    { preserveSpacing := options.isTruthy "preserve_whitespace" false
      preserveCopies := options.isTruthy "preserve_duplicates" false
      multiline := options.isTruthy "multiline_classes" false
      multilineLeast := least }) <$>
    ((options.get? "multiline_min_class_count".toList).getD (.number (.int 5))).toCount

theorem Options.ofConfig_eq (config : Mapping) :
    Options.ofConfig config = config.subsection .options >>= Options.ofSection := by
  rw [ofConfig]
  cases config.subsection .options with
  | error fault => rfl
  | ok options =>
    simp only [bind, Except.bind, ofSection]
    cases options.get? "multiline_min_class_count".toList with
    | none => rfl
    | some least => cases least.toCount <;> rfl

theorem Options.ofConfig_layer {user config : Mapping}
    (distinct : Value.DistinctKeys (.mapping user))
    (laid : Mapping.layer defaultConfig user = .ok config) :
    Options.ofConfig user = Options.ofConfig config := by
  rw [ofConfig_eq, ofConfig_eq]
  refine (Mapping.subsection_layer .options distinct rfl laid).bind_eq ?_
  intro entries merged completes
  have least := completes.getD "multiline_min_class_count".toList rfl rfl
  have spacing := completes.isTruthy "preserve_whitespace" (.bool false) rfl rfl
  have copies := completes.isTruthy "preserve_duplicates" (.bool false) rfl rfl
  have multiline := completes.isTruthy "multiline_classes" (.bool false) rfl rfl
  simp only [Value.isTruthy] at spacing copies multiline
  simp only [ofSection, least, spacing, copies, multiline]

/-! ## Sorting -/

def Treatment.ofSection (sorting : Mapping) : Except Fault Treatment :=
  (fun spacing =>
    { keepFirst := sorting.isTruthy "ignore_first" false
      keepLast := sorting.isTruthy "ignore_last" false
      dropCopies := sorting.isTruthy "remove_duplicates" true
      spacing := spacing }) <$>
    Spacing.ofValue (sorting.get? "collapse_whitespace".toList)

theorem Treatment.ofConfig_eq (config : Mapping) :
    Treatment.ofConfig config = config.subsection .sorting >>= Treatment.ofSection := by
  rw [ofConfig]
  cases config.subsection .sorting with
  | error fault => rfl
  | ok sorting =>
    simp only [bind, Except.bind, ofSection]
    cases Spacing.ofValue (sorting.get? "collapse_whitespace".toList) <;> rfl

/-- Whether two sections give the same settings for sorting an attribute, or the same fault for
spacing. -/
structure Mapping.SortsAlike (sorting other : Mapping) : Prop where
  keepFirst : sorting.isTruthy "ignore_first" false = other.isTruthy "ignore_first" false
  keepLast : sorting.isTruthy "ignore_last" false = other.isTruthy "ignore_last" false
  dropCopies : sorting.isTruthy "remove_duplicates" true = other.isTruthy "remove_duplicates" true
  spacing : Spacing.ofValue (sorting.get? "collapse_whitespace".toList) =
    Spacing.ofValue (other.get? "collapse_whitespace".toList)

/-- The edges at which spaces are dropped by default are those where a spacing is silent. A spacing
that is a mapping is laid over the one below like a section. -/
theorem Spacing.ofValue_completes {defaults entries merged : Mapping}
    (completes : Mapping.Completes defaults entries merged)
    (below : defaults.get? "collapse_whitespace".toList =
      some (.mapping [("start".toList, .bool true), ("end".toList, .bool true)])) :
    Spacing.ofValue (entries.get? "collapse_whitespace".toList) =
      Spacing.ofValue (merged.get? "collapse_whitespace".toList) := by
  rcases completes with rfl | ⟨distinct, laid⟩
  · rfl
  · cases distinct with
    | mapping keysDistinct values =>
      rcases Mapping.get?_layer_cases keysDistinct laid "collapse_whitespace".toList with
        ⟨value, held, new, newLaid, read⟩ | ⟨absent, same⟩
      · rw [below] at newLaid
        rw [held, read]
        rcases Value.layer_over_mapping newLaid with ⟨edges, mergedEdges, rfl, rfl, merges⟩ | ⟨-, rfl⟩
        · have edgesComplete : Mapping.Completes _ edges mergedEdges :=
            .inr ⟨values _ (Mapping.mem_of_get? held), merges⟩
          have dropStart := edgesComplete.isTruthy "start" (.bool true) rfl rfl
          have dropEnd := edgesComplete.isTruthy "end" (.bool true) rfl rfl
          simp only [Value.isTruthy] at dropStart dropEnd
          simp only [Spacing.ofValue, dropStart, dropEnd]
        · rfl
      · rw [absent, same, below]
        rfl

theorem Mapping.sortsAlike_layer {user config : Mapping}
    (distinct : Value.DistinctKeys (.mapping user))
    (laid : Mapping.layer defaultConfig user = .ok config) :
    StepsAlike SortsAlike (user.subsection .sorting) (config.subsection .sorting) := by
  refine (subsection_layer .sorting distinct rfl laid).mono ?_
  intro sorting merged completes
  exact {
    keepFirst := completes.isTruthy "ignore_first" (.bool false) rfl rfl
    keepLast := completes.isTruthy "ignore_last" (.bool false) rfl rfl
    dropCopies := completes.isTruthy "remove_duplicates" (.bool true) rfl rfl
    spacing := Spacing.ofValue_completes completes rfl }

theorem Treatment.ofConfig_layer {user config : Mapping}
    (distinct : Value.DistinctKeys (.mapping user))
    (laid : Mapping.layer defaultConfig user = .ok config) :
    Treatment.ofConfig user = Treatment.ofConfig config := by
  rw [ofConfig, ofConfig]
  refine (Mapping.sortsAlike_layer distinct laid).bind_eq ?_
  intro sorting merged alike
  simp only [alike.spacing, alike.keepFirst, alike.keepLast, alike.dropCopies]

/-! ## Canonical orders -/

theorem Value.any_map_text {α : Type} (parts : List α) (f : α → Text) :
    (parts.map fun part => Value.text (f part)).any (·.isCompound) = false := by
  rw [List.any_map]
  exact List.any_eq_false.mpr fun _ _ => Bool.false_ne_true

theorem Mapping.orderMembers_eq (config : Mapping) :
    config.orderMembers =
      match config.get? classOrderKey with
      | some (.list items) => .ok items
      | some (.text characters) => .ok (characters.map fun c => .text [c])
      | some (.mapping entries) => .ok (entries.map fun entry => .text entry.1)
      | some value => if value.isTruthy then .error (.notAnOrder value) else .ok []
      | none => .ok [] := rfl

theorem Mapping.any_orderMembers {config : Mapping} (simple : ∀ members,
      config.get? classOrderKey = some (.list members) → members.any (·.isCompound) = false)
    {members : List Value} (found : config.orderMembers = .ok members) :
    members.any (·.isCompound) = false := by
  rw [Mapping.orderMembers_eq] at found
  cases held : config.get? classOrderKey with
  | none =>
    rw [held] at found
    cases found
    rfl
  | some order =>
    rw [held] at found
    cases order with
    | list items =>
      cases found
      exact simple _ held
    | text characters =>
      cases found
      exact Value.any_map_text characters _
    | mapping entries =>
      cases found
      exact Value.any_map_text entries _
    | _ =>
      dsimp only at found
      split at found
      · cases found
      · cases found
        rfl

theorem CanonicalOrder.ofValues?_of_any {values : List Value}
    (simple : values.any (·.isCompound) = false) : ofValues? values = some (listed values) :=
  ofValues?_eq_listed (by simpa using simple)

theorem CanonicalOrder.ofValues?_distinct {values : List Value}
    (simple : values.any (·.isCompound) = false) :
    ofValues? (Value.distinct values) = some (listed values) := by
  rw [ofValues?_of_any (Value.any_isCompound_distinct simple), listed, Value.distinct_distinct, listed]

/-- Whether members of two orders can be members, and make the same order. -/
def CanonicalOrder.MadeAlike (members others : List Value) : Prop :=
  ∃ order, ofValues? members = some order ∧ ofValues? others = some order

/-- Over the empty order, another one comes to its distinct members. What is no list takes the place
of the empty order as it is. -/
theorem Mapping.order_layer {user config : Mapping} (distinct : Value.DistinctKeys (.mapping user))
    (laid : Mapping.layer defaultConfig user = .ok config) :
    StepsAlike CanonicalOrder.MadeAlike user.orderMembers config.orderMembers := by
  cases distinct with
  | mapping keysDistinct _ =>
    rcases get?_layer_cases keysDistinct laid classOrderKey with
      ⟨value, held, new, newLaid, read⟩ | ⟨absent, same⟩
    · rw [LoadedConfig.order_default, LoadedConfig.layer_order] at newLaid
      cases value with
      | list added =>
        obtain ⟨simple, rfl⟩ := addOrder_eq_ok.mp newLaid
        rw [List.nil_append] at simple read
        refine .inr ⟨added, Value.distinct added, ?_, ?_, _,
          CanonicalOrder.ofValues?_of_any simple, CanonicalOrder.ofValues?_distinct simple⟩
        · rw [orderMembers_eq, held]
        · rw [orderMembers_eq, read]
      | _ =>
        cases newLaid
        have unchanged : config.orderMembers = user.orderMembers := by
          rw [orderMembers_eq, orderMembers_eq, held, read]
        rw [unchanged]
        refine .of_eq fun members found => ?_
        have simple : members.any (·.isCompound) = false := by
          refine any_orderMembers ?_ found
          rw [held]
          nofun
        have made := CanonicalOrder.ofValues?_of_any simple
        exact ⟨_, made, made⟩
    · rw [LoadedConfig.order_default] at same
      refine .inr ⟨[], [], ?_, ?_, ⟨[]⟩, rfl, rfl⟩
      · rw [orderMembers_eq, absent]
      · rw [orderMembers_eq, same]

/-! ## All settings -/

/-- Whether all that is read from two configurations comes to the same: the options, the section for
sorting an attribute and what it says there, and the order that the members listed make. -/
structure Mapping.SettingsAlike (config other : Mapping) : Prop where
  options : Options.ofConfig config = Options.ofConfig other
  sorting : StepsAlike SortsAlike (config.subsection .sorting) (other.subsection .sorting)
  treatment : Treatment.ofConfig config = Treatment.ofConfig other
  order : StepsAlike CanonicalOrder.MadeAlike config.orderMembers other.orderMembers

/-- What holds without a configuration is what holds where a configuration is silent. -/
theorem Mapping.settingsAlike_of_layer_default {user config : Mapping}
    (distinct : Value.DistinctKeys (.mapping user))
    (laid : Mapping.layer defaultConfig user = .ok config) : user.SettingsAlike config where
  options := Options.ofConfig_layer distinct laid
  sorting := sortsAlike_layer distinct laid
  treatment := Treatment.ofConfig_layer distinct laid
  order := order_layer distinct laid

/-- Part of two sections, and an order with a copy. -/
theorem Mapping.settingsAlike_of_parts :
    let user : Mapping :=
      [("sorting".toList, .mapping
         [("collapse_whitespace".toList, .mapping [("start".toList, .bool false)])]),
       ("options".toList, .mapping [("multiline_classes".toList, .bool true)]),
       ("class_order".toList, .list [.text ['a'], .text ['b'], .text ['a']])]
    ∃ config, Mapping.layer defaultConfig user = .ok config ∧ user.SettingsAlike config := by
  intro user
  have single {key : Text} {value : Value} (distinct : value.DistinctKeys) :
      Value.DistinctKeys (.mapping [(key, value)]) :=
    .mapping (List.nodup_singleton _) (List.forall_mem_singleton.mpr distinct)
  have distinct : Value.DistinctKeys (.mapping user) := by
    refine .mapping (by decide) ?_
    have order : Value.DistinctKeys (.list [.text ['a'], .text ['b'], .text ['a']]) :=
      .list (by simp [Value.DistinctKeys.text])
    simp only [user, List.forall_mem_cons]
    exact ⟨single (single .bool), single .bool, order, List.forall_mem_nil _⟩
  exact ⟨_, rfl, settingsAlike_of_layer_default distinct rfl⟩

end ClassTidy
