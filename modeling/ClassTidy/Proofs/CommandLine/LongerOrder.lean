import ClassTidy.Proofs.Attribute.Parts
import ClassTidy.Proofs.Class.Agreement
import ClassTidy.Proofs.CommandLine.Setup

/-!
# Adding members to a canonical order

Members that are added at the end of a canonical order, such as those of an order file, make no
difference to an attribute without classes of their names. They do change the ranks of its classes
with variants.
-/

set_option autoImplicit false

namespace ClassTidy

/-! ## Sorting with another ranker -/

namespace Sorter

theorem layOut_congr {ranker other : Ranker} {options : Options} {treatment : Treatment}
    {segments : Segments}
    (alike : ∀ dropping, Arrangement.ofClasses ranker dropping segments.classes =
      Arrangement.ofClasses other dropping segments.classes) :
    Sorter.layOut ⟨ranker, options⟩ treatment segments =
      Sorter.layOut ⟨other, options⟩ treatment segments := by
  have sameArrangement (dropCopies : Bool) :
      Sorter.arrangement ⟨ranker, options⟩ dropCopies segments.classes =
        Sorter.arrangement ⟨other, options⟩ dropCopies segments.classes := alike _
  rw [layOut, layOut, rearrange, rearrange, sameArrangement]
  rfl

/-- Sorting asks a ranker for nothing but arrangements of some of the classes. -/
theorem sort_congr {ranker other : Ranker} {text : Text}
    (alike : ∀ some ⊆ (Segments.ofText text).classes, ∀ dropping,
      Arrangement.ofClasses ranker dropping some = Arrangement.ofClasses other dropping some)
    (options : Options) (treatment : Treatment) :
    Sorter.sort ⟨ranker, options⟩ treatment text = Sorter.sort ⟨other, options⟩ treatment text := by
  have someClasses : (Segments.middle treatment.keepFirst treatment.keepLast
      ((Sorter.spacing ⟨ranker, options⟩ treatment).space (.ofText text))).classes ⊆
        (Segments.ofText text).classes := by
    intro name member
    rw [← Spacing.space_classes (Sorter.spacing ⟨ranker, options⟩ treatment),
      ← Segments.parts_append treatment.keepFirst treatment.keepLast]
    exact List.mem_append_right _ (List.mem_append_left _ member)
  have sameSegments : Sorter.sortSegments ⟨ranker, options⟩ treatment (.ofText text) =
      Sorter.sortSegments ⟨other, options⟩ treatment (.ofText text) := by
    rw [sortSegments_eq, sortSegments_eq]
    exact congrArg (fun body => _ ++ (body ++ _)) (layOut_congr (alike _ someClasses))
  rw [sort, sort, sameSegments]
  rfl

end Sorter

/-! ## Setting up a run -/

/-- A run sorts by the members in the configuration with the names in the order file behind them. -/
theorem Setup.sorter_ofConfig {source : Source} {arguments : Arguments} {config : Mapping}
    {members : List Value} {names : List Text} {setup : Setup}
    (listed : config.orderMembers = .ok members)
    (named : arguments.orderNames source config = .ok names)
    (accepted : Setup.ofConfig source arguments config = .ok setup) :
    ∃ order, CanonicalOrder.ofValues? (members ++ names.map Value.text) = some order ∧
      setup.sorter = ⟨order.ranker, setup.sorter.options⟩ := by
  obtain ⟨_, _, options, order, treatment, sameListed, sameNamed, -, built, -, rfl⟩ :=
    ofConfig_eq_ok.mp accepted
  cases listed.symm.trans sameListed
  cases named.symm.trans sameNamed
  exact ⟨order, built, rfl⟩

/-! ## Members that are added -/

instance (base : Text) (values : List Value) : Decidable (Value.text base ∈ values) :=
  decidable_of_iff (values.any (·.same (.text base)) = true) (by
    simp [List.any_eq_true, Value.same_text_iff])

/-- Whether the base names of a text's classes are listed before if they are added at all. -/
def AddsNothing (values more : List Value) (text : Text) : Prop :=
  ∀ name ∈ (Segments.ofText text).classes, .text name.base ∈ more → .text name.base ∈ values

instance (values more : List Value) (text : Text) : Decidable (AddsNothing values more text) :=
  inferInstanceAs (Decidable (∀ name ∈ (Segments.ofText text).classes, _ → _))

namespace CanonicalOrder

theorem sort_listed_append {values more : List Value} {text : Text}
    (unaffected : AddsNothing values more text) (options : Options) (treatment : Treatment) :
    Sorter.sort ⟨(listed (values ++ more)).ranker, options⟩ treatment text =
      Sorter.sort ⟨(listed values).ranker, options⟩ treatment text := by
  have agrees : (listed (values ++ more)).ranking.AgreesOn (listed values).ranking
      (Segments.ofText text).classes :=
    ranking_agreesOn fun name member => position?_append (unaffected name member)
  exact Sorter.sort_congr (fun some subset => (agrees.subset subset).ofClasses) options treatment

/-- Members that are added at the end, twice or from an order file, make no difference to a text
without their names. -/
theorem sort_append_members {values more : List Value}
    (simple : ∀ value ∈ values ++ more, value.isCompound = false) :
    ∃ order longer, ofValues? values = some order ∧ ofValues? (values ++ more) = some longer ∧
      ofValues? (values ++ more.filter fun value => !values.any (·.same value)) = some longer ∧
      ∀ text, AddsNothing values more text →
        (∀ options treatment, Sorter.sort ⟨longer.ranker, options⟩ treatment text =
          Sorter.sort ⟨order.ranker, options⟩ treatment text) ∧
        ∀ source arguments config names setup, config.orderMembers = .ok values →
          arguments.orderNames source config = .ok names → names.map Value.text = more →
          Setup.ofConfig source arguments config = .ok setup →
            setup.sorter.sort setup.treatment text =
              Sorter.sort ⟨order.ranker, setup.sorter.options⟩ setup.treatment text := by
  have valuesSimple : ∀ value ∈ values, value.isCompound = false :=
    fun value member => simple value (List.mem_append_left _ member)
  have fewerSimple : ∀ value ∈ values ++ more.filter fun value => !values.any (·.same value),
      value.isCompound = false :=
    fun value member => simple value ((List.filter_sublist.append_left values).subset member)
  refine ⟨listed values, listed (values ++ more), ofValues?_eq_listed valuesSimple,
    ofValues?_eq_listed simple, ?_, fun text unaffected => ⟨sort_listed_append unaffected, ?_⟩⟩
  · rw [ofValues?_eq_listed fewerSimple, listed_append_filter]
  · rintro source arguments config names setup members named rfl accepted
    obtain ⟨order, built, sorter⟩ := Setup.sorter_ofConfig members named accepted
    rw [ofValues?_eq_listed simple] at built
    cases built
    rw [sorter]
    exact sort_listed_append unaffected _ _

/-- With a third member, the classes with a variant have higher ranks than before. -/
theorem sort_append_members_letters :
    let values := [Value.text ['a'], .text ['b']]
    let more := [Value.text ['c'], .text ['a']]
    let text := ['x', ':', 'b', ' ', 'z', ' ', 'x', ':', 'a', ' ', 'b']
    ((∀ value ∈ values ++ more, value.isCompound = false) ∧ AddsNothing values more text) ∧
      ∃ order longer, ofValues? values = some order ∧ ofValues? (values ++ more) = some longer ∧
        Sorter.sort ⟨longer.ranker, {}⟩ {} text = Sorter.sort ⟨order.ranker, {}⟩ {} text := by
  intro values more text
  have unaffected : AddsNothing values more text := by decide
  obtain ⟨order, longer, built, builtLonger, -, alike⟩ :=
    @sort_append_members values more (by decide)
  exact ⟨⟨by decide, unaffected⟩, order, longer, built, builtLonger,
    (alike text unaffected).1 {} {}⟩

end CanonicalOrder

end ClassTidy
