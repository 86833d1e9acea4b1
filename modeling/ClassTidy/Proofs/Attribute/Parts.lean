import ClassTidy.Proofs.Attribute.Sort

/-!
# The parts of an attribute

The classes of an attribute fall into those kept in front, those that are sorted, and those kept at
the back. Sorting arranges the middle part and leaves the parts at the ends where they are, so the
words of the result are the three parts again.
-/

set_option autoImplicit false

namespace ClassTidy

open Segments

namespace Segments

/-- What is left of segments to be sorted. -/
def middle (keepFirst keepLast : Bool) (segments : Segments) : Segments :=
  (cutLast keepLast (cutFirst keepFirst segments).2).2

def front (keepFirst : Bool) (segments : Segments) : List ClassName :=
  if keepFirst then segments.classes.take 1 else []

/-- The class that is kept at the back. It is never the one that is kept in front. -/
def back (keepFirst keepLast : Bool) (segments : Segments) : List ClassName :=
  if keepLast then (cutFirst keepFirst segments).2.classes.getLast?.toList else []

theorem front_append_cutFirst (keepFirst : Bool) (segments : Segments) :
    segments.front keepFirst ++ (cutFirst keepFirst segments).2.classes = segments.classes := by
  cases keepFirst with
  | false => rfl
  | true =>
    obtain ⟨classes, gaps⟩ := segments
    cases classes <;> rfl

theorem cutLast_append_back (keepFirst keepLast : Bool) (segments : Segments) :
    (segments.middle keepFirst keepLast).classes ++ segments.back keepFirst keepLast =
      (cutFirst keepFirst segments).2.classes := by
  rw [middle, back]
  obtain ⟨classes, gaps⟩ := (cutFirst keepFirst segments).2
  cases keepLast with
  | false => exact List.append_nil classes
  | true =>
    rcases List.eq_nil_or_concat' classes with rfl | ⟨others, last, rfl⟩
    · rfl
    · simp [cutLast, takeLast]

/-- The three parts make up all classes. -/
theorem parts_append (keepFirst keepLast : Bool) (segments : Segments) :
    segments.front keepFirst ++
      ((segments.middle keepFirst keepLast).classes ++ segments.back keepFirst keepLast) =
        segments.classes := by
  rw [cutLast_append_back, front_append_cutFirst]

end Segments

theorem Text.words_plain {name : Text} (plain : name.IsPlain) :
    Text.words name = [name].filter fun word => !word.isEmpty := by
  rw [Text.words_of_isPlain plain]
  cases name <;> rfl

namespace Sorter

section

variable {sorter : Sorter} (faithful : sorter.ranker.IsFaithful) {treatment : Treatment}
  {segments : Segments} (separated : segments.Separated)
  (separate : (sorter.spacing treatment).isCollapsed = true →
    ∀ name ∈ segments.classes, name.BlanksSeparate)
include faithful separated separate

theorem words_sortSegments_plain (first : treatment.keepFirst = false)
    (last : treatment.keepLast = false) :
    Text.words (sorter.sortSegments treatment segments) =
      (sorter.arrangement treatment.dropCopies segments.classes).classes.filter
        fun name => !name.isEmpty := by
  have sameClasses := (sorter.spacing treatment).space_classes segments
  have spaced : ((sorter.spacing treatment).space segments).Separated :=
    (sorter.spacing treatment).space_woven separated
  rw [sorter.sortSegments_plain first last,
    words_layOut faithful treatment spaced (by rwa [sameClasses]), sameClasses]

theorem words_sortSegments_last (first : treatment.keepFirst = false) :
    Text.words (sorter.sortSegments treatment segments) =
      ((sorter.arrangement treatment.dropCopies
          (segments.middle false treatment.keepLast).classes).classes ++
        segments.back false treatment.keepLast).filter fun name => !name.isEmpty := by
  cases last : treatment.keepLast with
  | false =>
    rw [words_sortSegments_plain faithful separated separate first last]
    exact congrArg _ (List.append_nil _).symm
  | true =>
    rcases Woven.cases_last separated with rfl | ⟨name, plain, rfl⟩ |
      ⟨name, gap, rest, plain, isGap, restSeparated, rfl⟩
    · have noClass : (Segments.middle false true ⟨[], []⟩).classes = [] := rfl
      rw [sortSegments_nil faithful, noClass, arrangement_nil faithful, Text.words_nil]
      rfl
    · have noClass : (Segments.middle false true ⟨[name], []⟩).classes = [] := rfl
      rw [sortSegments_single_last faithful plain (fun collapsed => separate collapsed name (by simp))
        first last, noClass, arrangement_nil faithful, Text.words_plain plain]
      rfl
    · have nameSeparate := fun collapsed => separate collapsed name (by simp [before])
      have restWords := @words_sortSegments_plain _ (unbroken_faithful faithful)
        { treatment with keepLast := false } _ restSeparated
        (fun collapsed inner member => separate collapsed inner (List.mem_append_left _ member))
        first rfl
      have rest_classes : ((rest.before name gap).middle false true).classes = rest.classes := by
        simp [Segments.middle, cutFirst, cutLast, takeLast, before]
      have kept : (rest.before name gap).back false true = [name] := by
        simp [Segments.back, cutFirst, before]
      rw [sortSegments_before plain nameSeparate first last,
        Text.words_append_gap _ _ ((sorter.spacing treatment).isGap_gap isGap), restWords,
        Text.words_plain plain, rest_classes, kept, List.filter_append]
      rfl

/-- The words of the result are the parts in their order, with the middle one arranged. -/
theorem words_sortSegments :
    Text.words (sorter.sortSegments treatment segments) =
      (segments.front treatment.keepFirst ++
        ((sorter.arrangement treatment.dropCopies
            (segments.middle treatment.keepFirst treatment.keepLast).classes).classes ++
          segments.back treatment.keepFirst treatment.keepLast)).filter
        fun name => !name.isEmpty := by
  cases first : treatment.keepFirst with
  | false => exact words_sortSegments_last faithful separated separate first
  | true =>
    rcases Woven.cases_first separated with rfl | ⟨name, plain, rfl⟩ |
      ⟨name, gap, rest, plain, isGap, restSeparated, rfl⟩
    · have noClass : (Segments.middle true treatment.keepLast ⟨[], []⟩).classes = [] := by
        cases treatment.keepLast <;> rfl
      have noBack : Segments.back true treatment.keepLast ⟨[], []⟩ = [] := by
        cases treatment.keepLast <;> rfl
      rw [sortSegments_nil faithful, noClass, noBack, arrangement_nil faithful, Text.words_nil]
      rfl
    · have noClass : (Segments.middle true treatment.keepLast ⟨[name], []⟩).classes = [] := by
        cases treatment.keepLast <;> rfl
      have noBack : Segments.back true treatment.keepLast ⟨[name], []⟩ = [] := by
        cases treatment.keepLast <;> rfl
      rw [sortSegments_single_first faithful plain
        (fun collapsed => separate collapsed name (by simp)) first, noClass, noBack,
        arrangement_nil faithful, Text.words_plain plain]
      rfl
    · have nameSeparate := fun collapsed => separate collapsed name (by simp [behind])
      have restWords := @words_sortSegments_last _ (unbroken_faithful faithful)
        { treatment with keepFirst := false } _ restSeparated
        (fun collapsed inner member => separate collapsed inner (List.mem_cons_of_mem _ member)) rfl
      rw [sortSegments_behind plain nameSeparate first,
        Text.words_append_gap _ _ ((sorter.spacing treatment).isGap_gap isGap), restWords,
        Text.words_plain plain, ← List.filter_append]
      rfl

end

end Sorter

end ClassTidy
