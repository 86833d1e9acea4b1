import ClassTidy.Proofs.Attribute.Lines
import ClassTidy.Proofs.Attribute.Rearrange

/-!
# Laying out

The parts that the text of a sorted attribute is put together from: the gaps as the spacing in
force has them, the trimmed ends, and the classes in lines or with the gaps they keep.
-/

set_option autoImplicit false

namespace ClassTidy

open Segments

/-! ## The spacing in force -/

namespace Spacing

def gap (spacing : Spacing) (gap : Text) : Text := if spacing.isCollapsed then [' '] else gap

def space (spacing : Spacing) (segments : Segments) : Segments :=
  if spacing.isCollapsed then segments.collapse else segments

/-- Trim what comes from the sorted classes. -/
def trim : Spacing → Text → Text
  | .verbatim, text => text
  | .collapsed dropStart dropEnd, text => Text.trimEnds dropStart dropEnd text

def trimFront (spacing : Spacing) (front : Text) : Text :=
  if spacing.isCollapsed then Text.replaceTrailing [' '] front else front

def trimBack (spacing : Spacing) (back : Text) : Text :=
  if spacing.isCollapsed then Text.replaceLeading [' '] back else back

@[simp] theorem trimFront_nil (spacing : Spacing) : spacing.trimFront [] = [] := by
  cases spacing <;> rfl

@[simp] theorem trimBack_nil (spacing : Spacing) : spacing.trimBack [] = [] := by
  cases spacing <;> rfl

@[simp] theorem trim_nil (spacing : Spacing) : spacing.trim [] = [] := by
  cases spacing <;> rfl

theorem space_classes (spacing : Spacing) (segments : Segments) :
    (spacing.space segments).classes = segments.classes := by
  cases spacing <;> rfl

theorem space_gaps (spacing : Spacing) (segments : Segments) :
    (spacing.space segments).gaps = segments.gaps.map spacing.gap := by
  cases spacing with
  | verbatim => exact (List.map_id segments.gaps).symm
  | collapsed dropStart dropEnd => rfl

theorem isGap_gap (spacing : Spacing) {gap : Text} (isGap : gap.isGap = true) :
    (spacing.gap gap).isGap = true := by
  cases spacing with
  | verbatim => exact isGap
  | collapsed dropStart dropEnd => rfl

theorem gap_gap (spacing : Spacing) (gap : Text) :
    spacing.gap (spacing.gap gap) = spacing.gap gap := by
  cases spacing <;> rfl

theorem space_woven (spacing : Spacing) {admits : ClassName → Prop} {segments : Segments}
    (woven : Woven admits segments.classes segments.gaps) :
    Woven admits (spacing.space segments).classes (spacing.space segments).gaps := by
  obtain ⟨classes, gaps⟩ := segments
  rw [space_classes, space_gaps]
  simp only at woven ⊢
  induction woven with
  | nil => exact .nil
  | last admitted => exact .last admitted
  | cons admitted isGap _ ih => exact .cons admitted (spacing.isGap_gap isGap) ih

/-- A class in front of a gap is not touched by trimming. -/
theorem trimFront_append (spacing : Spacing) {name : Text} (gap : Text) (plain : name.IsPlain)
    (separate : spacing.isCollapsed = true → name.BlanksSeparate) :
    spacing.trimFront (name ++ spacing.gap gap) = name ++ spacing.gap gap := by
  cases spacing with
  | verbatim => rfl
  | collapsed dropStart dropEnd =>
    have space : Text.IsSpace [' '] := Text.isSpace_of_isGap rfl
    exact Text.replaceTrailing_append [' '] space ((separate rfl).endsBlank_eq.trans plain.endsApart)

theorem trimFront_plain (spacing : Spacing) {name : Text} (plain : name.IsPlain)
    (separate : spacing.isCollapsed = true → name.BlanksSeparate) :
    spacing.trimFront name = name := by
  cases spacing with
  | verbatim => rfl
  | collapsed dropStart dropEnd =>
    exact Text.replaceTrailing_eq_self [' '] ((separate rfl).endsBlank_eq.trans plain.endsApart)

theorem trimBack_append (spacing : Spacing) {name : Text} (gap : Text) (plain : name.IsPlain)
    (separate : spacing.isCollapsed = true → name.BlanksSeparate) :
    spacing.trimBack (spacing.gap gap ++ name) = spacing.gap gap ++ name := by
  cases spacing with
  | verbatim => rfl
  | collapsed dropStart dropEnd =>
    have space : Text.IsSpace [' '] := Text.isSpace_of_isGap rfl
    exact Text.replaceLeading_append [' '] space ((separate rfl).startsBlank_eq.trans plain.startsApart)

theorem trimBack_plain (spacing : Spacing) {name : Text} (plain : name.IsPlain)
    (separate : spacing.isCollapsed = true → name.BlanksSeparate) :
    spacing.trimBack name = name := by
  cases spacing with
  | verbatim => rfl
  | collapsed dropStart dropEnd =>
    exact Text.replaceLeading_eq_self [' '] ((separate rfl).startsBlank_eq.trans plain.startsApart)

theorem space_takeFirst (spacing : Spacing) (segments : Segments) :
    (spacing.space segments).takeFirst.2 = spacing.space segments.takeFirst.2 := by
  cases spacing with
  | verbatim => rfl
  | collapsed dropStart dropEnd => simp [space, isCollapsed, takeFirst, collapse, List.map_tail]

theorem space_takeLast (spacing : Spacing) (segments : Segments) :
    (spacing.space segments).takeLast.2 = spacing.space segments.takeLast.2 := by
  cases spacing with
  | verbatim => rfl
  | collapsed dropStart dropEnd => simp [space, isCollapsed, takeLast, collapse, List.map_dropLast]

end Spacing

namespace Segments

def cutFirst (keeps : Bool) (segments : Segments) : Text × Segments :=
  if keeps then segments.takeFirst else ([], segments)

def cutLast (keeps : Bool) (segments : Segments) : Text × Segments :=
  if keeps then segments.takeLast else ([], segments)

end Segments

namespace Sorter

/-- Lay out segments whose classes are all sorted. -/
def layOut (sorter : Sorter) (treatment : Treatment) (segments : Segments) : Text :=
  if sorter.breaksLines treatment
      (sorter.arrangement treatment.dropCopies segments.classes).classes then
    Group.lines (sorter.arrangement treatment.dropCopies segments.classes).classes
  else (sorter.spacing treatment).trim (sorter.rearrange treatment.dropCopies segments).toText

theorem isCollapsed_of_breaksLines {sorter : Sorter} {treatment : Treatment}
    {classes : List ClassName} (broken : sorter.breaksLines treatment classes = true) :
    (sorter.spacing treatment).isCollapsed = true := by
  simp only [breaksLines, breaksLong, Bool.and_eq_true] at broken
  exact broken.1.2

theorem breaksLines_of_length_le {sorter : Sorter} {treatment : Treatment}
    {some more : List ClassName} (flat : sorter.breaksLines treatment more = false)
    (fewer : some.length ≤ more.length) :
    sorter.breaksLines treatment some = false := by
  simp only [breaksLines, Bool.and_eq_false_iff, decide_eq_false_iff_not] at flat ⊢
  rcases flat with short | few
  · exact .inl short
  · right
    omega

theorem sortSegments_eq (sorter : Sorter) (treatment : Treatment) (segments : Segments) :
    let spacing := sorter.spacing treatment
    let first := cutFirst treatment.keepFirst (spacing.space segments)
    let last := cutLast treatment.keepLast first.2
    sorter.sortSegments treatment segments =
      spacing.trimFront first.1 ++
        (sorter.layOut treatment last.2 ++ spacing.trimBack last.1) := by
  intro spacing first last
  have inForce : sorter.spacing treatment = spacing := rfl
  clear_value spacing
  have branches : sorter.sortSegments treatment segments =
      if sorter.breaksLines treatment
          (sorter.arrangement treatment.dropCopies last.2.classes).classes then
        Text.replaceTrailing [' '] first.1 ++
            Group.lines (sorter.arrangement treatment.dropCopies last.2.classes).classes ++
          Text.replaceLeading [' '] last.1
      else
        spacing.trimFront first.1 ++
            spacing.trim (sorter.rearrange treatment.dropCopies last.2).toText ++
          spacing.trimBack last.1 := by
    rw [sortSegments, inForce]
    cases spacing with
    | verbatim => rfl
    | collapsed dropStart dropEnd => rfl
  rw [branches, layOut, inForce]
  split
  next broken =>
    have collapsed := isCollapsed_of_breaksLines broken
    rw [inForce] at collapsed
    rw [Spacing.trimFront, Spacing.trimBack, if_pos collapsed, if_pos collapsed, List.append_assoc]
  next => exact List.append_assoc _ _ _

end Sorter

end ClassTidy
