import ClassTidy.Attribute.Sort
import ClassTidy.Proofs.Attribute.Segments
import ClassTidy.Proofs.Class.Arrangement

/-!
# Rearranging segments

The classes of segments are arranged in place, and one gap goes with each dropped class. What
is left is woven as before.
-/

set_option autoImplicit false

namespace ClassTidy

namespace Segments

/-! ## Gaps that go with dropped classes -/

/-- A gap goes if the position behind it is one of those removed. -/
theorem dropGaps_eq_filter (removed : List Nat) (position : Nat) (gaps : List Text) :
    dropGaps removed position gaps =
      ((gaps.zipIdx position).filter fun slot => !removed.contains (slot.2 + 1)).map (·.1) := by
  induction gaps generalizing position with
  | nil => rfl
  | cons gap gaps ih =>
    rw [dropGaps, List.zipIdx_cons, List.filter_cons]
    cases dropped : removed.contains (position + 1) with
    | true => simpa [dropped] using ih (position + 1)
    | false => simpa [dropped] using ih (position + 1)

theorem dropGaps_sublist (removed : List Nat) (position : Nat) (gaps : List Text) :
    (dropGaps removed position gaps).Sublist gaps := by
  fun_induction dropGaps removed position gaps with
  | case1 => exact .slnil
  | case2 position gap gaps later dropped ih => exact ih.cons gap
  | case3 position gap gaps later stays ih => exact ih.cons_cons gap

@[simp] theorem dropGaps_nil (position : Nat) (gaps : List Text) :
    dropGaps [] position gaps = gaps := by
  induction gaps generalizing position with
  | nil => rfl
  | cons gap gaps ih => exact congrArg (gap :: ·) (ih (position + 1))

theorem dropGaps_map (removed : List Nat) (position : Nat) (gaps : List Text) (f : Text → Text) :
    dropGaps removed position (gaps.map f) = (dropGaps removed position gaps).map f := by
  induction gaps generalizing position with
  | nil => rfl
  | cons gap gaps ih =>
    simp only [List.map_cons, dropGaps, ih]
    split <;> rfl

theorem dropGaps_succ (removed : List Nat) (position : Nat) (gaps : List Text) :
    dropGaps (removed.map (· + 1)) (position + 1) gaps = dropGaps removed position gaps := by
  induction gaps generalizing position with
  | nil => rfl
  | cons gap gaps ih =>
    have shifted : (removed.map (· + 1)).contains (position + 1 + 1) =
        removed.contains (position + 1) := by
      rw [Bool.eq_iff_iff]
      simp
    simp only [dropGaps, ih, shifted]

theorem dropGaps_concat (removed : List Nat) (position : Nat) (gaps : List Text) (gap : Text) :
    dropGaps removed position (gaps ++ [gap]) = dropGaps removed position gaps ++
      if removed.contains (position + gaps.length + 1) then [] else [gap] := by
  induction gaps generalizing position with
  | nil => rfl
  | cons first gaps ih =>
    have shifted : position + 1 + gaps.length + 1 = position + (first :: gaps).length + 1 := by
      rw [List.length_cons]
      omega
    rw [List.cons_append, dropGaps, dropGaps, ih, shifted]
    cases removed.contains (position + 1) <;> rfl

/-- A position that was passed is not met again. -/
theorem dropGaps_cons_of_le {index position : Nat} (removed : List Nat) (gaps : List Text)
    (passed : index ≤ position) :
    dropGaps (index :: removed) position gaps = dropGaps removed position gaps := by
  induction gaps generalizing position with
  | nil => rfl
  | cons gap gaps ih =>
    have other : (index :: removed).contains (position + 1) = removed.contains (position + 1) := by
      have unequal : (position + 1 == index) = false := by
        rw [beq_eq_false_iff_ne]
        omega
      rw [List.contains_cons, unequal, Bool.false_or]
    simp only [dropGaps, other, ih (Nat.le_succ_of_le passed)]

/-- As many gaps go as there are positions, if all these are met. -/
theorem dropGaps_length {removed : List Nat} {position : Nat} {gaps : List Text}
    (increasing : removed.Pairwise (· < ·))
    (met : ∀ index ∈ removed, position < index ∧ index ≤ position + gaps.length) :
    (dropGaps removed position gaps).length + removed.length = gaps.length := by
  induction gaps generalizing removed position with
  | nil =>
    cases removed with
    | nil => rfl
    | cons index others =>
      have bounds := met index List.mem_cons_self
      rw [List.length_nil] at bounds
      omega
  | cons gap gaps ih =>
    rw [List.length_cons] at met
    rw [dropGaps]
    by_cases dropped : position + 1 ∈ removed
    · rw [if_pos (List.contains_iff_mem.mpr dropped)]
      cases removed with
      | nil => cases dropped
      | cons index others =>
        obtain ⟨before, othersIncreasing⟩ := List.pairwise_cons.mp increasing
        have first : index = position + 1 := by
          have bounds := met index List.mem_cons_self
          rcases List.mem_cons.mp dropped with same | later
          · exact same.symm
          · have less := before _ later
            omega
        have othersMet : ∀ other ∈ others,
            position + 1 < other ∧ other ≤ position + 1 + gaps.length := by
          intro other member
          have less := before other member
          have bounds := met other (List.mem_cons_of_mem _ member)
          omega
        have later := ih othersIncreasing othersMet
        rw [dropGaps_cons_of_le others gaps first.le, List.length_cons, List.length_cons, ← later]
        omega
    · rw [if_neg (by simpa using dropped)]
      have laterMet : ∀ index ∈ removed,
          position + 1 < index ∧ index ≤ position + 1 + gaps.length := by
        intro index member
        have bounds := met index member
        have other : index ≠ position + 1 := fun same => dropped (same ▸ member)
        omega
      have later := ih increasing laterMet
      rw [List.length_cons, List.length_cons, ← later]
      omega

end Segments

namespace Sorter

open Segments

/-- Arrange the classes of segments, and drop the gaps that go with dropped classes. -/
def rearrange (sorter : Sorter) (dropping : Bool) (segments : Segments) : Segments :=
  ⟨(sorter.arrangement dropping segments.classes).classes,
    dropGaps (sorter.arrangement dropping segments.classes).removed 0 segments.gaps⟩

/-! ## Rearranging with a faithful ranker -/

section

variable {sorter : Sorter} (faithful : sorter.ranker.IsFaithful) (dropping : Bool)
include faithful

theorem ranker_length (classes : List ClassName) :
    (sorter.ranker classes).length = classes.length := by
  simpa using (faithful classes).length_eq

theorem rearrange_classes_length (segments : Segments) :
    (sorter.rearrange dropping segments).classes.length +
      (sorter.arrangement dropping segments.classes).removed.length =
        segments.classes.length :=
  (Arrangement.ofClasses_length _ _ _).trans (ranker_length faithful _)

theorem rearrange_gaps_length {segments : Segments}
    (enough : segments.classes.length ≤ segments.gaps.length + 1) :
    (sorter.rearrange dropping segments).gaps.length +
      (sorter.arrangement dropping segments.classes).removed.length = segments.gaps.length := by
  apply dropGaps_length (Arrangement.ofClasses_increasing _ _ _)
  intro index member
  have bounds := Arrangement.ofClasses_bounds _ _ _ index member
  rw [ranker_length faithful] at bounds
  omega

theorem mem_of_mem_rearrange {segments : Segments} {name : ClassName}
    (member : name ∈ (sorter.rearrange dropping segments).classes) : name ∈ segments.classes :=
  (faithful _).subset (Arrangement.mem_of_mem_ofClasses _ _ _ member)

theorem rearrange_ne_nil {segments : Segments} (ne_nil : segments.classes ≠ []) :
    (sorter.rearrange dropping segments).classes ≠ [] := by
  apply Arrangement.ofClasses_ne_nil
  intro empty
  have length := ranker_length faithful segments.classes
  rw [empty] at length
  exact ne_nil (List.length_eq_zero_iff.mp length.symm)

theorem rearrange_woven {admits : ClassName → Prop} {segments : Segments}
    (woven : Woven admits segments.classes segments.gaps) :
    Woven admits (sorter.rearrange dropping segments).classes
      (sorter.rearrange dropping segments).gaps := by
  have classesLength := rearrange_classes_length faithful dropping segments
  have gapsLength := rearrange_gaps_length faithful dropping woven.le_length
  have fewer := woven.length_le
  have enough := woven.le_length
  apply woven_of_lengths
  · exact fun name member => woven.admits_all name (mem_of_mem_rearrange faithful dropping member)
  · exact fun gap member => woven.gaps_isGap gap ((dropGaps_sublist _ _ _).subset member)
  · omega
  · omega

end

theorem rearrange_collapse (sorter : Sorter) (dropping : Bool) (segments : Segments) :
    sorter.rearrange dropping segments.collapse = (sorter.rearrange dropping segments).collapse := by
  simp only [rearrange, collapse, dropGaps_map]

end Sorter

/-! ## Rearranging by name -/

namespace Ranking

open Segments

def sorter (ranking : Ranking) (options : Options) : Sorter := ⟨ranking.ranker, options⟩

variable (ranking : Ranking) (options : Options) (dropping : Bool)

theorem sorter_faithful : (ranking.sorter options).ranker.IsFaithful := ranking.ranker_isFaithful

theorem arrangement_arrangement (classes : List ClassName) :
    ((ranking.sorter options).arrangement dropping
        ((ranking.sorter options).arrangement dropping classes).classes).classes =
      ((ranking.sorter options).arrangement dropping classes).classes := by
  have again := ranking.ofClasses_ofClasses (dropping && !options.preserveCopies) classes
  simp only [Sorter.arrangement, sorter, again]

theorem mem_of_mem_arrangement {classes : List ClassName} {name : ClassName}
    (member : name ∈ ((ranking.sorter options).arrangement dropping classes).classes) :
    name ∈ classes :=
  (ranking.ranker_isFaithful _).subset (Arrangement.mem_of_mem_ofClasses _ _ _ member)

theorem arrangement_isWord (text : Text) :
    ∀ name ∈ ((ranking.sorter options).arrangement dropping text.words).classes,
      name.IsWord := by
  intro name member
  exact Text.isWord_of_mem_words (ranking.mem_of_mem_arrangement options dropping member)

theorem arrangement_ne_nil {classes : List ClassName} (ne_nil : classes ≠ []) :
    ((ranking.sorter options).arrangement dropping classes).classes ≠ [] := by
  have kept : ((ranking.sorter options).rearrange dropping ⟨classes, []⟩).classes ≠ [] :=
    Sorter.rearrange_ne_nil (ranking.sorter_faithful options) dropping ne_nil
  exact kept

/-- What was rearranged stays as it is when it is rearranged again. -/
theorem rearrange_rearrange (segments : Segments) :
    (ranking.sorter options).rearrange dropping
        ((ranking.sorter options).rearrange dropping segments) =
      (ranking.sorter options).rearrange dropping segments := by
  have again := ranking.ofClasses_ofClasses
    (dropping && !(ranking.sorter options).options.preserveCopies) segments.classes
  simp only [Sorter.rearrange, Sorter.arrangement, sorter] at again ⊢
  rw [again, dropGaps_nil]

variable {ranking} (unnamed : ranking.rank [] = none)
include unnamed

/-- The classes of a text, arranged: its words, behind an empty class if the text has one. -/
theorem arrangement_ofText (text : Text) :
    ((ranking.sorter options).arrangement dropping (ofText text).classes).classes =
      if text.startsApart then
        [] :: ((ranking.sorter options).arrangement dropping text.words).classes
      else ((ranking.sorter options).arrangement dropping text.words).classes := by
  rw [classes_ofText]
  split
  · exact congrArg Arrangement.classes (ofClasses_nil_cons unnamed _ _)
  · rfl

theorem rearrange_behind (segments : Segments) (gap : Text) :
    (ranking.sorter options).rearrange dropping (segments.behind [] gap) =
      ((ranking.sorter options).rearrange dropping segments).behind [] gap := by
  have arranged := ofClasses_nil_cons unnamed
    (dropping && !(ranking.sorter options).options.preserveCopies) segments.classes
  have positive : (0 : Nat) ∉ (Arrangement.ofClasses ranking.ranker
      (dropping && !options.preserveCopies) segments.classes).removed :=
    fun member => (Arrangement.ofClasses_bounds _ _ _ 0 member).1.ne rfl
  simp only [Sorter.rearrange, Sorter.arrangement, sorter, behind] at arranged ⊢
  rw [arranged, dropGaps, dropGaps_succ]
  simp [positive]

theorem rearrange_indent (leading : Text) (segments : Segments) :
    (ranking.sorter options).rearrange dropping (segments.indent leading) =
      ((ranking.sorter options).rearrange dropping segments).indent leading := by
  cases leading with
  | nil => rfl
  | cons c rest => exact rearrange_behind options dropping unnamed segments (c :: rest)

theorem rearrange_regular {segments : Segments} (regular : Regular segments) :
    Regular ((ranking.sorter options).rearrange dropping segments) := by
  obtain ⟨leading, inner, space, named, rfl⟩ := regular.exists_indent
  have rearranged : Named ((ranking.sorter options).rearrange dropping inner) :=
    Sorter.rearrange_woven (ranking.sorter_faithful options) dropping named
  rw [rearrange_indent options dropping unnamed]
  exact rearranged.regular_indent space

end Ranking

end ClassTidy
