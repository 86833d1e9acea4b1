import ClassTidy.Attribute.Sort
import ClassTidy.Proofs.Attribute.Segments

/-!
# Laying out classes

Classes are laid out on one line with a space between each two, or on a line for each group. Both
are ways of joining the classes with gaps of one character.
-/

set_option autoImplicit false

namespace ClassTidy

open Segments

/-! ## One line -/

theorem Text.intercalate_cons_cons (separator : Char) (first second : Text) (rest : List Text) :
    intercalate separator (first :: second :: rest) =
      first ++ separator :: intercalate separator (second :: rest) := rfl

theorem Text.intercalate_eq_join (separator : Char) (texts : List Text) :
    intercalate separator texts = join texts (List.replicate (texts.length - 1) [separator]) := by
  induction texts with
  | nil => rfl
  | cons first rest ih =>
    cases rest with
    | nil => exact (List.append_nil first).symm
    | cons second later =>
      rw [intercalate_cons_cons, ih]
      rfl

namespace Segments

/-- Classes with a space between each two. -/
def spacedOut (classes : List ClassName) : Segments :=
  ⟨classes, List.replicate (classes.length - 1) [' ']⟩

theorem toText_spacedOut (classes : List ClassName) :
    (spacedOut classes).toText = Text.intercalate ' ' classes :=
  (Text.intercalate_eq_join ' ' classes).symm

theorem spacedOut_named {classes : List ClassName} (words : ∀ name ∈ classes, name.IsWord) :
    (spacedOut classes).Named := by
  have length : (spacedOut classes).gaps.length = classes.length - 1 := List.length_replicate
  apply woven_of_lengths words
  · intro gap member
    rw [List.eq_of_mem_replicate member]
    rfl
  · omega
  · omega

theorem intercalate_edges {classes : List ClassName} (words : ∀ name ∈ classes, name.IsWord)
    (ne_nil : classes ≠ []) :
    (Text.intercalate ' ' classes).startsApart = false ∧
      (Text.intercalate ' ' classes).endsApart = false := by
  have named := spacedOut_named words
  have unpaired : (spacedOut classes).gaps.length ≠ classes.length := by
    have some_class : 0 < classes.length := List.length_pos_iff.mpr ne_nil
    have length : (spacedOut classes).gaps.length = classes.length - 1 := List.length_replicate
    omega
  rw [← toText_spacedOut]
  exact ⟨named.startsApart_toText, named.not_endsApart unpaired⟩

theorem intercalate_ne_nil {classes : List ClassName} (words : ∀ name ∈ classes, name.IsWord)
    (ne_nil : classes ≠ []) : Text.intercalate ' ' classes ≠ [] := by
  rw [← toText_spacedOut]
  exact (spacedOut_named words).toText_ne_nil ne_nil

theorem words_intercalate {classes : List ClassName} (words : ∀ name ∈ classes, name.IsWord) :
    Text.words (Text.intercalate ' ' classes) = classes := by
  rw [← toText_spacedOut]
  exact (spacedOut_named words).words_toText

theorem blanksSeparate_intercalate {classes : List ClassName}
    (words : ∀ name ∈ classes, name.IsWord)
    (separate : ∀ name ∈ classes, name.BlanksSeparate) :
    Text.BlanksSeparate (Text.intercalate ' ' classes) := by
  rw [← toText_spacedOut]
  exact blanksSeparate_join separate (spacedOut_named words).gaps_isGap

/-- The line starts with the first class, and ends with the last. -/
theorem startsBlank_intercalate {classes : List ClassName}
    (words : ∀ name ∈ classes, name.IsWord) :
    Text.startsBlank (Text.intercalate ' ' classes) = classes.head?.any Text.startsBlank := by
  cases classes with
  | nil => rfl
  | cons name rest =>
    cases rest with
    | nil => rfl
    | cons second later =>
      rw [Text.intercalate_cons_cons, Text.startsBlank_append _ (words name List.mem_cons_self).ne_nil]
      rfl

theorem endsBlank_intercalate {classes : List ClassName}
    (words : ∀ name ∈ classes, name.IsWord) :
    Text.endsBlank (Text.intercalate ' ' classes) = classes.getLast?.any Text.endsBlank := by
  induction classes with
  | nil => rfl
  | cons name rest ih =>
    cases rest with
    | nil => rfl
    | cons second later =>
      have others := (List.forall_mem_cons.mp words).2
      have some_line := intercalate_ne_nil others (List.cons_ne_nil _ _)
      rw [List.getLast?_cons_cons, ← ih others, Text.intercalate_cons_cons, ← List.singleton_append,
        ← List.append_assoc, Text.endsBlank_append _ some_line]

end Segments

/-! ## A line for each group -/

namespace Group

/-- The gaps between neighbouring classes: a line feed between two groups, and else a space. -/
def lineGaps : List ClassName → List Text
  | first :: second :: rest =>
    (if second.category = first.category then [' '] else ['\n']) :: lineGaps (second :: rest)
  | _ => []

theorem lineGaps_length (classes : List ClassName) :
    (lineGaps classes).length = classes.length - 1 := by
  fun_induction lineGaps classes with
  | case1 first second rest ih =>
    rw [List.length_cons, ih]
    rfl
  | case2 classes short =>
    cases classes with
    | nil => rfl
    | cons first rest =>
      cases rest with
      | nil => rfl
      | cons second later => exact (short first second later rfl).elim

theorem lineGaps_isGap (classes : List ClassName) :
    ∀ gap ∈ lineGaps classes, gap.isGap = true := by
  fun_induction lineGaps classes with
  | case1 first second rest ih =>
    refine List.forall_mem_cons.mpr ⟨?_, ih⟩
    split <;> exact Text.isGap_singleton rfl
  | case2 classes short => simp

theorem woven_lineGaps {admits : ClassName → Prop} {classes : List ClassName}
    (admitted : ∀ name ∈ classes, admits name) : Woven admits classes (lineGaps classes) := by
  have length := lineGaps_length classes
  apply woven_of_lengths admitted (lineGaps_isGap classes)
  · omega
  · omega

/-- The groups of a list that is not empty start with a group that starts with the first class. -/
theorem exists_ofClasses_cons (name : ClassName) (classes : List ClassName) :
    ∃ members others,
      ofClasses (name :: classes) = ⟨name.category, name :: members⟩ :: others := by
  rw [ofClasses, List.foldr_cons]
  cases List.foldr Group.cons [] classes with
  | nil => exact ⟨[], [], rfl⟩
  | cons group others =>
    rw [Group.cons]
    split
    next same => exact ⟨group.classes, others, by rw [same]⟩
    next => exact ⟨[], group :: others, rfl⟩

def linesOf (groups : List Group) : Text :=
  Text.intercalate '\n' (groups.map fun group => Text.intercalate ' ' group.classes)

theorem linesOf_cons (group : Group) (others : List Group) :
    linesOf (group :: others) = Text.intercalate ' ' group.classes ++
      if others.isEmpty then [] else '\n' :: linesOf others := by
  cases others with
  | nil => exact (List.append_nil _).symm
  | cons next later => rfl

theorem lines_eq_join (classes : List ClassName) :
    lines classes = join classes (lineGaps classes) := by
  induction classes with
  | nil => rfl
  | cons first rest ih =>
    cases rest with
    | nil => exact (List.append_nil first).symm
    | cons second later =>
      obtain ⟨members, others, groups⟩ := exists_ofClasses_cons second later
      change linesOf (ofClasses (second :: later)) = _ at ih
      change linesOf (Group.cons first (ofClasses (second :: later))) = _
      rw [groups] at ih ⊢
      rw [lineGaps, join_cons_cons, ← ih, Group.cons]
      split
      · rw [linesOf_cons, linesOf_cons, Text.intercalate_cons_cons]
        simp
      · rw [linesOf_cons]
        rfl

/-- Lines do not start or end with a separator. -/
theorem lines_edges {classes : List ClassName} (words : ∀ name ∈ classes, name.IsWord)
    (ne_nil : classes ≠ []) :
    (lines classes).startsApart = false ∧ (lines classes).endsApart = false := by
  have named : Named ⟨classes, lineGaps classes⟩ := woven_lineGaps words
  have unpaired : (lineGaps classes).length ≠ classes.length := by
    have some_class := List.length_pos_iff.mpr ne_nil
    rw [lineGaps_length]
    omega
  rw [lines_eq_join]
  exact ⟨named.startsApart_toText, named.not_endsApart unpaired⟩

theorem lines_ne_nil {classes : List ClassName} (words : ∀ name ∈ classes, name.IsWord)
    (ne_nil : classes ≠ []) : lines classes ≠ [] := by
  have named : Named ⟨classes, lineGaps classes⟩ := woven_lineGaps words
  rw [lines_eq_join]
  exact named.toText_ne_nil ne_nil

/-- An empty class in front only adds a gap. -/
theorem exists_lines_nil_cons {classes : List ClassName} (ne_nil : classes ≠ []) :
    ∃ gap, Text.isGap gap = true ∧ lines ([] :: classes) = gap ++ lines classes := by
  cases classes with
  | nil => exact (ne_nil rfl).elim
  | cons name rest =>
    have isGap := lineGaps_isGap ([] :: name :: rest)
    rw [lineGaps] at isGap
    refine ⟨_, isGap _ List.mem_cons_self, ?_⟩
    rw [lines_eq_join, lines_eq_join, lineGaps, join_cons_cons, List.nil_append]

theorem startsApart_lines_nil_cons {classes : List ClassName} (ne_nil : classes ≠ []) :
    (lines ([] :: classes)).startsApart = true := by
  obtain ⟨gap, isGap, behindGap⟩ := exists_lines_nil_cons ne_nil
  rw [behindGap, Text.startsApart_append _ (Text.isGap_iff.mp isGap).1,
    Text.startsApart_of_isGap isGap]

end Group

end ClassTidy
