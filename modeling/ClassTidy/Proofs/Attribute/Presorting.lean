import ClassTidy.Proofs.Attribute.Kept
import ClassTidy.Proofs.Attribute.Spacing

/-!
# Sorting in two passes

A first pass that only puts the classes in order, with the spacing verbatim and all copies kept,
leaves a text with the arranged classes and the gaps it had. Arranging these classes once more
drops the same copies at the same positions, so a second pass gives what it would have given alone.
-/

set_option autoImplicit false

namespace ClassTidy

open Segments

/-! ## Templates and gaps -/

namespace Text

theorem isTemplate_cons (c : Char) (rest : Text) :
    isTemplate (c :: rest) =
      (c == '\x7b' && rest.head? == some '\x7b' || rest.isTemplate) := by
  rw [Bool.eq_iff_iff, isTemplate_iff, List.infix_cons_iff, Bool.or_eq_true, isTemplate_iff]
  refine or_congr_left ?_
  rw [List.cons_prefix_cons, Bool.and_eq_true, beq_iff_eq, beq_iff_eq, eq_comm]
  refine and_congr_right fun _ => ?_
  cases rest with
  | nil => simp
  | cons d later => simp [List.cons_prefix_cons, eq_comm (a := d)]

/-- No braces stand side by side across a separator. -/
theorem isTemplate_append_separator (front back : Text) {c : Char}
    (separates : isSeparator c = true) :
    isTemplate (front ++ c :: back) = (front.isTemplate || back.isTemplate) := by
  have noBrace : c ≠ '\x7b' := by
    rintro rfl
    cases separates
  induction front with
  | nil =>
    rw [List.nil_append, isTemplate_cons]
    simp [noBrace, isTemplate]
  | cons d rest ih =>
    have sameHead : ((rest ++ c :: back).head? == some '\x7b') = (rest.head? == some '\x7b') := by
      cases rest with
      | nil => simpa using noBrace
      | cons e later => rfl
    rw [List.cons_append, isTemplate_cons, isTemplate_cons, sameHead, ih, Bool.or_assoc]

theorem isTemplate_append_gap (front back : Text) {gap : Text} (isGap : gap.isGap = true) :
    isTemplate (front ++ (gap ++ back)) = (front.isTemplate || back.isTemplate) := by
  obtain ⟨some_gap, space⟩ := isGap_iff.mp isGap
  induction gap generalizing front with
  | nil => exact (some_gap rfl).elim
  | cons c rest ih =>
    obtain ⟨separates, restSpace⟩ := List.forall_mem_cons.mp space
    rw [List.cons_append, isTemplate_append_separator front _ separates]
    cases rest with
    | nil => rfl
    | cons d later =>
      have restGap : Text.isGap (d :: later) = true :=
        isGap_iff.mpr ⟨List.cons_ne_nil _ _, restSpace⟩
      have behind := ih [] restGap (List.cons_ne_nil _ _) restSpace
      exact congrArg (front.isTemplate || ·) behind

end Text

theorem Segments.Separated.isTemplate_toText {segments : Segments}
    (separated : segments.Separated) :
    segments.toText.isTemplate = segments.classes.any Text.isTemplate := by
  obtain ⟨classes, gaps⟩ := segments
  simp only [Separated, toText] at separated ⊢
  induction separated with
  | nil => rfl
  | last plain => simp
  | cons plain isGap _ ih =>
    rw [join_cons_cons, Text.isTemplate_append_gap _ _ isGap, ih, List.any_cons]

/-! ## Arranging twice -/

namespace Sorter

theorem sortSegments_congr_arrangement (sorter : Sorter) {treatment : Treatment}
    (first : treatment.keepFirst = false) (last : treatment.keepLast = false)
    {segments other : Segments} (sameGaps : segments.gaps = other.gaps)
    (sameArrangement : sorter.arrangement treatment.dropCopies segments.classes =
      sorter.arrangement treatment.dropCopies other.classes) :
    sorter.sortSegments treatment segments = sorter.sortSegments treatment other := by
  simp only [sorter.sortSegments_plain first last, layOut, rearrange, Spacing.space_classes,
    Spacing.space_gaps, sameArrangement, sameGaps]

theorem sort_verbatim_of_isSpace (sorter : Sorter) {treatment : Treatment}
    (verbatim : sorter.spacing treatment = .verbatim) {text : Text} (space : text.IsSpace) :
    sorter.sort treatment text = text := by
  cases text with
  | nil => rfl
  | cons c rest =>
    have isGap : Text.isGap (c :: rest) = true := Text.isGap_iff.mpr ⟨List.cons_ne_nil _ _, space⟩
    simp [sort, isGap, verbatim, Spacing.isCollapsed]

end Sorter

namespace Ranking

/-- Classes that were put in order before are arranged, with or without their copies, as they would
have been at once. -/
theorem arrangement_ordered (ranking : Ranking) (options : Options) (dropping : Bool)
    (classes : List ClassName) :
    (ranking.sorter options).arrangement dropping
        ((ranking.sorter options).arrangement false classes).classes =
      (ranking.sorter options).arrangement dropping classes := by
  have ordered : ((ranking.sorter options).arrangement false classes).classes =
      (arrange ranking.ranker classes).map (·.name) := rfl
  have again := ranking.arrange_names_of_sublist (List.Sublist.refl (arrange ranking.ranker classes))
  rw [ordered, Sorter.arrangement, Sorter.arrangement, Arrangement.ofClasses, Arrangement.ofClasses]
  simp only [sorter, again]
  rfl

variable {ranking : Ranking} (unnamed : ranking.rank [] = none) (options : Options)
  {treatment : Treatment} (first : treatment.keepFirst = false)
  (last : treatment.keepLast = false)
include unnamed first last

/-- Sorting what was put in order, with its gaps and copies as they were, gives what sorting at once
gives. -/
theorem sort_sort_verbatim (text : Text) :
    (ranking.sorter options).sort treatment
        ((ranking.sorter options).sort { dropCopies := false, spacing := .verbatim } text) =
      (ranking.sorter options).sort treatment text := by
  have verbatim : (ranking.sorter options).spacing { dropCopies := false, spacing := .verbatim } =
      .verbatim := ite_self _
  by_cases wordless : text.words = []
  · rw [(ranking.sorter options).sort_verbatim_of_isSpace verbatim
      (Text.words_eq_nil_iff.mp wordless)]
  cases template : text.isTemplate with
  | true => rw [Sorter.sort_template _ { dropCopies := false, spacing := .verbatim } template]
  | false =>
    have regular := rearrange_regular options false unnamed (ofText_regular text)
    have ordered : (ranking.sorter options).sort { dropCopies := false, spacing := .verbatim } text =
        ((ranking.sorter options).rearrange false (ofText text)).toText := by
      rw [Sorter.sort_of_words _ _ template wordless, Sorter.sortCut_verbatim _ rfl rfl verbatim]
    have literal : Text.isTemplate
        ((ranking.sorter options).rearrange false (ofText text)).toText = false := by
      have whole := (ofText_regular text).separated.isTemplate_toText
      rw [toText_ofText, template] at whole
      rw [regular.separated.isTemplate_toText, List.any_eq_false]
      intro name member
      have inText := Sorter.mem_of_mem_rearrange (ranking.sorter_faithful options) false member
      exact List.any_eq_false.mp whole.symm name inText
    have named : Text.words
        ((ranking.sorter options).rearrange false (ofText text)).toText ≠ [] := by
      have words := @words_sortCut ranking options { dropCopies := false, spacing := .verbatim } rfl rfl
        unnamed text (by simp [verbatim, Spacing.isCollapsed])
      rw [← ordered, Sorter.sort_of_words _ _ template wordless, words]
      exact arrangement_ne_nil ranking options false wordless
    rw [ordered, Sorter.sort_of_words _ treatment literal named,
      Sorter.sort_of_words _ treatment template wordless, Sorter.sortCut, Sorter.sortCut,
      regular.ofText_toText]
    exact Sorter.sortSegments_congr_arrangement _ first last (dropGaps_nil 0 _)
      (ranking.arrangement_ordered options treatment.dropCopies _)

omit unnamed first last in
/-- The first pass leaves a copy and three kinds of gaps for the second. -/
theorem sort_sort_verbatim_letters :
    let sorter := CanonicalOrder.letters.ranking.sorter { multiline := true, multilineLeast := 4 }
    let text : Text := ['\t', 'b', ' ', ' ', 'c', '\n', 'b', ' ', 'a', ' ']
    sorter.sort {} (sorter.sort { dropCopies := false, spacing := .verbatim } text) =
      sorter.sort {} text :=
  sort_sort_verbatim CanonicalOrder.letters_unnamed { multiline := true, multilineLeast := 4 } rfl rfl _

end Ranking

end ClassTidy
