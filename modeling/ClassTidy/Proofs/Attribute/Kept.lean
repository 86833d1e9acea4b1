import ClassTidy.Proofs.Attribute.Sort
import ClassTidy.Proofs.Class.Order

/-!
# Kept classes

A kept class is cut off with the gap that parts it from the rest, and the rest is sorted by itself,
on one line. The piece that was cut off is put back with its gap as the spacing has it.
-/

set_option autoImplicit false

namespace ClassTidy

open Segments

namespace Text

/-! ## Templates -/

theorem isTemplate_iff {text : Text} : text.isTemplate = true ↔ ['\x7b', '\x7b'] <:+: text := by
  fun_induction isTemplate text with
  | case1 rest => exact iff_of_true rfl ⟨[], rest, rfl⟩
  | case2 c rest notBraces ih =>
    rw [ih, List.infix_cons_iff]
    refine ⟨.inr, ?_⟩
    rintro (⟨behind, whole⟩ | inside)
    · cases whole
      exact (notBraces behind rfl rfl).elim
    · exact inside
  | case3 => simp

theorem isTemplate_of_infix {part text : Text} (isPart : part <:+: text)
    (literal : text.isTemplate = false) : part.isTemplate = false := by
  rw [← Bool.not_eq_true, isTemplate_iff] at literal ⊢
  exact fun template => literal (template.trans isPart)

/-! ## The pieces at the ends -/

/-- A text up to the end of its first gap. -/
def firstPiece (text : Text) : Text :=
  text.takeWhile (fun c => !isSeparator c) ++
    (text.dropWhile fun c => !isSeparator c).takeWhile isSeparator

/-- A text from the start of its last gap on. -/
def lastPiece (text : Text) : Text := (firstPiece text.reverse).reverse

theorem firstPiece_of_isPlain {text : Text} (plain : text.IsPlain) : text.firstPiece = text := by
  have letters : ∀ c ∈ text, (!isSeparator c) = true := fun c member => by simp [plain c member]
  rw [firstPiece, List.takeWhile_eq_self_iff.mpr letters, List.dropWhile_eq_nil_iff.mpr letters]
  exact List.append_nil text

theorem firstPiece_append {name gap rest : Text} (plain : name.IsPlain) (isGap : gap.isGap = true)
    (starts : rest.startsApart = false) : firstPiece (name ++ (gap ++ rest)) = name ++ gap := by
  have letters : ∀ c ∈ name, (!isSeparator c) = true := fun c member => by simp [plain c member]
  obtain ⟨gap_ne_nil, space⟩ := isGap_iff.mp isGap
  have gapEnds : (gap ++ rest).takeWhile isSeparator = gap := by
    rw [List.takeWhile_append_of_pos space]
    cases rest with
    | nil => exact List.append_nil gap
    | cons c later =>
      have letter : isSeparator c = false := starts
      rw [List.takeWhile_cons_of_neg (by simp [letter]), List.append_nil]
  rw [firstPiece, List.takeWhile_append_of_pos letters, List.dropWhile_append_of_pos letters]
  cases gap with
  | nil => exact (gap_ne_nil rfl).elim
  | cons c later =>
    have separates : isSeparator c = true := space c List.mem_cons_self
    rw [List.cons_append, List.takeWhile_cons_of_neg (by simp [separates]),
      List.dropWhile_cons_of_neg (by simp [separates]), ← List.cons_append, gapEnds, List.append_nil]

theorem lastPiece_of_isPlain {text : Text} (plain : text.IsPlain) : text.lastPiece = text := by
  have reversed : IsPlain text.reverse := by simpa [IsPlain] using plain
  rw [lastPiece, firstPiece_of_isPlain reversed, List.reverse_reverse]

theorem lastPiece_append {rest gap name : Text} (plain : name.IsPlain) (isGap : gap.isGap = true)
    (ends : rest.endsApart = false) : lastPiece (rest ++ (gap ++ name)) = gap ++ name := by
  have reversedPlain : IsPlain name.reverse := by simpa [IsPlain] using plain
  have reversedGap : Text.isGap gap.reverse = true := by
    rw [isGap_iff] at isGap ⊢
    simpa [IsSpace] using isGap
  have starts : startsApart rest.reverse = false := (startsApart_reverse rest).trans ends
  have piece := firstPiece_append reversedPlain reversedGap starts
  rw [lastPiece, List.reverse_append, List.reverse_append, List.append_assoc, piece]
  simp

/-- What stands behind the first gap has the same last piece, or else it is a single class. -/
theorem lastPiece_behind {name gap rest : Text} (namePlain : name.IsPlain) (isGap : gap.isGap = true)
    (starts : rest.startsApart = false) (ends : rest.endsApart = false) :
    lastPiece (name ++ (gap ++ rest)) = gap ++ rest ∨
      lastPiece (name ++ (gap ++ rest)) = rest.lastPiece := by
  rcases exists_last rest ends with plain | ⟨front, lastGap, last, frontEnds, lastIsGap, word, rfl⟩
  · exact .inl (lastPiece_append plain isGap namePlain.endsApart)
  · have some_front : front ≠ [] := by
      rintro rfl
      rw [List.nil_append, startsApart_append _ (isGap_iff.mp lastIsGap).1,
        startsApart_of_isGap lastIsGap] at starts
      cases starts
    have wholeEnds : endsApart (name ++ (gap ++ front)) = false := by
      rw [← List.append_assoc, endsApart_append _ some_front, frontEnds]
    have piece := lastPiece_append word.plain lastIsGap wholeEnds
    simp only [List.append_assoc] at piece
    rw [lastPiece_append word.plain lastIsGap frontEnds]
    exact .inr piece

end Text

/-! ## Gaps as the spacing has them -/

namespace Spacing

/-- A text with its gaps as the spacing has them. -/
def respace (spacing : Spacing) (text : Text) : Text := (spacing.space (ofText text)).toText

@[simp] theorem respace_nil (spacing : Spacing) : spacing.respace [] = [] := by
  cases spacing <;> rfl

theorem respace_append_gap (spacing : Spacing) {name gap : Text} (plain : name.IsPlain)
    (isGap : gap.isGap = true) : spacing.respace (name ++ gap) = name ++ spacing.gap gap := by
  have cut := ofText_behind plain isGap Text.startsApart_nil
  rw [List.append_nil] at cut
  rw [respace, cut]
  cases spacing with
  | verbatim => exact congrArg (name ++ ·) (List.append_nil gap)
  | collapsed dropStart dropEnd => rfl

theorem respace_gap_append (spacing : Spacing) {gap name : Text} (isGap : gap.isGap = true)
    (word : name.IsWord) : spacing.respace (gap ++ name) = spacing.gap gap ++ name := by
  have cut := ofText_behind Text.isPlain_nil isGap word.plain.startsApart
  rw [ofText_word word, List.nil_append] at cut
  rw [respace, cut]
  cases spacing with
  | verbatim => exact congrArg (gap ++ ·) (List.append_nil name)
  | collapsed dropStart dropEnd => exact congrArg (' ' :: ·) (List.append_nil name)

end Spacing

namespace Sorter

variable (sorter : Sorter) (treatment : Treatment)

/-- What is sorted between kept classes is sorted as it would be by itself. -/
theorem sort_unkept {middle : Text} (literal : middle.isTemplate = false)
    (named : middle.words ≠ []) (first : treatment.keepFirst = false)
    (last : treatment.keepLast = false) :
    sorter.sort { treatment with keepFirst := false, keepLast := false } middle =
      sorter.sortCut treatment middle := by
  obtain ⟨keepFirst, keepLast, dropCopies, spacing⟩ := treatment
  subst first last
  exact sorter.sort_of_words _ literal named

/-- The last class is cut off in front of its gap, where something stands in front of that. -/
theorem sortCut_of_lastPiece {text middle : Text} (literal : text.isTemplate = false)
    (ends : text.endsApart = false)
    (separate : (sorter.spacing treatment).isCollapsed = true → text.BlanksSeparate)
    (keepsNot : treatment.keepFirst = false) (keeps : treatment.keepLast = true)
    (whole : text = middle ++ text.lastPiece) (some_middle : middle ≠ []) :
    sorter.sortCut treatment text =
      sorter.unbroken.sort { treatment with keepFirst := false, keepLast := false } middle ++
        (sorter.spacing treatment).respace text.lastPiece := by
  rcases Text.exists_last text ends with plain | ⟨rest, gap, name, restEnds, isGap, word, rfl⟩
  · rw [Text.lastPiece_of_isPlain plain] at whole
    exact (some_middle (List.self_eq_append_left.mp whole)).elim
  · rw [Text.lastPiece_append word.plain isGap restEnds] at whole ⊢
    obtain rfl : rest = middle := List.append_cancel_right whole
    have nameSeparate := fun collapsed =>
      (Text.blanksSeparate_append.mp
        (Text.blanksSeparate_append.mp (separate collapsed)).2).2
    have middleLiteral : rest.isTemplate = false :=
      Text.isTemplate_of_infix (List.prefix_append _ _).isInfix literal
    have named := Text.words_ne_nil_of_endsApart some_middle restEnds
    rw [sortCut_before_of_ne_nil isGap nameSeparate word some_middle restEnds keepsNot keeps,
      Spacing.respace_gap_append _ isGap word,
      ← sorter.unbroken.sort_unkept { treatment with keepLast := false } middleLiteral named keepsNot
        rfl]

/-- What stands behind a first class that was cut off. -/
theorem sortCut_behind_first {name gap middle back : Text} (namePlain : name.IsPlain)
    (isGap : gap.isGap = true) (starts : Text.startsApart (middle ++ back) = false)
    (literal : Text.isTemplate (middle ++ back) = false)
    (closed : treatment.keepLast = true → Text.endsApart (middle ++ back) = false)
    (separate : (sorter.spacing treatment).isCollapsed = true →
      Text.BlanksSeparate (middle ++ back))
    (keepsNot : treatment.keepFirst = false)
    (isBack : back =
      if treatment.keepLast then Text.lastPiece (name ++ (gap ++ (middle ++ back))) else [])
    (some_middle : middle ≠ []) :
    sorter.unbroken.sortCut treatment (middle ++ back) =
      sorter.unbroken.sort { treatment with keepFirst := false, keepLast := false } middle ++
        (sorter.spacing treatment).respace back := by
  cases last : treatment.keepLast with
  | false =>
    rw [last] at isBack
    obtain rfl : back = [] := isBack
    rw [List.append_nil] at starts literal ⊢
    have named := Text.words_ne_nil_of_startsApart some_middle starts
    rw [Spacing.respace_nil, List.append_nil,
      sorter.unbroken.sort_unkept treatment literal named keepsNot last]
  | true =>
    simp only [last, if_true] at isBack
    have ends := closed last
    rcases Text.lastPiece_behind namePlain isGap starts ends with single | same
    · rw [single, ← List.append_assoc] at isBack
      have nothing := List.append_eq_nil_iff.mp (List.self_eq_append_left.mp isBack)
      exact (some_middle nothing.2).elim
    · rw [same] at isBack
      have cut := sorter.unbroken.sortCut_of_lastPiece treatment literal ends separate keepsNot last
        (congrArg (middle ++ ·) isBack) some_middle
      rwa [← isBack] at cut

/-- Keeping the first or the last class comes to cutting it off with its gap, sorting the rest
without lines, and putting the pieces back with their gaps as the spacing has them. -/
theorem sort_eq_respaced_pieces {text front middle back : Text}
    (literal : text.isTemplate = false)
    (closed : treatment.keepLast = true → text.endsApart = false)
    (separate : (sorter.spacing treatment).isCollapsed = true → text.BlanksSeparate)
    (keeps : treatment.keepFirst = true ∨ treatment.keepLast = true)
    (isFront : front = if treatment.keepFirst then text.firstPiece else [])
    (isBack : back = if treatment.keepLast then text.lastPiece else [])
    (whole : text = front ++ (middle ++ back)) (some_middle : middle ≠ []) :
    sorter.sort treatment text =
      (sorter.spacing treatment).respace front ++
        (sorter.unbroken.sort { treatment with keepFirst := false, keepLast := false } middle ++
          (sorter.spacing treatment).respace back) := by
  cases first : treatment.keepFirst with
  | false =>
    have last : treatment.keepLast = true := by simpa [first] using keeps
    simp only [first, last, if_true, Bool.false_eq_true, if_false] at isFront isBack
    subst isFront isBack
    have some_text : text ≠ [] := by
      rw [whole]
      simp [some_middle]
    have named := Text.words_ne_nil_of_endsApart some_text (closed last)
    rw [Spacing.respace_nil, sorter.sort_of_words treatment literal named]
    exact sorter.sortCut_of_lastPiece treatment literal (closed last) separate first last whole
      some_middle
  | true =>
    simp only [first, if_true] at isFront
    subst isFront
    rcases Text.exists_first text with plain | ⟨name, gap, rest, plain, isGap, starts, rfl⟩
    · rw [Text.firstPiece_of_isPlain plain] at whole
      have nothing := List.append_eq_nil_iff.mp (List.self_eq_append_right.mp whole)
      exact (some_middle nothing.1).elim
    · rw [Text.firstPiece_append plain isGap starts, List.append_assoc] at whole
      obtain rfl : rest = middle ++ back := by simpa using whole
      have some_rest : middle ++ back ≠ [] := by simp [some_middle]
      have restNamed := Text.words_ne_nil_of_startsApart some_rest starts
      have named : Text.words (name ++ (gap ++ (middle ++ back))) ≠ [] := by
        rw [Text.words_append_gap _ _ isGap]
        exact List.append_ne_nil_of_right_ne_nil _ restNamed
      have restLiteral : Text.isTemplate (middle ++ back) = false :=
        Text.isTemplate_of_infix ⟨name ++ gap, [], by simp⟩ literal
      have restClosed : treatment.keepLast = true → Text.endsApart (middle ++ back) = false := by
        intro last
        have ends := closed last
        rwa [← List.append_assoc, Text.endsApart_append _ some_rest] at ends
      have nameSeparate := fun collapsed =>
        (Text.blanksSeparate_append.mp (separate collapsed)).1
      have restSeparate := fun collapsed =>
        (Text.blanksSeparate_append.mp
          (Text.blanksSeparate_append.mp (separate collapsed)).2).2
      have restSorted := sorter.sortCut_behind_first { treatment with keepFirst := false } plain
        isGap starts restLiteral restClosed restSeparate rfl isBack some_middle
      rw [sorter.sort_of_words treatment literal named,
        sortCut_behind isGap nameSeparate plain starts first, restSorted,
        Text.firstPiece_append plain isGap starts, Spacing.respace_append_gap _ plain isGap,
        List.append_assoc]
      rfl

theorem sort_eq_respaced_pieces_letters :
    (CanonicalOrder.letters.ranking.sorter {}).sort { keepFirst := true, keepLast := true }
      ['c', '\t', '\n', 'b', ' ', ' ', 'a', '\n', 'b', ' ', '\x0c', 'd'] =
        ['c', ' ', 'a', ' ', 'b', ' ', 'd'] := by
  have pieces := @sort_eq_respaced_pieces (CanonicalOrder.letters.ranking.sorter {})
    { keepFirst := true, keepLast := true }
    ['c', '\t', '\n', 'b', ' ', ' ', 'a', '\n', 'b', ' ', '\x0c', 'd'] ['c', '\t', '\n']
    ['b', ' ', ' ', 'a', '\n', 'b'] [' ', '\x0c', 'd'] (by decide) (fun _ => by decide)
    (fun _ => by decide) (.inl rfl) (by decide) (by decide) rfl (by decide)
  exact pieces.trans (by decide +kernel)

end Sorter

end ClassTidy
