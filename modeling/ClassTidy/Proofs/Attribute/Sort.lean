import ClassTidy.Proofs.Attribute.Layout

/-!
# What sorting an attribute comes to

A kept class is taken off with its gap and put back where it was, so sorting comes down to sorting
what is left, without kept classes and without lines. Where no class is kept, the rearranged
segments are laid out in one of three ways, and the words are the arranged classes in all three.
-/

set_option autoImplicit false

namespace ClassTidy

open Segments

namespace Sorter

/-- Sort an attribute as one that has a class in it, even if it has none. -/
def sortCut (sorter : Sorter) (treatment : Treatment) (text : Text) : Text :=
  sorter.sortSegments treatment (.ofText text)

theorem sort_of_words (sorter : Sorter) (treatment : Treatment) {text : Text}
    (literal : text.isTemplate = false) (named : text.words ≠ []) :
    sorter.sort treatment text = sorter.sortCut treatment text := by
  have notSpace : ¬ text.IsSpace := fun space => named (Text.words_of_isSpace space)
  have ne_nil : text ≠ [] := by
    rintro rfl
    exact named Text.words_nil
  have notGap : text.isGap = false := by
    cases gap : text.isGap with
    | true => exact (notSpace (Text.isSpace_of_isGap gap)).elim
    | false => rfl
  simp [sort, sortCut, ne_nil, literal, notGap]

theorem sort_isSpace (sorter : Sorter) (treatment : Treatment) {text : Text}
    (space : text.IsSpace) : (sorter.sort treatment text).IsSpace := by
  cases text with
  | nil => exact space
  | cons c rest =>
    have gap : Text.isGap (c :: rest) = true := Text.isGap_iff.mpr ⟨List.cons_ne_nil _ _, space⟩
    simp only [sort, gap, if_true]
    split
    · exact space
    · split
      · exact Text.isSpace_of_isGap rfl
      · exact space

theorem sort_template (sorter : Sorter) (treatment : Treatment) {text : Text}
    (template : text.isTemplate = true) : sorter.sort treatment text = text := by
  rw [sort, template, Bool.or_true]
  rfl

/-- The same sorter, but without lines. -/
def unbroken (sorter : Sorter) : Sorter :=
  { sorter with options := { sorter.options with multiline := false } }

/-! ## Kept classes -/

section

variable (sorter : Sorter) {treatment : Treatment}

theorem layOut_of_unbroken {segments : Segments} (unbroken : sorter.breaksLong treatment = false) :
    sorter.layOut treatment segments =
      (sorter.spacing treatment).trim
        (sorter.rearrange treatment.dropCopies segments).toText := by
  simp [layOut, breaksLines, unbroken]

theorem breaksLong_of_keeping
    (keeps : treatment.keepFirst = true ∨ treatment.keepLast = true) :
    sorter.breaksLong treatment = false := by
  rcases keeps with first | last
  · simp [breaksLong, first]
  · simp [breaksLong, last]

/-- A first class that is kept is put back in front of the rest once that is sorted. -/
theorem sortSegments_keepFirst (keeps : treatment.keepFirst = true) (segments : Segments) :
    sorter.sortSegments treatment segments =
      (sorter.spacing treatment).trimFront
          ((sorter.spacing treatment).space segments).takeFirst.1 ++
        sorter.unbroken.sortSegments { treatment with keepFirst := false }
          segments.takeFirst.2 := by
  have sameSpacing : sorter.unbroken.spacing { treatment with keepFirst := false } =
      sorter.spacing treatment := rfl
  rw [sorter.sortSegments_eq, sorter.unbroken.sortSegments_eq, sameSpacing]
  simp only [cutFirst, keeps, if_true, Bool.false_eq_true, if_false, Spacing.space_takeFirst,
    Spacing.trimFront_nil, List.nil_append]
  rw [sorter.layOut_of_unbroken (sorter.breaksLong_of_keeping (.inl keeps)),
    sorter.unbroken.layOut_of_unbroken rfl]
  rfl

/-- A last class that is kept is put back behind the rest once that is sorted. -/
theorem sortSegments_keepLast (keepsNot : treatment.keepFirst = false)
    (keeps : treatment.keepLast = true) (segments : Segments) :
    sorter.sortSegments treatment segments =
      sorter.unbroken.sortSegments { treatment with keepLast := false } segments.takeLast.2 ++
        (sorter.spacing treatment).trimBack
          ((sorter.spacing treatment).space segments).takeLast.1 := by
  have sameSpacing : sorter.unbroken.spacing { treatment with keepLast := false } =
      sorter.spacing treatment := rfl
  rw [sorter.sortSegments_eq, sorter.unbroken.sortSegments_eq, sameSpacing]
  simp only [cutFirst, cutLast, keeps, keepsNot, if_true, Bool.false_eq_true, if_false,
    Spacing.space_takeLast, Spacing.trimFront_nil, Spacing.trimBack_nil, List.nil_append,
    List.append_nil]
  rw [sorter.layOut_of_unbroken (sorter.breaksLong_of_keeping (.inr keeps)),
    sorter.unbroken.layOut_of_unbroken rfl]
  rfl

/-! ## No kept classes -/

theorem sortSegments_plain (first : treatment.keepFirst = false) (last : treatment.keepLast = false)
    (segments : Segments) :
    sorter.sortSegments treatment segments =
      sorter.layOut treatment ((sorter.spacing treatment).space segments) := by
  rw [sorter.sortSegments_eq]
  simp only [cutFirst, cutLast, first, last, Bool.false_eq_true, if_false,
    Spacing.trimFront_nil, Spacing.trimBack_nil, List.nil_append, List.append_nil]

end

/-! ## Any faithful ranker -/

section

variable {sorter : Sorter} (faithful : sorter.ranker.IsFaithful) (treatment : Treatment)
include faithful

theorem unbroken_faithful : sorter.unbroken.ranker.IsFaithful := faithful

theorem arrangement_nil (dropping : Bool) : sorter.arrangement dropping [] = ⟨[], []⟩ := by
  have answer : sorter.ranker [] = [] :=
    List.length_eq_zero_iff.mp (ranker_length faithful [])
  have ordered : arrange sorter.ranker [] = [] :=
    List.perm_nil.mp (answer ▸ arrange_perm sorter.ranker [])
  simp only [arrangement, Arrangement.ofClasses, ordered]
  split <;> rfl

theorem layOut_nil (gaps : List Text) : sorter.layOut treatment ⟨[], gaps⟩ = [] := by
  simp only [layOut, rearrange, arrangement_nil faithful]
  split
  · rfl
  · exact Spacing.trim_nil _

theorem sortSegments_nil : sorter.sortSegments treatment ⟨[], []⟩ = [] := by
  have spaced : (sorter.spacing treatment).space ⟨[], []⟩ = ⟨[], []⟩ := by
    cases sorter.spacing treatment <;> rfl
  have first : cutFirst treatment.keepFirst ⟨[], []⟩ = ([], ⟨[], []⟩) := by
    cases treatment.keepFirst <;> rfl
  have last : cutLast treatment.keepLast ⟨[], []⟩ = ([], ⟨[], []⟩) := by
    cases treatment.keepLast <;> rfl
  rw [sorter.sortSegments_eq, spaced, first, last, layOut_nil faithful, Spacing.trimFront_nil,
    Spacing.trimBack_nil]
  rfl

/-! ### One kept class at a time -/

section

variable {treatment : Treatment} {name : ClassName} (plain : name.IsPlain)
  (separate : (sorter.spacing treatment).isCollapsed = true → name.BlanksSeparate)
include plain separate

theorem sortSegments_single_first (keeps : treatment.keepFirst = true) :
    sorter.sortSegments treatment ⟨[name], []⟩ = name := by
  have front : ((sorter.spacing treatment).space ⟨[name], []⟩).takeFirst.1 = name := by
    cases sorter.spacing treatment <;> exact List.append_nil name
  rw [sorter.sortSegments_keepFirst keeps, front, Spacing.trimFront_plain _ plain separate]
  have rest : takeFirst ⟨[name], []⟩ = (name, ⟨[], []⟩) :=
    Prod.ext (List.append_nil name) rfl
  rw [rest, sortSegments_nil (unbroken_faithful faithful), List.append_nil]

omit faithful in
theorem sortSegments_behind (keeps : treatment.keepFirst = true) (gap : Text)
    (rest : Segments) :
    sorter.sortSegments treatment (rest.behind name gap) =
      name ++ ((sorter.spacing treatment).gap gap ++
        sorter.unbroken.sortSegments { treatment with keepFirst := false } rest) := by
  have front : ((sorter.spacing treatment).space (rest.behind name gap)).takeFirst.1 =
      name ++ (sorter.spacing treatment).gap gap := by
    cases sorter.spacing treatment <;> rfl
  rw [sorter.sortSegments_keepFirst keeps, front,
    Spacing.trimFront_append _ gap plain separate, List.append_assoc]
  rfl

variable (keepsNot : treatment.keepFirst = false) (keeps : treatment.keepLast = true)
include keepsNot keeps

theorem sortSegments_single_last : sorter.sortSegments treatment ⟨[name], []⟩ = name := by
  have back : ((sorter.spacing treatment).space ⟨[name], []⟩).takeLast.1 = name := by
    cases sorter.spacing treatment <;> rfl
  have rest : takeLast ⟨[name], []⟩ = (name, ⟨[], []⟩) := rfl
  rw [sorter.sortSegments_keepLast keepsNot keeps, back,
    Spacing.trimBack_plain _ plain separate, rest, sortSegments_nil (unbroken_faithful faithful),
    List.nil_append]

omit faithful in
theorem sortSegments_before (gap : Text) (rest : Segments) :
    sorter.sortSegments treatment (rest.before name gap) =
      sorter.unbroken.sortSegments { treatment with keepLast := false } rest ++
        ((sorter.spacing treatment).gap gap ++ name) := by
  have back : ((sorter.spacing treatment).space (rest.before name gap)).takeLast.1 =
      (sorter.spacing treatment).gap gap ++ name := by
    cases sorter.spacing treatment <;>
      simp [takeLast, Spacing.space, Spacing.gap, before, collapse, Spacing.isCollapsed]
  have middle : (rest.before name gap).takeLast.2 = rest := by
    simp [takeLast, before]
  rw [sorter.sortSegments_keepLast keepsNot keeps, back,
    Spacing.trimBack_append _ gap plain separate, middle]

end

/-! ### From texts -/

/-- An empty class that has lost the gap behind it leaves nothing. -/
theorem sortSegments_empty_class (first : treatment.keepFirst = false)
    (last : treatment.keepLast = false) :
    sorter.unbroken.sortSegments treatment ⟨[[]], []⟩ = [] := by
  have spaced : (sorter.unbroken.spacing treatment).space ⟨[[]], []⟩ = ⟨[[]], []⟩ := by
    cases sorter.unbroken.spacing treatment <;> rfl
  have allEmpty : ∀ name ∈ (sorter.unbroken.rearrange treatment.dropCopies ⟨[[]], []⟩).classes,
      name = [] := by
    intro name member
    have kept := mem_of_mem_rearrange (unbroken_faithful faithful) treatment.dropCopies member
    exact List.mem_singleton.mp kept
  have empty : (sorter.unbroken.rearrange treatment.dropCopies ⟨[[]], []⟩).toText = [] :=
    join_of_empty allEmpty
  rw [sorter.unbroken.sortSegments_plain first last, spaced,
    sorter.unbroken.layOut_of_unbroken rfl, empty, Spacing.trim_nil]

theorem sortCut_nil (treatment : Treatment) : sorter.sortCut treatment [] = [] :=
  sortSegments_nil faithful treatment

section

variable {treatment : Treatment} {name gap rest : Text} (isGap : gap.isGap = true)
  (separate : (sorter.spacing treatment).isCollapsed = true → name.BlanksSeparate)
include separate

/-- Where all the text is one class and that is kept, it stays as it is. -/
theorem sortCut_single (plain : name.IsPlain)
    (keeps : treatment.keepFirst = true ∨ treatment.keepLast = true) :
    sorter.sortCut treatment name = name := by
  cases name with
  | nil => exact sortCut_nil faithful treatment
  | cons c later =>
    rw [sortCut, ofText_word ⟨List.cons_ne_nil _ _, plain⟩]
    cases first : treatment.keepFirst with
    | true => exact sortSegments_single_first faithful plain separate first
    | false =>
      rcases keeps with keepsFirst | keepsLast
      · rw [first] at keepsFirst
        cases keepsFirst
      · exact sortSegments_single_last faithful plain separate first keepsLast

include isGap

omit faithful in
/-- A first class that is kept is cut off, and the rest is sorted as if it stood alone. -/
theorem sortCut_behind (plain : name.IsPlain) (starts : rest.startsApart = false)
    (keeps : treatment.keepFirst = true) :
    sorter.sortCut treatment (name ++ (gap ++ rest)) =
      name ++ ((sorter.spacing treatment).gap gap ++
        sorter.unbroken.sortCut { treatment with keepFirst := false } rest) := by
  rw [sortCut, ofText_behind plain isGap starts, sortSegments_behind plain separate keeps]
  rfl

omit faithful in
theorem sortCut_before_of_ne_nil (word : name.IsWord) (some_rest : rest ≠ [])
    (ends : rest.endsApart = false) (keepsNot : treatment.keepFirst = false)
    (keeps : treatment.keepLast = true) :
    sorter.sortCut treatment (rest ++ (gap ++ name)) =
      sorter.unbroken.sortCut { treatment with keepLast := false } rest ++
        ((sorter.spacing treatment).gap gap ++ name) := by
  rw [sortCut, ofText_before word isGap some_rest ends,
    sortSegments_before word.plain separate keepsNot keeps]
  rfl

theorem sortCut_before (word : name.IsWord) (ends : rest.endsApart = false)
    (keepsNot : treatment.keepFirst = false) (keeps : treatment.keepLast = true) :
    sorter.sortCut treatment (rest ++ (gap ++ name)) =
      sorter.unbroken.sortCut { treatment with keepLast := false } rest ++
        ((sorter.spacing treatment).gap gap ++ name) := by
  by_cases empty : rest = []
  · subst empty
    have cut : ofText (gap ++ name) = before name gap ⟨[[]], []⟩ := by
      have behindGap := ofText_behind Text.isPlain_nil isGap word.plain.startsApart
      rwa [ofText_word word] at behindGap
    have lost : sorter.unbroken.sortSegments { treatment with keepLast := false } ⟨[[]], []⟩ = [] :=
      sortSegments_empty_class faithful _ keepsNot rfl
    have nothing : sorter.unbroken.sortCut { treatment with keepLast := false } [] = [] :=
      sortCut_nil (unbroken_faithful faithful) _
    rw [List.nil_append, sortCut, cut, sortSegments_before word.plain separate keepsNot keeps,
      lost, nothing]
  · exact sortCut_before_of_ne_nil isGap separate word empty ends keepsNot keeps

end

/-- The words that come out are the arranged classes, however they are laid out. -/
theorem words_layOut {segments : Segments} (separated : segments.Separated)
    (separate : (sorter.spacing treatment).isCollapsed = true →
      ∀ name ∈ segments.classes, name.BlanksSeparate) :
    Text.words (sorter.layOut treatment segments) =
      (sorter.arrangement treatment.dropCopies segments.classes).classes.filter
        fun name => !name.isEmpty := by
  have rearranged : (sorter.rearrange treatment.dropCopies segments).Separated :=
    rearrange_woven faithful treatment.dropCopies separated
  rw [layOut]
  split
  · have lines :
        Separated ⟨_, Group.lineGaps (sorter.rearrange treatment.dropCopies segments).classes⟩ :=
      Group.woven_lineGaps rearranged.admits_all
    rw [Group.lines_eq_join]
    exact lines.words_toText
  · cases mode : sorter.spacing treatment with
    | verbatim => exact rearranged.words_toText
    | collapsed dropStart dropEnd =>
      rw [mode] at separate
      have textSeparates : (sorter.rearrange treatment.dropCopies segments).toText.BlanksSeparate :=
        blanksSeparate_join
          (fun name member => separate rfl name (mem_of_mem_rearrange faithful _ member))
          rearranged.gaps_isGap
      exact (Text.words_trimEnds dropStart dropEnd textSeparates).trans rearranged.words_toText

end

end Sorter

namespace Ranking

variable {ranking : Ranking} (options : Options) {treatment : Treatment}
  (first : treatment.keepFirst = false) (last : treatment.keepLast = false)
include first last

/-- The words of the result are the arranged words. -/
theorem words_sortCut (unnamed : ranking.rank [] = none) {text : Text}
    (separate : ((ranking.sorter options).spacing treatment).isCollapsed = true →
      text.BlanksSeparate) :
    ((ranking.sorter options).sortCut treatment text).words =
      ((ranking.sorter options).arrangement treatment.dropCopies text.words).classes := by
  have faithful := ranking.sorter_faithful options
  have regular := ofText_regular text
  have sameClasses := ((ranking.sorter options).spacing treatment).space_classes (ofText text)
  have spaced : (((ranking.sorter options).spacing treatment).space (ofText text)).Separated :=
    Spacing.space_woven _ regular.separated
  have classesSeparate : ((ranking.sorter options).spacing treatment).isCollapsed = true →
      ∀ name ∈ (ofText text).classes, name.BlanksSeparate := by
    intro collapsed
    have whole := toText_ofText text
    exact blanksSeparate_of_join (whole.symm ▸ separate collapsed)
  rw [Sorter.sortCut, Sorter.sortSegments_plain _ first last,
    Sorter.words_layOut faithful treatment spaced (by rwa [sameClasses]), sameClasses,
    arrangement_ofText options _ unnamed]
  have allNamed : (((ranking.sorter options).arrangement treatment.dropCopies
      text.words).classes.filter fun name => !name.isEmpty) =
        ((ranking.sorter options).arrangement treatment.dropCopies text.words).classes := by
    apply List.filter_eq_self.mpr
    intro name member
    simpa using (arrangement_isWord ranking options _ text name member).ne_nil
  split
  · exact allNamed
  · exact allNamed

theorem sortCut_lines {text : Text}
    (broken : (ranking.sorter options).breaksLines treatment
      ((ranking.sorter options).arrangement treatment.dropCopies (ofText text).classes).classes =
        true) :
    (ranking.sorter options).sortCut treatment text =
      Group.lines ((ranking.sorter options).arrangement treatment.dropCopies
        (ofText text).classes).classes := by
  have sameClasses := ((ranking.sorter options).spacing treatment).space_classes (ofText text)
  rw [Sorter.sortCut, Sorter.sortSegments_plain _ first last, Sorter.layOut, sameClasses,
    if_pos broken]

end Ranking

end ClassTidy
