import ClassTidy.Proofs.Attribute.Spacing

/-!
# Sorting twice

What was sorted stays as it is when it is sorted again in the same way. Without kept classes the
result is cut into the arranged classes again, takes the same of the three ways, and is laid out
the same. A kept class only has to stay apart from the rest for the rest to settle by itself.
-/

set_option autoImplicit false

namespace ClassTidy

open Segments

/-- What sorting a text once has settled. -/
structure Sorter.Settles (sorter : Sorter) (treatment : Treatment) (text : Text) : Prop where
  again : sorter.sortCut treatment (sorter.sortCut treatment text) = sorter.sortCut treatment text
  startsApart : text.startsApart = false → (sorter.sortCut treatment text).startsApart = false
  endsApart : text.endsApart = false → (sorter.sortCut treatment text).endsApart = false
  words : text.words ≠ [] → (sorter.sortCut treatment text).words ≠ []

namespace Sorter

variable {sorter : Sorter} {treatment : Treatment}

theorem settles_of_fixed {text : Text} (fixed : sorter.sortCut treatment text = text) :
    sorter.Settles treatment text := by
  constructor
  · rw [fixed, fixed]
  · exact fun starts => fixed.symm ▸ starts
  · exact fun ends => fixed.symm ▸ ends
  · exact fun named => fixed.symm ▸ named

theorem Settles.ne_nil {text : Text} (settles : sorter.Settles treatment text)
    (named : text.words ≠ []) : sorter.sortCut treatment text ≠ [] := by
  intro nothing
  apply settles.words named
  rw [nothing, Text.words_nil]

/-! ## Kept classes -/

section

variable (faithful : sorter.ranker.IsFaithful) {name gap rest : Text} (isGap : gap.isGap = true)
  (separate : (sorter.spacing treatment).isCollapsed = true → name.BlanksSeparate)
include isGap separate

theorem settles_behind (plain : name.IsPlain) (starts : rest.startsApart = false)
    (keeps : treatment.keepFirst = true)
    (restSettles : sorter.unbroken.Settles { treatment with keepFirst := false } rest) :
    sorter.Settles treatment (name ++ (gap ++ rest)) := by
  have once := sortCut_behind isGap separate plain starts keeps
  have isKeptGap := (sorter.spacing treatment).isGap_gap isGap
  have twice := sortCut_behind isKeptGap separate plain (restSettles.startsApart starts) keeps
  rw [restSettles.again, Spacing.gap_gap] at twice
  constructor
  · rw [once, twice]
  · intro textStarts
    rw [once]
    cases name with
    | nil =>
      rw [List.nil_append, Text.startsApart_append _ (Text.isGap_iff.mp isGap).1,
        Text.startsApart_of_isGap isGap] at textStarts
      cases textStarts
    | cons c later => exact textStarts
  · intro textEnds
    rw [once]
    by_cases empty : rest = []
    · rw [empty, List.append_nil, Text.endsApart_append _ (Text.isGap_iff.mp isGap).1,
        Text.endsApart_of_isGap isGap] at textEnds
      cases textEnds
    · have named := Text.words_ne_nil_of_startsApart empty starts
      have ne_nil := restSettles.ne_nil named
      rw [← List.append_assoc, Text.endsApart_append _ empty] at textEnds
      rw [← List.append_assoc, Text.endsApart_append _ ne_nil]
      exact restSettles.endsApart textEnds
  · intro named
    rw [once, Text.words_append_gap _ _ isKeptGap]
    rw [Text.words_append_gap _ _ isGap] at named
    intro wordless
    obtain ⟨nameless, restWordless⟩ := List.append_eq_nil_iff.mp wordless
    rw [nameless, List.nil_append] at named
    exact restSettles.words named restWordless

include faithful in
theorem settles_before (word : name.IsWord) (ends : rest.endsApart = false)
    (keepsNot : treatment.keepFirst = false) (keeps : treatment.keepLast = true)
    (restSettles : sorter.unbroken.Settles { treatment with keepLast := false } rest) :
    sorter.Settles treatment (rest ++ (gap ++ name)) := by
  have once := sortCut_before faithful isGap separate word ends keepsNot keeps
  have isKeptGap := (sorter.spacing treatment).isGap_gap isGap
  have twice := sortCut_before faithful isKeptGap separate word (restSettles.endsApart ends)
    keepsNot keeps
  rw [restSettles.again, Spacing.gap_gap] at twice
  constructor
  · rw [once, twice]
  · intro textStarts
    rw [once]
    by_cases empty : rest = []
    · rw [empty, List.nil_append, Text.startsApart_append _ (Text.isGap_iff.mp isGap).1,
        Text.startsApart_of_isGap isGap] at textStarts
      cases textStarts
    · rw [Text.startsApart_append _ empty] at textStarts
      have named := Text.words_ne_nil_of_startsApart empty textStarts
      rw [Text.startsApart_append _ (restSettles.ne_nil named)]
      exact restSettles.startsApart textStarts
  · intro _
    rw [once, ← List.append_assoc, Text.endsApart_append _ word.ne_nil, word.plain.endsApart]
  · intro _
    rw [once, Text.words_append_gap _ _ isKeptGap, word.words]
    exact List.append_ne_nil_of_right_ne_nil _ (List.cons_ne_nil _ _)

end

end Sorter

/-! ## No kept classes -/

namespace Ranking

variable {ranking : Ranking} (unnamed : ranking.rank [] = none) (options : Options)
  {treatment : Treatment} (first : treatment.keepFirst = false)
  (last : treatment.keepLast = false)
include unnamed first last

/-- A result that starts like the text it comes from arranges like it. -/
theorem arrangement_sortCut {text : Text}
    (separate : ((ranking.sorter options).spacing treatment).isCollapsed = true →
      text.BlanksSeparate)
    (sameStart : ((ranking.sorter options).sortCut treatment text).startsApart =
      text.startsApart) :
    ((ranking.sorter options).arrangement treatment.dropCopies
        (ofText ((ranking.sorter options).sortCut treatment text)).classes).classes =
      ((ranking.sorter options).arrangement treatment.dropCopies (ofText text).classes).classes := by
  rw [arrangement_ofText options _ unnamed, words_sortCut options first last unnamed separate,
    arrangement_arrangement, sameStart, arrangement_ofText options _ unnamed]

/-! ### In lines -/

theorem settles_lines {text : Text} (named : text.words ≠ [])
    (separate : ((ranking.sorter options).spacing treatment).isCollapsed = true →
      text.BlanksSeparate)
    (broken : (ranking.sorter options).breaksLines treatment
      ((ranking.sorter options).arrangement treatment.dropCopies (ofText text).classes).classes =
        true) :
    (ranking.sorter options).Settles treatment text := by
  have words := words_sortCut options first last unnamed separate
  have once := sortCut_lines options first last broken
  have some_class : ((ranking.sorter options).arrangement treatment.dropCopies
      text.words).classes ≠ [] := arrangement_ne_nil ranking options treatment.dropCopies named
  have areWords := arrangement_isWord ranking options treatment.dropCopies text
  obtain ⟨linesStart, linesEnd⟩ := Group.lines_edges areWords some_class
  rw [arrangement_ofText options _ unnamed] at once
  have edges : ((ranking.sorter options).sortCut treatment text).startsApart = text.startsApart ∧
      ((ranking.sorter options).sortCut treatment text).endsApart = false := by
    cases starts : text.startsApart with
    | false =>
      rw [starts] at once
      rw [once]
      exact ⟨linesStart, linesEnd⟩
    | true =>
      obtain ⟨gap, -, behindGap⟩ := Group.exists_lines_nil_cons some_class
      have lines_ne_nil := Group.lines_ne_nil areWords some_class
      rw [starts, if_pos rfl] at once
      rw [once]
      refine ⟨Group.startsApart_lines_nil_cons some_class, ?_⟩
      rw [behindGap, Text.endsApart_append _ lines_ne_nil, linesEnd]
  obtain ⟨sameStart, ends⟩ := edges
  have sameClasses := arrangement_sortCut unnamed options first last separate sameStart
  constructor
  · rw [sortCut_lines options first last (by rw [sameClasses, broken]), sameClasses,
      sortCut_lines options first last broken]
  · exact fun starts => sameStart.trans starts
  · exact fun _ => ends
  · exact fun _ => words ▸ some_class

/-! ### Verbatim -/

theorem settles_verbatim {text : Text} (named : text.words ≠ [])
    (verbatim : (ranking.sorter options).spacing treatment = .verbatim) :
    (ranking.sorter options).Settles treatment text := by
  have faithful := ranking.sorter_faithful options
  obtain ⟨segments, regular, rfl⟩ := exists_regular text
  have once := (ranking.sorter options).sortCut_verbatim first last verbatim segments.toText
  have rearranged := rearrange_regular options treatment.dropCopies unnamed regular
  rw [regular.ofText_toText] at once
  have twice := (ranking.sorter options).sortCut_verbatim first last verbatim
    ((ranking.sorter options).rearrange treatment.dropCopies segments).toText
  rw [rearranged.ofText_toText, ranking.rearrange_rearrange options] at twice
  obtain ⟨leading, inner, space, innerNamed, rfl⟩ := regular.exists_indent
  rw [innerNamed.words_indent space] at named
  have innerRearranged : Named ((ranking.sorter options).rearrange treatment.dropCopies inner) :=
    Sorter.rearrange_woven faithful treatment.dropCopies innerNamed
  have some_class := Sorter.rearrange_ne_nil faithful treatment.dropCopies named
  constructor
  · rw [once, twice]
  · intro starts
    rw [once, rearrange_indent options treatment.dropCopies unnamed,
      innerRearranged.startsApart_indent space]
    rwa [innerNamed.startsApart_indent space] at starts
  · intro ends
    rw [once, rearrange_indent options treatment.dropCopies unnamed]
    rw [← Bool.not_eq_true, innerNamed.endsApart_indent named] at ends
    rw [← Bool.not_eq_true, innerRearranged.endsApart_indent some_class,
      Sorter.rearrange_paired faithful treatment.dropCopies innerNamed.separated]
    exact ends
  · intro _
    rw [once, rearrange_indent options treatment.dropCopies unnamed,
      innerRearranged.words_indent space]
    exact some_class

/-! ### On one line -/

theorem settles_collapsed {text : Text} {dropStart dropEnd : Bool} (named : text.words ≠ [])
    (separate : text.BlanksSeparate)
    (inForce : (ranking.sorter options).spacing treatment = .collapsed dropStart dropEnd)
    (flat : (ranking.sorter options).breaksLines treatment
      ((ranking.sorter options).arrangement treatment.dropCopies (ofText text).classes).classes =
        false) :
    (ranking.sorter options).Settles treatment text := by
  have words := words_sortCut options first last unnamed fun _ => separate
  have once := sortCut_collapsed unnamed options named separate first last inForce flat
  have some_class := arrangement_ne_nil ranking options treatment.dropCopies named
  have areWords := arrangement_isWord ranking options treatment.dropCopies text
  obtain ⟨coreStart, coreEnd⟩ := intercalate_edges areWords some_class
  have core_ne_nil := intercalate_ne_nil areWords some_class
  have start : ((ranking.sorter options).sortCut treatment text).startsApart =
      (text.startsApart && !dropStart) := by
    rw [once, Text.startsApart_newEdge]
    rwa [Text.startsApart_append _ core_ne_nil]
  have finish : ((ranking.sorter options).sortCut treatment text).endsApart =
      (text.endsApart && !dropEnd) := by
    rw [once, ← List.append_assoc, Text.endsApart_newEdge]
    rwa [Text.endsApart_append _ core_ne_nil]
  have separateAgain : ((ranking.sorter options).sortCut treatment text).BlanksSeparate := by
    have coreSeparate := blanksSeparate_intercalate areWords
      fun name member => separate.of_mem_words (ranking.mem_of_mem_arrangement options _ member)
    rw [once]
    exact Text.blanksSeparate_append.mpr ⟨(Text.newEdge_isSpace _ _).blanksSeparate,
      Text.blanksSeparate_append.mpr ⟨coreSeparate, (Text.newEdge_isSpace _ _).blanksSeparate⟩⟩
  have flatAgain : (ranking.sorter options).breaksLines treatment
      ((ranking.sorter options).arrangement treatment.dropCopies
        (ofText ((ranking.sorter options).sortCut treatment text)).classes).classes = false := by
    apply Sorter.breaksLines_of_length_le flat
    rw [arrangement_ofText options _ unnamed, arrangement_ofText options _ unnamed, words, arrangement_arrangement,
      start]
    cases text.startsApart <;> cases dropStart <;> simp
  have twice := sortCut_collapsed unnamed options (words ▸ some_class) separateAgain first last
    inForce flatAgain
  rw [words, arrangement_arrangement, start, finish, Text.newEdge_and, Text.newEdge_and] at twice
  constructor
  · rw [twice, once]
  · intro starts
    rw [start, starts]
    rfl
  · intro ends
    rw [finish, ends]
    rfl
  · exact fun _ => words ▸ some_class

theorem settles_plain {text : Text} (named : text.words ≠ [])
    (separate : ((ranking.sorter options).spacing treatment).isCollapsed = true →
      text.BlanksSeparate) :
    (ranking.sorter options).Settles treatment text := by
  cases broken : (ranking.sorter options).breaksLines treatment
      ((ranking.sorter options).arrangement treatment.dropCopies (ofText text).classes).classes with
  | true => exact settles_lines unnamed options first last named separate broken
  | false =>
    cases inForce : (ranking.sorter options).spacing treatment with
    | verbatim => exact settles_verbatim unnamed options first last named inForce
    | collapsed dropStart dropEnd =>
      rw [inForce] at separate
      exact settles_collapsed unnamed options first last named (separate rfl) inForce broken

end Ranking

/-! ## All together -/

namespace Ranking

variable {ranking : Ranking} (unnamed : ranking.rank [] = none) (options : Options)
  {treatment : Treatment} {text : Text}
  (separate : ((ranking.sorter options).spacing treatment).isCollapsed = true →
    text.BlanksSeparate)
  (notGap : text ≠ [] → text.words ≠ [])
include unnamed separate notGap

theorem settles_neither (first : treatment.keepFirst = false) (last : treatment.keepLast = false) :
    (ranking.sorter options).Settles treatment text := by
  by_cases empty : text = []
  · rw [empty]
    exact Sorter.settles_of_fixed (Sorter.sortCut_nil (ranking.sorter_faithful options) treatment)
  · exact settles_plain unnamed options first last (notGap empty) separate

theorem settles_last (first : treatment.keepFirst = false)
    (closed : treatment.keepLast = true → text.endsApart = false) :
    (ranking.sorter options).Settles treatment text := by
  have faithful := ranking.sorter_faithful options
  cases last : treatment.keepLast with
  | false => exact settles_neither unnamed options separate notGap first last
  | true =>
    rcases Text.exists_last text (closed last) with plain |
      ⟨rest, gap, name, restEnds, isGap, word, rfl⟩
    · exact Sorter.settles_of_fixed (Sorter.sortCut_single faithful separate plain (.inr last))
    · have restSettles : (ranking.sorter { options with multiline := false }).Settles
          { treatment with keepLast := false } rest :=
        settles_neither unnamed _
          (fun collapsed => (Text.blanksSeparate_append.mp (separate collapsed)).1)
          (fun ne_nil => Text.words_ne_nil_of_endsApart ne_nil restEnds) first rfl
      have nameSeparate := fun collapsed =>
        (Text.blanksSeparate_append.mp
          (Text.blanksSeparate_append.mp (separate collapsed)).2).2
      exact Sorter.settles_before faithful isGap nameSeparate word restEnds first last restSettles

theorem settles (closed : treatment.keepLast = true → text.endsApart = false) :
    (ranking.sorter options).Settles treatment text := by
  have faithful := ranking.sorter_faithful options
  cases first : treatment.keepFirst with
  | false => exact settles_last unnamed options separate notGap first closed
  | true =>
    rcases Text.exists_first text with plain | ⟨name, gap, rest, plain, isGap, starts, rfl⟩
    · exact Sorter.settles_of_fixed (Sorter.sortCut_single faithful separate plain (.inl first))
    · have restSeparate := fun collapsed =>
        (Text.blanksSeparate_append.mp
          (Text.blanksSeparate_append.mp (separate collapsed)).2).2
      have restClosed : treatment.keepLast = true → rest.endsApart = false := by
        intro last
        have ends := closed last
        by_cases empty : rest = []
        · rw [empty]
          rfl
        · rwa [← List.append_assoc, Text.endsApart_append _ empty] at ends
      have restSettles : (ranking.sorter { options with multiline := false }).Settles
          { treatment with keepFirst := false } rest :=
        settles_last unnamed _ restSeparate
          (fun ne_nil => Text.words_ne_nil_of_startsApart ne_nil starts) rfl restClosed
      have nameSeparate := fun collapsed =>
        (Text.blanksSeparate_append.mp (separate collapsed)).1
      exact Sorter.settles_behind isGap nameSeparate plain starts first restSettles

end Ranking

theorem Sorter.sort_sort_gap (sorter : Sorter) (treatment : Treatment) {text : Text}
    (gap : text.isGap = true) :
    sorter.sort treatment (sorter.sort treatment text) = sorter.sort treatment text := by
  cases collapsed : (sorter.spacing treatment).isCollapsed with
  | false =>
    have fixed : sorter.sort treatment text = text := by simp [sort, gap, collapsed]
    rw [fixed, fixed]
  | true =>
    have space : sorter.sort treatment [' '] = [' '] := by
      have spaceGap : Text.isGap [' '] = true := rfl
      simp [sort, collapsed, spaceGap]
    cases template : text.isTemplate with
    | true => rw [sorter.sort_template treatment template, sorter.sort_template treatment template]
    | false =>
      have ne_nil := (Text.isGap_iff.mp gap).1
      have collapsedText : sorter.sort treatment text = [' '] := by
        simp [sort, gap, collapsed, template, ne_nil]
      rw [collapsedText, space]

/-- Sorting is idempotent: what was sorted stays as it is when it is sorted again. If the last
class is kept, the text may not end with a separator; if gaps are collapsed, all white space of the
text has to separate classes. -/
theorem Ranking.sort_sort {ranking : Ranking} (unnamed : ranking.rank [] = none)
    (options : Options) (treatment : Treatment) {text : Text}
    (separate : ((ranking.sorter options).spacing treatment).isCollapsed = true →
      text.BlanksSeparate)
    (closed : treatment.keepLast = true → text.endsApart = false) :
    (ranking.sorter options).sort treatment ((ranking.sorter options).sort treatment text) =
      (ranking.sorter options).sort treatment text := by
  by_cases wordless : text.words = []
  · cases text with
    | nil => rfl
    | cons c rest =>
      have gap := Text.isGap_iff.mpr ⟨List.cons_ne_nil c rest, Text.words_eq_nil_iff.mp wordless⟩
      exact (ranking.sorter options).sort_sort_gap treatment gap
  · cases template : text.isTemplate with
    | true => rw [Sorter.sort_template _ _ template, Sorter.sort_template _ _ template]
    | false =>
      have settles := Ranking.settles unnamed options separate (fun _ => wordless) closed
      rw [Sorter.sort_of_words _ treatment template wordless]
      cases result : Text.isTemplate ((ranking.sorter options).sortCut treatment text) with
      | true => exact Sorter.sort_template _ _ result
      | false =>
        rw [Sorter.sort_of_words _ treatment result (settles.words wordless)]
        exact settles.again

theorem Ranking.sort_sort_letters :
    let sorter := CanonicalOrder.letters.ranking.sorter {}
    sorter.sort { keepLast := true }
        (sorter.sort { keepLast := true } ['b', ' ', '\n', 'a', ' ', 'b', '\t', 'c']) =
      ['a', ' ', 'b', ' ', 'c'] := by
  intro sorter
  have again := Ranking.sort_sort CanonicalOrder.letters_unnamed {} { keepLast := true }
    (fun _ => show Text.BlanksSeparate ['b', ' ', '\n', 'a', ' ', 'b', '\t', 'c'] by decide)
    (fun _ => by decide)
  exact again.trans (by decide +kernel)

end ClassTidy
