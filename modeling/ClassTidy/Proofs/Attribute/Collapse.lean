import ClassTidy.Proofs.Attribute.Spacing

/-!
# Collapsing against the white space of a text

Collapsing is meant to change the white space of a text and nothing else, and to give the same
result however the text was spaced. Either holds up to one condition. The empty class in front of a
first gap is counted where the classes are broken into lines, and stays in front. And the ends are
trimmed of all blanks, also of those that do not separate, so a word at an end may lose some.
-/

set_option autoImplicit false

namespace ClassTidy

namespace Ranking

open Segments

theorem spacing_of_free (ranking : Ranking) {options : Options} (treatment : Treatment)
    (free : options.preserveSpacing = false) :
    (ranking.sorter options).spacing treatment = treatment.spacing := if_neg (by simp [sorter, free])

/-! ## Space in front -/

section

variable {options : Options} {treatment : Treatment} (first : treatment.keepFirst = false)
  (last : treatment.keepLast = false) (free : options.preserveSpacing = false)
include first last free

theorem breaksLines_iff {dropStart dropEnd : Bool}
    (collapsed : treatment.spacing = .collapsed dropStart dropEnd) (ranking : Ranking)
    (classes : List ClassName) :
    (ranking.sorter options).breaksLines treatment classes = true ↔
      options.multiline = true ∧ options.multilineLeast ≤ (classes.length : Int) := by
  have inForce := (ranking.spacing_of_free treatment free).trans collapsed
  have long : (ranking.sorter options).breaksLong treatment = options.multiline := by
    rw [Sorter.breaksLong, inForce, first, last]
    simp [sorter, Spacing.isCollapsed]
  rw [Sorter.breaksLines, long, Bool.and_eq_true, decide_eq_true_iff]
  rfl

variable (collapsed : treatment.spacing = .collapsed true true) {ranking : Ranking}
  (unnamed : ranking.rank [] = none) {text : Text} (named : text.words ≠ [])
  (literal : text.isTemplate = false) (separate : text.BlanksSeparate)
include collapsed unnamed named literal separate

/-- With no space left at the ends, the result can be told from the words, and from whether an
empty class stands in front of them. -/
theorem sort_collapsed_ends :
    let words := ((ranking.sorter options).arrangement treatment.dropCopies text.words).classes
    let classes := if text.startsApart then [] :: words else words
    (ranking.sorter options).sort treatment text =
      if (ranking.sorter options).breaksLines treatment classes then Group.lines classes
      else Text.intercalate ' ' words := by
  intro words classes
  have inForce := (ranking.spacing_of_free treatment free).trans collapsed
  have arranged : ((ranking.sorter options).arrangement treatment.dropCopies
      (ofText text).classes).classes = classes :=
    arrangement_ofText options treatment.dropCopies unnamed text
  rw [Sorter.sort_of_words _ treatment literal named]
  cases broken : (ranking.sorter options).breaksLines treatment classes with
  | true =>
    rw [← arranged] at broken
    rw [sortCut_lines options first last broken, arranged]
    rfl
  | false =>
    rw [← arranged] at broken
    rw [sortCut_collapsed unnamed options named separate first last inForce broken,
      Text.newEdge_true, Text.newEdge_true, List.append_nil]
    rfl

theorem startsApart_sort_collapsed_ends :
    let words := ((ranking.sorter options).arrangement treatment.dropCopies text.words).classes
    ((ranking.sorter options).sort treatment text).startsApart = true ↔
      text.startsApart = true ∧
        options.multiline = true ∧ options.multilineLeast ≤ (words.length : Int) + 1 := by
  intro words
  have areWords := arrangement_isWord ranking options treatment.dropCopies text
  have some_class := arrangement_ne_nil ranking options treatment.dropCopies named
  have lineStarts := (intercalate_edges areWords some_class).1
  have linesStart := (Group.lines_edges areWords some_class).1
  rw [sort_collapsed_ends first last free collapsed unnamed named literal separate]
  cases text.startsApart with
  | false =>
    simp only [Bool.false_eq_true, if_false, false_and, iff_false, Bool.not_eq_true]
    split
    · exact linesStart
    · exact lineStarts
  | true =>
    have enough := breaksLines_iff first last free collapsed ranking ([] :: words)
    rw [List.length_cons, Int.natCast_succ] at enough
    simp only [if_true, true_and, ← enough]
    split
    next broken => exact iff_of_true (Group.startsApart_lines_nil_cons some_class) broken
    next flat => exact iff_of_false (by rw [lineStarts]; exact Bool.false_ne_true) flat

theorem sort_collapsed_ends_of_few
    (few : ¬ (options.multiline = true ∧ options.multilineLeast ≤
      (((ranking.sorter options).arrangement treatment.dropCopies text.words).classes.length : Int)
        + 1)) :
    (ranking.sorter options).sort treatment text = Text.intercalate ' '
      ((ranking.sorter options).arrangement treatment.dropCopies text.words).classes := by
  rw [sort_collapsed_ends first last free collapsed unnamed named literal separate]
  apply if_neg
  intro broken
  obtain ⟨asked, enough⟩ := (breaksLines_iff first last free collapsed ranking _).mp broken
  refine few ⟨asked, enough.trans ?_⟩
  split
  · rw [List.length_cons, Int.natCast_succ]
  · omega

end

/-- Two spacings of the same words give the same result if both have space in front or neither has,
or if the words and an empty class are too few for lines; and only then. -/
theorem sort_eq_sort_iff {ranking : Ranking} (unnamed : ranking.rank [] = none) {options : Options}
    {treatment : Treatment} {text other : Text}
    (notGap : text.isGap = false) (otherNotGap : other.isGap = false)
    (literal : text.isTemplate = false) (otherLiteral : other.isTemplate = false)
    (separate : text.BlanksSeparate) (otherSeparate : other.BlanksSeparate)
    (first : treatment.keepFirst = false) (last : treatment.keepLast = false)
    (free : options.preserveSpacing = false) (collapsed : treatment.spacing = .collapsed true true)
    (sameWords : text.words = other.words) :
    let sorter := ranking.sorter options
    let words := (sorter.arrangement treatment.dropCopies text.words).classes
    sorter.sort treatment text = sorter.sort treatment other ↔
      text.startsApart = other.startsApart ∨
        ¬ (options.multiline = true ∧ options.multilineLeast ≤ (words.length : Int) + 1) := by
  intro sorter words
  by_cases wordless : text.words = []
  · have otherWordless : other.words = [] := sameWords ▸ wordless
    obtain rfl : text = [] := by_contra fun ne_nil => Text.words_ne_nil ne_nil notGap wordless
    obtain rfl : other = [] :=
      by_contra fun ne_nil => Text.words_ne_nil ne_nil otherNotGap otherWordless
    exact iff_of_true rfl (.inl rfl)
  · have otherNamed : other.words ≠ [] := sameWords ▸ wordless
    have textResult := sort_collapsed_ends first last free collapsed unnamed wordless literal
      separate
    have otherResult := sort_collapsed_ends first last free collapsed unnamed otherNamed
      otherLiteral otherSeparate
    rw [← sameWords] at otherResult
    by_cases broken : options.multiline = true ∧ options.multilineLeast ≤ (words.length : Int) + 1
    · have otherBroken : options.multiline = true ∧ options.multilineLeast ≤
          ((sorter.arrangement treatment.dropCopies other.words).classes.length : Int) + 1 := by
        rwa [← sameWords]
      have textStarts : (sorter.sort treatment text).startsApart = true ↔ text.startsApart = true :=
        (startsApart_sort_collapsed_ends first last free collapsed unnamed wordless literal
          separate).trans (and_iff_left broken)
      have otherStarts :
          (sorter.sort treatment other).startsApart = true ↔ other.startsApart = true :=
        (startsApart_sort_collapsed_ends first last free collapsed unnamed otherNamed otherLiteral
          otherSeparate).trans (and_iff_left otherBroken)
      rw [or_iff_left (not_not.mpr broken)]
      constructor
      · intro same
        rw [Bool.eq_iff_iff, ← textStarts, ← otherStarts, same]
      · intro sameStart
        rw [← sameStart] at otherResult
        exact textResult.trans otherResult.symm
    · have textLine := sort_collapsed_ends_of_few first last free collapsed unnamed wordless literal
        separate broken
      have otherLine := sort_collapsed_ends_of_few first last free collapsed unnamed otherNamed
        otherLiteral otherSeparate (by rwa [← sameWords])
      rw [← sameWords] at otherLine
      exact iff_of_true (textLine.trans otherLine.symm) (.inr broken)

/-- Two classes and the empty one in front are three. -/
theorem sort_ne_sort_letters :
    (CanonicalOrder.letters.ranking.sorter { multiline := true, multilineLeast := 3 }).sort {}
        ['\n', 'b', ' ', 'a'] ≠
      (CanonicalOrder.letters.ranking.sorter { multiline := true, multilineLeast := 3 }).sort {}
        ['b', '\t', 'a', ' '] := by
  intro same
  have told := (sort_eq_sort_iff CanonicalOrder.letters_unnamed (by decide) (by decide) (by decide)
    (by decide) (by decide) (by decide) rfl rfl rfl rfl (by decide)).mp same
  revert told
  decide +kernel

/-- With space in front of them, four classes are five, and are broken into lines behind an empty
one. -/
theorem sort_breaks_behind_space :
    let sorter := CanonicalOrder.letters.ranking.sorter { multiline := true }
    let text : Text := [' ', 'p', '-', '1', ' ', 'w', '-', '1', ' ', 'a', ' ', 'b']
    let other : Text := ['p', '-', '1', ' ', 'w', '-', '1', ' ', 'a', ' ', 'b']
    (text.isGap = false ∧ other.isGap = false ∧ text.isTemplate = false ∧
      other.isTemplate = false ∧ text.BlanksSeparate ∧ other.BlanksSeparate ∧
        text.words = other.words) ∧
      sorter.sort {} text = ['\n', 'p', '-', '1', '\n', 'w', '-', '1', '\n', 'a', ' ', 'b'] ∧
      sorter.sort {} other = other := by
  decide +kernel

/-! ## Blanks at the ends of words -/

section

variable {ranking : Ranking} (unnamed : ranking.rank [] = none) {options : Options}
  {treatment : Treatment} (first : treatment.keepFirst = false)
  (last : treatment.keepLast = false) {text : Text} (literal : text.isTemplate = false)

theorem words_sort_of_wordless (wordless : text.words = []) :
    ((ranking.sorter options).sort treatment text).words =
      ((ranking.sorter options).arrangement treatment.dropCopies text.words).classes := by
  have space := Text.words_eq_nil_iff.mp wordless
  rw [Text.words_of_isSpace ((ranking.sorter options).sort_isSpace treatment space), wordless,
    Sorter.arrangement_nil (ranking.sorter_faithful options)]

include unnamed first last literal

theorem words_sort_verbatim
    (inForce : (ranking.sorter options).spacing treatment = .verbatim) :
    ((ranking.sorter options).sort treatment text).words =
      ((ranking.sorter options).arrangement treatment.dropCopies text.words).classes := by
  by_cases wordless : text.words = []
  · exact words_sort_of_wordless wordless
  · rw [Sorter.sort_of_words _ treatment literal wordless]
    apply words_sortCut options first last unnamed
    intro collapsed
    rw [inForce] at collapsed
    cases collapsed

theorem words_sort_collapsed_iff {dropStart dropEnd : Bool}
    (inForce : (ranking.sorter options).spacing treatment = .collapsed dropStart dropEnd)
    (oneLine : options.multiline = false) :
    let words := ((ranking.sorter options).arrangement treatment.dropCopies text.words).classes
    ((ranking.sorter options).sort treatment text).words = words ↔
      words.head?.any Text.startsBlank = false ∧ words.getLast?.any Text.endsBlank = false := by
  intro words
  have areWords : ∀ name ∈ words, name.IsWord :=
    arrangement_isWord ranking options treatment.dropCopies text
  by_cases wordless : text.words = []
  · have same : ((ranking.sorter options).sort treatment text).words = words :=
      words_sort_of_wordless wordless
    have nothing : words = [] := by
      simp only [words, wordless]
      rw [Sorter.arrangement_nil (ranking.sorter_faithful options)]
    rw [nothing] at same ⊢
    exact iff_of_true same ⟨rfl, rfl⟩
  · have some_class : words ≠ [] :=
      arrangement_ne_nil ranking options treatment.dropCopies wordless
    have flat : ∀ classes, (ranking.sorter options).breaksLines treatment classes = false := by
      intro classes
      simp [Sorter.breaksLines, Sorter.breaksLong, sorter, oneLine]
    obtain ⟨starts, ends⟩ := intercalate_edges areWords some_class
    have kept := Text.words_trimEnds_iff dropStart dropEnd
      (Text.newEdge_isSpace text.startsApart false) (Text.newEdge_isSpace text.endsApart false)
      (intercalate_ne_nil areWords some_class) starts ends
    rw [words_intercalate areWords, startsBlank_intercalate areWords,
      endsBlank_intercalate areWords] at kept
    rw [Sorter.sort_of_words _ treatment literal wordless,
      sortCut_eq_trimEnds unnamed options wordless first last inForce (flat _)]
    exact kept

end

/-- Collapsing gives the same words as leaving the spacing verbatim if the first of the arranged
words does not start with a blank and the last does not end with one; and only then. -/
theorem words_sort_eq_words_sort_iff {ranking : Ranking} (unnamed : ranking.rank [] = none)
    {options : Options} (treatment : Treatment) (dropStart dropEnd : Bool) {text : Text}
    (literal : text.isTemplate = false)
    (first : treatment.keepFirst = false) (last : treatment.keepLast = false)
    (free : options.preserveSpacing = false) (oneLine : options.multiline = false) :
    let sorter := ranking.sorter options
    let words := (sorter.arrangement treatment.dropCopies text.words).classes
    (sorter.sort { treatment with spacing := .collapsed dropStart dropEnd } text).words =
        (sorter.sort { treatment with spacing := .verbatim } text).words ↔
      words.head?.any Text.startsBlank = false ∧ words.getLast?.any Text.endsBlank = false := by
  intro sorter words
  have asTheyAre : (sorter.sort { treatment with spacing := .verbatim } text).words = words :=
    @words_sort_verbatim ranking unnamed options { treatment with spacing := .verbatim } first last
      text literal (ranking.spacing_of_free _ free)
  rw [asTheyAre]
  exact @words_sort_collapsed_iff ranking unnamed options
    { treatment with spacing := .collapsed dropStart dropEnd } first last text literal dropStart
    dropEnd (ranking.spacing_of_free _ free) oneLine

/-- A line tabulation is a blank that does not separate. -/
theorem words_sort_ne_words_sort_letters :
    ((CanonicalOrder.letters.ranking.sorter {}).sort { spacing := .collapsed false false }
        ['c', ' ', 'd', '\x0b']).words ≠
      ((CanonicalOrder.letters.ranking.sorter {}).sort { spacing := .verbatim }
        ['c', ' ', 'd', '\x0b']).words := by
  intro same
  have told := (words_sort_eq_words_sort_iff CanonicalOrder.letters_unnamed {} false false
    (by decide) rfl rfl rfl rfl).mp same
  revert told
  decide +kernel

/-- The no-break space belongs to the first class, and is lost with the space in front. -/
theorem sort_cuts_into_class :
    let sorter := CanonicalOrder.letters.ranking.sorter {}
    let text : Text := ['\u00a0', 'a', ' ', 'b']
    text.isTemplate = false ∧
      (sorter.sort { spacing := .verbatim } text).words = [['\u00a0', 'a'], ['b']] ∧
      (sorter.sort { spacing := .collapsed true true } text).words = [['a'], ['b']] := by
  decide +kernel

end Ranking

end ClassTidy
