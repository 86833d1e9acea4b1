import ClassTidy.Proofs.Attribute.Collapse
import Mathlib.Data.List.Chain

/-!
# Single spaces

Collapsing leaves a single space of every stretch of white space, with one exception. The gap at the
end of a text is taken for the one in front of the last class if that is kept, and may come to stand
behind another.
-/

set_option autoImplicit false

namespace ClassTidy

namespace Text

/-- Whether every stretch of white space in a text is a single space. -/
def SingleSpaced (text : Text) : Prop :=
  (∀ c ∈ text, isBlank c = true → c = ' ') ∧
    text.IsChain fun c d => isBlank c = false ∨ isBlank d = false

theorem singleSpaced_nil : SingleSpaced [] := ⟨List.forall_mem_nil _, .nil⟩

theorem singleSpaced_space : SingleSpaced [' '] :=
  ⟨fun _ member _ => List.mem_singleton.mp member, .singleton ' '⟩

theorem singleSpaced_append {front back : Text} :
    SingleSpaced (front ++ back) ↔
      (front.SingleSpaced ∧ back.SingleSpaced) ∧
        (front.endsBlank = false ∨ back.startsBlank = false) := by
  have junction : (∀ c ∈ front.getLast?, ∀ d ∈ back.head?, isBlank c = false ∨ isBlank d = false) ↔
      front.endsBlank = false ∨ back.startsBlank = false := by
    rw [endsBlank, startsBlank]
    cases front.getLast? with
    | none => simp
    | some c => cases back.head? <;> simp
  rw [SingleSpaced, SingleSpaced, SingleSpaced, List.forall_mem_append, List.isChain_append,
    junction]
  tauto

theorem IsPlain.singleSpaced {text : Text} (plain : text.IsPlain) (separate : text.BlanksSeparate) :
    text.SingleSpaced := by
  have letters : ∀ c ∈ text, isBlank c = false :=
    fun c member => (separate.isBlank_eq member).trans (plain c member)
  constructor
  · intro c member blank
    rw [letters c member] at blank
    cases blank
  · apply List.Pairwise.isChain
    exact List.pairwise_of_forall_mem_list fun c member _ _ => .inl (letters c member)

theorem newEdge_singleSpaced (apart drops : Bool) : SingleSpaced (newEdge apart drops) := by
  cases apart <;> cases drops <;> first | exact singleSpaced_nil | exact singleSpaced_space

theorem endsBlank_nil : endsBlank [] = false := rfl

theorem endsBlank_space : endsBlank [' '] = true := by decide

theorem singleSpaced_space_append {back : Text} :
    SingleSpaced ([' '] ++ back) ↔ back.SingleSpaced ∧ back.startsBlank = false := by
  rw [singleSpaced_append, endsBlank_space, Bool.true_eq_false, false_or,
    and_iff_right singleSpaced_space]

theorem singleSpaced_append_word {front name : Text} (word : name.IsWord)
    (separate : name.BlanksSeparate) :
    SingleSpaced (front ++ ([' '] ++ name)) ↔ front.SingleSpaced ∧ front.endsBlank = false := by
  have starts : name.startsBlank = false :=
    separate.startsBlank_eq.trans word.plain.startsApart
  have behind : SingleSpaced ([' '] ++ name) :=
    singleSpaced_space_append.mpr ⟨word.plain.singleSpaced separate, starts⟩
  have blank : startsBlank ([' '] ++ name) = true := by
    rw [startsBlank_append name (List.cons_ne_nil _ _)]
    decide
  rw [singleSpaced_append, blank, Bool.true_eq_false, or_false, and_iff_left behind]

/-- A text that ends with a separator ends with a word and the gap behind it. -/
theorem exists_last_word {text : Text} (named : text.words ≠ []) (ends : text.endsApart = true) :
    ∃ rest name gap : Text, (rest = [] ∨ rest.endsApart = true) ∧ name.IsWord ∧ gap.isGap = true ∧
      text = rest ++ (name ++ gap) := by
  obtain ⟨inner, gap, space, innerEnds, rfl⟩ := exists_trailing text
  have some_inner : inner ≠ [] := by
    rintro rfl
    exact named (words_of_isSpace space)
  have isGap : gap.isGap = true := by
    rw [endsApart_append_space space innerEnds] at ends
    exact isGap_iff.mpr ⟨by simpa using ends, space⟩
  rcases exists_last inner innerEnds with plain | ⟨rest, before, name, -, beforeIsGap, word, rfl⟩
  · exact ⟨[], inner, gap, .inl rfl, ⟨some_inner, plain⟩, isGap, rfl⟩
  · refine ⟨rest ++ before, name, gap, .inr ?_, word, isGap, by simp⟩
    rw [endsApart_append _ (isGap_iff.mp beforeIsGap).1, endsApart_of_isGap beforeIsGap]

end Text

namespace Segments

theorem classes_ofText_eq_nil {text : Text} : (ofText text).classes = [] ↔ text = [] := by
  rw [classes_ofText]
  cases starts : text.startsApart with
  | true =>
    have some_text : text ≠ [] := by
      rintro rfl
      cases starts
    exact iff_of_false (List.cons_ne_nil _ _) some_text
  | false =>
    constructor
    · intro wordless
      by_contra some_text
      exact Text.words_ne_nil_of_startsApart some_text starts wordless
    · rintro rfl
      exact Text.words_nil

theorem intercalate_singleSpaced {classes : List ClassName}
    (words : ∀ name ∈ classes, name.IsWord) (separate : ∀ name ∈ classes, name.BlanksSeparate) :
    Text.SingleSpaced (Text.intercalate ' ' classes) := by
  induction classes with
  | nil => exact Text.singleSpaced_nil
  | cons first rest ih =>
    obtain ⟨firstWord, restWords⟩ := List.forall_mem_cons.mp words
    obtain ⟨firstSeparate, restSeparate⟩ := List.forall_mem_cons.mp separate
    have firstSpaced := firstWord.plain.singleSpaced firstSeparate
    cases rest with
    | nil => exact firstSpaced
    | cons second later =>
      have restSpaced := ih restWords restSeparate
      have firstEnds : first.endsBlank = false :=
        firstSeparate.endsBlank_eq.trans firstWord.plain.endsApart
      have restStarts : Text.startsBlank (Text.intercalate ' ' (second :: later)) = false := by
        rw [(blanksSeparate_intercalate restWords restSeparate).startsBlank_eq]
        exact (intercalate_edges restWords (List.cons_ne_nil _ _)).1
      rw [Text.intercalate_cons_cons, ← List.singleton_append, Text.singleSpaced_append,
        Text.singleSpaced_append]
      exact ⟨⟨firstSpaced, ⟨Text.singleSpaced_space, restSpaced⟩, .inr restStarts⟩, .inl firstEnds⟩

end Segments

namespace Ranking

open Segments

section

variable {ranking : Ranking} (unnamed : ranking.rank [] = none) {options : Options}
  (oneLine : options.multiline = false) {treatment : Treatment} {dropStart dropEnd : Bool}
  (inForce : (ranking.sorter options).spacing treatment = .collapsed dropStart dropEnd)
include unnamed oneLine inForce

/-! ## No kept classes -/

section

variable (first : treatment.keepFirst = false) (last : treatment.keepLast = false)
include first last

theorem sortCut_gap {gap : Text} (isGap : gap.isGap = true) :
    (ranking.sorter options).sortCut treatment gap =
      if dropStart || dropEnd then [] else [' '] := by
  have flat : (ranking.sorter options).breaksLong treatment = false := by
    simp [Sorter.breaksLong, sorter, oneLine]
  have cut := ofText_behind Text.isPlain_nil isGap Text.startsApart_nil
  rw [List.nil_append, List.append_nil] at cut
  have nothing : (ranking.sorter options).rearrange treatment.dropCopies ⟨[], []⟩ = ⟨[], []⟩ := by
    rw [Sorter.rearrange, Sorter.arrangement_nil (ranking.sorter_faithful options)]
    rfl
  have spaced : Spacing.space (.collapsed dropStart dropEnd) ((ofText []).behind [] gap) =
      behind [] [' '] ⟨[], []⟩ := rfl
  rw [Sorter.sortCut, cut, Sorter.sortSegments_plain _ first last,
    Sorter.layOut_of_unbroken _ flat, inForce, spaced, rearrange_behind options _ unnamed, nothing]
  cases dropStart <;> cases dropEnd <;> rfl

variable {text : Text} (separate : text.BlanksSeparate)
include separate

theorem sortCut_words (named : text.words ≠ []) :
    let line := Text.intercalate ' '
      ((ranking.sorter options).arrangement treatment.dropCopies text.words).classes
    (ranking.sorter options).sortCut treatment text =
        Text.newEdge text.startsApart dropStart ++ (line ++ Text.newEdge text.endsApart dropEnd) ∧
      line ≠ [] ∧ line.SingleSpaced ∧ line.startsBlank = false ∧ line.endsBlank = false := by
  intro line
  have flat : ∀ classes, (ranking.sorter options).breaksLines treatment classes = false := by
    intro classes
    simp [Sorter.breaksLines, Sorter.breaksLong, sorter, oneLine]
  have areWords := arrangement_isWord ranking options treatment.dropCopies text
  have wordsSeparate : ∀ name ∈
      ((ranking.sorter options).arrangement treatment.dropCopies text.words).classes,
        name.BlanksSeparate :=
    fun name member => separate.of_mem_words (ranking.mem_of_mem_arrangement options _ member)
  have some_class := arrangement_ne_nil ranking options treatment.dropCopies named
  have lineSeparate := blanksSeparate_intercalate areWords wordsSeparate
  obtain ⟨starts, ends⟩ := intercalate_edges areWords some_class
  exact ⟨sortCut_collapsed unnamed options named separate first last inForce (flat _),
    intercalate_ne_nil areWords some_class, intercalate_singleSpaced areWords wordsSeparate,
    lineSeparate.startsBlank_eq.trans starts, lineSeparate.endsBlank_eq.trans ends⟩

/-- Without kept classes there are only single spaces, and one stands at the end just when the text
has space there that is not dropped. -/
theorem singleSpaced_sortCut :
    ((ranking.sorter options).sortCut treatment text).SingleSpaced ∧
      (((ranking.sorter options).sortCut treatment text).endsBlank = true ↔
        text.endsApart = true ∧ dropEnd = false ∧ (text.words = [] → dropStart = false)) := by
  by_cases wordless : text.words = []
  · cases text with
    | nil =>
      rw [Sorter.sortCut_nil (ranking.sorter_faithful options)]
      exact ⟨Text.singleSpaced_nil, by simp [Text.endsBlank_nil]⟩
    | cons c rest =>
      have isGap : Text.isGap (c :: rest) = true :=
        Text.isGap_iff.mpr ⟨List.cons_ne_nil _ _, Text.words_eq_nil_iff.mp wordless⟩
      rw [sortCut_gap unnamed oneLine inForce first last isGap, Text.endsApart_of_isGap isGap,
        wordless]
      cases dropStart <;> cases dropEnd <;>
        simp [Text.singleSpaced_nil, Text.singleSpaced_space, Text.endsBlank_nil,
          Text.endsBlank_space]
  · obtain ⟨sorted, some_line, lineSpaced, lineStarts, lineEnds⟩ :=
      sortCut_words unnamed oneLine inForce first last separate wordless
    have lineStartsBefore : ∀ edge, Text.startsBlank
        (Text.intercalate ' ' ((ranking.sorter options).arrangement treatment.dropCopies
          text.words).classes ++ edge) = false :=
      fun edge => (Text.startsBlank_append edge some_line).trans lineStarts
    rw [sorted]
    constructor
    · have edgeSpaced := Text.newEdge_singleSpaced
      exact Text.singleSpaced_append.mpr ⟨⟨edgeSpaced _ _,
        Text.singleSpaced_append.mpr ⟨⟨lineSpaced, edgeSpaced _ _⟩, .inl lineEnds⟩⟩,
        .inr (lineStartsBefore _)⟩
    · rw [Text.endsBlank_append _ (List.append_ne_nil_of_left_ne_nil some_line _)]
      cases text.endsApart with
      | false => simpa [Text.newEdge] using lineEnds
      | true =>
        cases dropEnd with
        | true => simpa using lineEnds
        | false =>
          have space : Text.newEdge true false = [' '] := rfl
          rw [space, Text.endsBlank_append _ (List.cons_ne_nil _ _)]
          simp [Text.endsBlank_space, wordless]

/-- A text that starts with a word gives a result that does. -/
theorem startsBlank_sortCut (some_text : text ≠ []) (starts : text.startsApart = false) :
    (ranking.sorter options).sortCut treatment text ≠ [] ∧
      ((ranking.sorter options).sortCut treatment text).startsBlank = false := by
  have named := Text.words_ne_nil_of_startsApart some_text starts
  obtain ⟨sorted, some_line, -, lineStarts, -⟩ :=
    sortCut_words unnamed oneLine inForce first last separate named
  have noEdge : Text.newEdge false dropStart = [] := rfl
  rw [sorted, starts, noEdge, List.nil_append]
  exact ⟨List.append_ne_nil_of_left_ne_nil some_line _,
    (Text.startsBlank_append _ some_line).trans lineStarts⟩

end

/-! ## A kept last class -/

section

variable (first : treatment.keepFirst = false) (last : treatment.keepLast = true)
include first last

omit oneLine in
theorem singleSpaced_sortCut_closed {text : Text} (separate : text.BlanksSeparate)
    (ends : text.endsApart = false) :
    ((ranking.sorter options).sortCut treatment text).SingleSpaced ∧
      (text.startsApart = false →
        ((ranking.sorter options).sortCut treatment text).startsBlank = false) := by
  have faithful := ranking.sorter_faithful options
  rcases Text.exists_last text ends with plain | ⟨rest, gap, name, restEnds, isGap, word, rfl⟩
  · rw [Sorter.sortCut_single faithful (fun _ => separate) plain (.inr last)]
    exact ⟨plain.singleSpaced separate, separate.startsBlank_eq.trans⟩
  · obtain ⟨restSeparate, behindSeparate⟩ := Text.blanksSeparate_append.mp separate
    have nameSeparate := (Text.blanksSeparate_append.mp behindSeparate).2
    have unbroken : (ranking.sorter { options with multiline := false }).spacing
        { treatment with keepLast := false } = .collapsed dropStart dropEnd := inForce
    have space : Spacing.gap (.collapsed dropStart dropEnd) gap = [' '] := rfl
    obtain ⟨restSpaced, restEndsBlank⟩ :=
      singleSpaced_sortCut unnamed rfl unbroken first rfl restSeparate
    rw [restEnds] at restEndsBlank
    rw [Sorter.sortCut_before faithful isGap (fun _ => nameSeparate) word restEnds first last,
      inForce, space, Text.singleSpaced_append_word word nameSeparate]
    refine ⟨⟨restSpaced, ?_⟩, ?_⟩
    · rw [← Bool.not_eq_true]
      exact fun blank => Bool.false_ne_true (restEndsBlank.mp blank).1
    · intro starts
      by_cases empty : rest = []
      · rw [empty, List.nil_append, Text.startsApart_append _ (Text.isGap_iff.mp isGap).1,
          Text.startsApart_of_isGap isGap] at starts
        cases starts
      · rw [Text.startsApart_append _ empty] at starts
        obtain ⟨some_rest, restStarts⟩ :=
          startsBlank_sortCut unnamed rfl unbroken first rfl restSeparate empty starts
        exact (Text.startsBlank_append _ some_rest).trans restStarts

omit oneLine in
theorem singleSpaced_sortCut_open {text : Text} (separate : text.BlanksSeparate)
    (named : text.words ≠ []) (ends : text.endsApart = true) :
    (((ranking.sorter options).sortCut treatment text).SingleSpaced ↔
        ¬ (1 < (ofText text).classes.length ∧ dropEnd = false ∧
          (text.words.length = 1 → dropStart = false))) ∧
      (text.startsApart = false →
        (((ranking.sorter options).sortCut treatment text).startsBlank = true ↔
          text.words.length = 1)) := by
  have faithful := ranking.sorter_faithful options
  obtain ⟨rest, name, gap, restEnds, word, isGap, rfl⟩ := Text.exists_last_word named ends
  obtain ⟨restSeparate, lastSeparate⟩ := Text.blanksSeparate_append.mp separate
  have nameSeparate := (Text.blanksSeparate_append.mp lastSeparate).1
  have unbroken : (ranking.sorter { options with multiline := false }).spacing
      { treatment with keepLast := false } = .collapsed dropStart dropEnd := inForce
  have space : Spacing.gap (.collapsed dropStart dropEnd) gap = [' '] := rfl
  have cut := ofText_before_gap word isGap restEnds
  have apart : Text.Apart rest (name ++ gap) := by
    rcases restEnds with empty | separates
    · exact .inl empty
    · exact .inr (.inr (.inl separates))
  have words : Text.words (rest ++ (name ++ gap)) = Text.words rest ++ [name] := by
    rw [Text.words_append apart, Text.words_append_space name (Text.isGap_iff.mp isGap).2,
      word.words]
  obtain ⟨restSpaced, restEndsBlank⟩ :=
    singleSpaced_sortCut unnamed rfl unbroken first rfl restSeparate
  have sorted : (ranking.sorter options).sortCut treatment (rest ++ (name ++ gap)) =
      (ranking.sorter { options with multiline := false }).sortCut
        { treatment with keepLast := false } rest ++ ([' '] ++ name) := by
    rw [Sorter.sortCut, cut, Sorter.sortSegments_before word.plain (fun _ => nameSeparate) first last,
      inForce, space]
    rfl
  rw [sorted, Text.singleSpaced_append_word word nameSeparate, cut, words]
  have length : ((ofText rest).before name gap).classes.length =
      (ofText rest).classes.length + 1 := List.length_append
  by_cases empty : rest = []
  · subst empty
    have nothing : (ranking.sorter { options with multiline := false }).sortCut
        { treatment with keepLast := false } [] = [] :=
      Sorter.sortCut_nil (ranking.sorter_faithful _) _
    have noClass : (ofText []).classes.length = 0 := rfl
    rw [length, noClass, nothing, Text.words_nil]
    refine ⟨iff_of_true ⟨Text.singleSpaced_nil, rfl⟩ fun few => Nat.lt_irrefl _ few.1, fun _ => ?_⟩
    exact iff_of_true (Text.startsBlank_append name (List.cons_ne_nil _ _)) rfl
  · have separates := restEnds.resolve_left empty
    have some_class : 0 < (ofText rest).classes.length :=
      List.length_pos_of_ne_nil (mt classes_ofText_eq_nil.mp empty)
    constructor
    · rw [and_iff_right restSpaced, ← Bool.not_eq_true, restEndsBlank, length, separates]
      simp [some_class]
    · intro starts
      rw [Text.startsApart_append _ empty] at starts
      obtain ⟨some_rest, restStarts⟩ :=
        startsBlank_sortCut unnamed rfl unbroken first rfl restSeparate empty starts
      have named := List.length_pos_of_ne_nil (Text.words_ne_nil_of_startsApart empty starts)
      rw [Text.startsBlank_append _ some_rest, restStarts, List.length_append]
      exact iff_of_false Bool.false_ne_true (Nat.ne_of_gt (Nat.succ_lt_succ named))

end

/-! ## A kept first class -/

/-- What stands behind a kept first class and the space behind that. -/
theorem singleSpaced_sortCut_rest (first : treatment.keepFirst = false) {rest : Text}
    (separate : rest.BlanksSeparate) (starts : rest.startsApart = false) :
    ((ranking.sorter options).sortCut treatment rest).SingleSpaced ∧
        ((ranking.sorter options).sortCut treatment rest).startsBlank = false ↔
      ¬ (treatment.keepLast = true ∧ rest.endsApart = true ∧
        (rest.words.length = 1 ∨ (1 < rest.words.length ∧ dropEnd = false))) := by
  by_cases empty : rest = []
  · subst empty
    rw [Sorter.sortCut_nil (ranking.sorter_faithful options)]
    exact iff_of_true ⟨Text.singleSpaced_nil, rfl⟩ fun exceeds => Bool.false_ne_true exceeds.2.1
  have named := Text.words_ne_nil_of_startsApart empty starts
  cases last : treatment.keepLast with
  | false =>
    have spaced := singleSpaced_sortCut unnamed oneLine inForce first last separate
    have startsWord := startsBlank_sortCut unnamed oneLine inForce first last separate empty starts
    exact iff_of_true ⟨spaced.1, startsWord.2⟩ fun exceeds => Bool.false_ne_true exceeds.1
  | true =>
    cases ends : rest.endsApart with
    | false =>
      obtain ⟨spaced, startsWord⟩ :=
        singleSpaced_sortCut_closed unnamed inForce first last separate ends
      exact iff_of_true ⟨spaced, startsWord starts⟩ fun exceeds => Bool.false_ne_true exceeds.2.1
    | true =>
      obtain ⟨spaced, startsWith⟩ :=
        singleSpaced_sortCut_open unnamed inForce first last separate named ends
      have counted : (ofText rest).classes.length = rest.words.length := by
        rw [classes_ofText, starts, if_neg Bool.false_ne_true]
      have startsWord : ((ranking.sorter options).sortCut treatment rest).startsBlank = false ↔
          rest.words.length ≠ 1 := Bool.eq_false_iff.trans (not_congr (startsWith starts))
      rw [spaced, startsWord, counted]
      by_cases single : rest.words.length = 1 <;> simp [single]

omit oneLine in
theorem singleSpaced_sortCut_keepFirst (first : treatment.keepFirst = true) {text : Text}
    (separate : text.BlanksSeparate) :
    let count := (ofText text).classes.length
    ((ranking.sorter options).sortCut treatment text).SingleSpaced ↔
      ¬ (treatment.keepLast = true ∧ text.endsApart = true ∧
        (count = 2 ∨ (2 < count ∧ dropEnd = false))) := by
  intro count
  rcases Text.exists_first text with plain | ⟨name, gap, rest, plain, isGap, starts, rfl⟩
  · rw [Sorter.sortCut_single (ranking.sorter_faithful options) (fun _ => separate) plain
      (.inl first), plain.endsApart]
    exact iff_of_true (plain.singleSpaced separate) fun ends => Bool.false_ne_true ends.2.1
  · obtain ⟨nameSeparate, behindSeparate⟩ := Text.blanksSeparate_append.mp separate
    have restSeparate := (Text.blanksSeparate_append.mp behindSeparate).2
    have nameEnds : name.endsBlank = false := nameSeparate.endsBlank_eq.trans plain.endsApart
    have unbroken : (ranking.sorter { options with multiline := false }).spacing
        { treatment with keepFirst := false } = .collapsed dropStart dropEnd := inForce
    have space : Spacing.gap (.collapsed dropStart dropEnd) gap = [' '] := rfl
    have restSpaced := singleSpaced_sortCut_rest unnamed rfl unbroken rfl restSeparate starts
    have counted : count = rest.words.length + 1 := by
      simp only [count, ofText_behind plain isGap starts, behind, List.length_cons, classes_ofText,
        starts, Bool.false_eq_true, if_false]
    have sameEnd : rest ≠ [] → Text.endsApart (name ++ (gap ++ rest)) = rest.endsApart := by
      intro some_rest
      rw [← List.append_assoc, Text.endsApart_append _ some_rest]
    rw [Sorter.sortCut_behind isGap (fun _ => nameSeparate) plain starts first, inForce, space,
      Text.singleSpaced_append, Text.singleSpaced_space_append, and_iff_left (.inl nameEnds),
      and_iff_right (plain.singleSpaced nameSeparate), counted]
    refine restSpaced.trans (not_congr (and_congr_right fun _ => ?_))
    by_cases empty : rest = []
    · subst empty
      simp
    · have single : rest.words.length + 1 = 2 ↔ rest.words.length = 1 := by omega
      have several : 2 < rest.words.length + 1 ↔ 1 < rest.words.length := by omega
      rw [sameEnd empty, single, several]

/-! ## The result -/

theorem singleSpaced_sortCut_iff {text : Text} (separate : text.BlanksSeparate)
    (named : text.words ≠ []) :
    let count := (ofText text).classes.length
    ((ranking.sorter options).sortCut treatment text).SingleSpaced ↔
      ¬ (treatment.keepLast = true ∧ text.endsApart = true ∧
        if treatment.keepFirst then count = 2 ∨ (2 < count ∧ dropEnd = false)
        else 1 < count ∧ dropEnd = false ∧ (text.words.length = 1 → dropStart = false)) := by
  intro count
  cases first : treatment.keepFirst with
  | true => exact singleSpaced_sortCut_keepFirst unnamed inForce first separate
  | false =>
    cases last : treatment.keepLast with
    | false =>
      have spaced := singleSpaced_sortCut unnamed oneLine inForce first last separate
      exact iff_of_true spaced.1 fun exceeds => Bool.false_ne_true exceeds.1
    | true =>
      cases ends : text.endsApart with
      | false =>
        have closed := singleSpaced_sortCut_closed unnamed inForce first last separate ends
        exact iff_of_true closed.1 fun exceeds => Bool.false_ne_true exceeds.2.1
      | true =>
        have spaced := singleSpaced_sortCut_open unnamed inForce first last separate named ends
        simpa using spaced.1

end

/-- Collapsing on one line leaves single spaces only, unless the last class is kept, the text ends
with a separator, and the gap there comes to stand behind another. With the first class kept as well
that is the gap behind it, or the space at the end of the sorted classes where that is not dropped;
otherwise it is the latter. -/
theorem singleSpaced_sort_iff {ranking : Ranking} (unnamed : ranking.rank [] = none)
    {options : Options} (oneLine : options.multiline = false) {treatment : Treatment}
    {dropStart dropEnd : Bool}
    (inForce : (ranking.sorter options).spacing treatment = .collapsed dropStart dropEnd)
    {text : Text} (literal : text.isTemplate = false) (separate : text.BlanksSeparate) :
    let count := (ofText text).classes.length
    ((ranking.sorter options).sort treatment text).SingleSpaced ↔
      ¬ (treatment.keepLast = true ∧ text.endsApart = true ∧
        if treatment.keepFirst then count = 2 ∨ (2 < count ∧ dropEnd = false)
        else 1 < count ∧ dropEnd = false ∧ (text.words.length = 1 → dropStart = false)) := by
  intro count
  by_cases wordless : text.words = []
  · have few : count ≤ 1 := by
      simp only [count, classes_ofText, wordless]
      split <;> simp
    have spaced : ((ranking.sorter options).sort treatment text).SingleSpaced := by
      cases text with
      | nil => exact Text.singleSpaced_nil
      | cons c rest =>
        have isGap : Text.isGap (c :: rest) = true :=
          Text.isGap_iff.mpr ⟨List.cons_ne_nil _ _, Text.words_eq_nil_iff.mp wordless⟩
        have blank : (ranking.sorter options).sort treatment (c :: rest) = [' '] := by
          simp [Sorter.sort, literal, isGap, inForce, Spacing.isCollapsed]
        rw [blank]
        exact Text.singleSpaced_space
    apply iff_of_true spaced
    rintro ⟨-, -, exceeds⟩
    split at exceeds <;> omega
  · rw [Sorter.sort_of_words _ treatment literal wordless]
    exact singleSpaced_sortCut_iff unnamed oneLine inForce separate wordless

theorem singleSpaced_sort_letters :
    ((CanonicalOrder.letters.ranking.sorter {}).sort
        { keepFirst := true, keepLast := true, spacing := .collapsed true true }
        ['a', ' ', ' ', 'c', '\t', 'b', ' ']).SingleSpaced :=
  (singleSpaced_sort_iff CanonicalOrder.letters_unnamed rfl rfl (by decide) (by decide)).mpr
    (by decide)

/-- The space at the end is taken for the one in front of the last class. -/
theorem sort_doubles_space :
    let sorter := CanonicalOrder.letters.ranking.sorter {}
    let treatment : Treatment := { keepFirst := true, keepLast := true }
    let text : Text := ['a', ' ', 'b', ' ']
    (text.isTemplate = false ∧ text.BlanksSeparate) ∧
      sorter.sort treatment text = ['a', ' ', ' ', 'b'] ∧
      ¬ (sorter.sort treatment text).SingleSpaced := by
  intro sorter treatment text
  have doubled : sorter.sort treatment text = ['a', ' ', ' ', 'b'] := by
    decide +kernel
  refine ⟨by decide, doubled, ?_⟩
  rw [doubled]
  rintro ⟨-, apart⟩
  have spaces := (List.isChain_cons_cons.mp apart.tail).1
  revert spaces
  decide

end Ranking

end ClassTidy
