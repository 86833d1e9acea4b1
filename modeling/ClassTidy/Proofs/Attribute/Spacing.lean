import ClassTidy.Proofs.Attribute.Sort
import ClassTidy.Proofs.Class.Order
import Mathlib.Data.List.DropRight

/-!
# What becomes of the white space

With the spacing verbatim, every gap keeps its text and its place, but for one gap less for each
dropped class. With the spacing collapsed, the result can be told from the words alone: they come
out arranged with a space between each two, and a space at either end only if the attribute has
one there and it is not dropped.
-/

set_option autoImplicit false

namespace ClassTidy

namespace Text

/-- The separators at the start of a text. -/
def leadingSpace (text : Text) : Text := text.takeWhile isSeparator

def trailingSpace (text : Text) : Text := text.rtakeWhile isSeparator

theorem leadingSpace_append {space rest : Text} (isSpace : space.IsSpace)
    (starts : rest.startsApart = false) : leadingSpace (space ++ rest) = space := by
  rw [leadingSpace, List.takeWhile_append_of_pos isSpace]
  cases rest with
  | nil => simp
  | cons c later =>
    rw [startsApart_cons] at starts
    simp [starts]

theorem trailingSpace_append {rest space : Text} (isSpace : space.IsSpace)
    (ends : rest.endsApart = false) : trailingSpace (rest ++ space) = space := by
  have reversedSpace : IsSpace space.reverse := by simpa [IsSpace] using isSpace
  have starts : startsApart rest.reverse = false := (startsApart_reverse rest).trans ends
  have reversed := leadingSpace_append reversedSpace starts
  rw [leadingSpace] at reversed
  rw [trailingSpace, List.rtakeWhile, List.reverse_append, reversed, List.reverse_reverse]

end Text

namespace Segments

/-- A gap at the end has no class behind it. -/
theorem toText_concat_gap (gap : Text) {classes : List ClassName} {gaps : List Text}
    (paired : classes.length = gaps.length + 1) :
    toText ⟨classes, gaps ++ [gap]⟩ = toText ⟨classes, gaps⟩ ++ gap := by
  simp only [toText]
  induction classes generalizing gaps with
  | nil => cases paired
  | cons name classes ih =>
    cases gaps with
    | nil =>
      obtain rfl := List.length_eq_zero_iff.mp (Nat.succ.inj paired)
      simp
    | cons first gaps =>
      have later := ih (Nat.succ.inj paired)
      simp [later]

/-- The gap behind the last class, if there is one. -/
def lastGap (segments : Segments) : Text :=
  if segments.gaps.length = segments.classes.length then segments.gaps.getLast?.getD [] else []

theorem Named.lastGap_isSpace {segments : Segments} (named : segments.Named) :
    segments.lastGap.IsSpace := by
  rw [lastGap]
  split
  · cases last : segments.gaps.getLast? with
    | none => exact Text.isSpace_nil
    | some gap => exact Text.isSpace_of_isGap (named.gaps_isGap gap (List.mem_of_getLast? last))
  · exact Text.isSpace_nil

/-- The text of named segments is one that does not end with a separator, and the last gap. -/
theorem Named.exists_lastGap {segments : Segments} (named : segments.Named)
    (ne_nil : segments.classes ≠ []) :
    ∃ inner : Segments, inner.Named ∧ inner.classes = segments.classes ∧
      inner.gaps.length + 1 = inner.classes.length ∧
      segments.toText = inner.toText ++ segments.lastGap := by
  have fewer := named.length_le
  have enough := named.le_length
  have some_class := List.length_pos_iff.mpr ne_nil
  by_cases paired : segments.gaps.length = segments.classes.length
  · obtain ⟨classes, gaps⟩ := segments
    rcases List.eq_nil_or_concat' gaps with rfl | ⟨front, gap, rfl⟩
    · exact (ne_nil (List.length_eq_zero_iff.mp paired.symm)).elim
    · have frontPaired : classes.length = front.length + 1 := by simpa using paired.symm
      have frontFewer : front.length ≤ classes.length := by omega
      refine ⟨⟨classes, front⟩, ?_, rfl, frontPaired.symm, ?_⟩
      · refine woven_of_lengths named.admits_all ?_ frontFewer frontPaired.le
        exact fun other member => named.gaps_isGap other (List.mem_append_left _ member)
      · rw [toText_concat_gap gap frontPaired, lastGap, if_pos paired]
        simp
  · refine ⟨segments, named, rfl, by omega, ?_⟩
    rw [lastGap, if_neg paired, List.append_nil]

theorem Named.leadingSpace_append {segments : Segments} (named : segments.Named) {leading : Text}
    (space : leading.IsSpace) : Text.leadingSpace (leading ++ segments.toText) = leading :=
  Text.leadingSpace_append space named.startsApart_toText

theorem Named.trailingSpace_append {segments : Segments} (named : segments.Named)
    (ne_nil : segments.classes ≠ []) (leading : Text) :
    Text.trailingSpace (leading ++ segments.toText) = segments.lastGap := by
  obtain ⟨inner, innerNamed, sameClasses, unpaired, whole⟩ := named.exists_lastGap ne_nil
  have inner_ne_nil : inner.toText ≠ [] := innerNamed.toText_ne_nil (sameClasses ▸ ne_nil)
  have ends : Text.endsApart (leading ++ inner.toText) = false := by
    rw [Text.endsApart_append _ inner_ne_nil, innerNamed.not_endsApart (by omega)]
  rw [whole, ← List.append_assoc, Text.trailingSpace_append named.lastGap_isSpace ends]

end Segments

namespace Sorter

open Segments

section

variable {sorter : Sorter} (faithful : sorter.ranker.IsFaithful) (dropping : Bool)
include faithful

theorem rearrange_paired {segments : Segments} (separated : segments.Separated) :
    (sorter.rearrange dropping segments).gaps.length =
        (sorter.rearrange dropping segments).classes.length ↔
      segments.gaps.length = segments.classes.length := by
  have classesLength := rearrange_classes_length faithful dropping segments
  have gapsLength := rearrange_gaps_length faithful dropping separated.le_length
  omega

/-- The gap behind the last class is never dropped. -/
theorem rearrange_lastGap {segments : Segments} (separated : segments.Separated) :
    (sorter.rearrange dropping segments).lastGap = segments.lastGap := by
  have samePairing := rearrange_paired faithful dropping separated
  by_cases paired : segments.gaps.length = segments.classes.length
  · rw [lastGap, lastGap, if_pos paired, if_pos (samePairing.mpr paired)]
    obtain ⟨classes, gaps⟩ := segments
    rcases List.eq_nil_or_concat' gaps with rfl | ⟨front, gap, rfl⟩
    · rfl
    · have stays : (sorter.arrangement dropping classes).removed.contains
          (0 + front.length + 1) = false := by
        rw [← Bool.not_eq_true, List.contains_iff_mem]
        intro member
        have bounds := Arrangement.ofClasses_bounds _ _ _ _ member
        rw [ranker_length faithful, ← paired, List.length_append, List.length_singleton] at bounds
        omega
      simp only [rearrange]
      rw [dropGaps_concat, stays]
      simp
  · rw [lastGap, lastGap, if_neg paired, if_neg (fun same => paired (samePairing.mp same))]

end

theorem sortCut_verbatim (sorter : Sorter) {treatment : Treatment}
    (first : treatment.keepFirst = false) (last : treatment.keepLast = false)
    (verbatim : sorter.spacing treatment = .verbatim) (text : Text) :
    sorter.sortCut treatment text =
      (sorter.rearrange treatment.dropCopies (ofText text)).toText := by
  have unbroken : sorter.breaksLong treatment = false := by
    simp [breaksLong, verbatim, Spacing.isCollapsed]
  rw [sortCut, sorter.sortSegments_plain first last, sorter.layOut_of_unbroken unbroken, verbatim]
  rfl

end Sorter

namespace Ranking

open Segments

variable {ranking : Ranking} (unnamed : ranking.rank [] = none) (options : Options)
include unnamed

/-- Rearranging keeps the space at either end. -/
theorem rearrange_edges (dropping : Bool) {text : Text} (named : text.words ≠ []) :
    Text.leadingSpace ((ranking.sorter options).rearrange dropping (ofText text)).toText =
        text.leadingSpace ∧
      Text.trailingSpace ((ranking.sorter options).rearrange dropping (ofText text)).toText =
        text.trailingSpace := by
  have faithful := ranking.sorter_faithful options
  obtain ⟨segments, regular, rfl⟩ := exists_regular text
  obtain ⟨leading, inner, space, innerNamed, rfl⟩ := regular.exists_indent
  have some_class : inner.classes ≠ [] := by
    rwa [innerNamed.words_indent space] at named
  have rearranged : Named ((ranking.sorter options).rearrange dropping inner) :=
    Sorter.rearrange_woven faithful dropping innerNamed
  rw [regular.ofText_toText, rearrange_indent options dropping unnamed, toText_indent,
    toText_indent]
  constructor
  · rw [rearranged.leadingSpace_append space, innerNamed.leadingSpace_append space]
  · rw [rearranged.trailingSpace_append (Sorter.rearrange_ne_nil faithful dropping some_class),
      innerNamed.trailingSpace_append some_class,
      Sorter.rearrange_lastGap faithful dropping innerNamed.separated]

/-- With the spacing verbatim, the result has the arranged classes, and the gaps of the attribute
without those that stood at the removed positions. -/
theorem ofText_sort_verbatim {treatment : Treatment} {text : Text} (ne_nil : text ≠ [])
    (notGap : text.isGap = false) (literal : text.isTemplate = false)
    (first : treatment.keepFirst = false) (last : treatment.keepLast = false)
    (verbatim : options.preserveSpacing = true ∨ treatment.spacing = .verbatim) :
    let sorter := ranking.sorter options
    let original := ofText text
    let arranged := sorter.arrangement treatment.dropCopies original.classes
    ofText (sorter.sort treatment text) =
        ⟨arranged.classes, (original.gaps.zipIdx.filter fun slot =>
          !arranged.removed.contains (slot.2 + 1)).map (·.1)⟩ ∧
      (ofText (sorter.sort treatment text)).gaps.length + arranged.removed.length =
        original.gaps.length ∧
      (sorter.sort treatment text).leadingSpace = text.leadingSpace ∧
      (sorter.sort treatment text).trailingSpace = text.trailingSpace := by
  intro sorter original arranged
  have named := Text.words_ne_nil ne_nil notGap
  have inForce : sorter.spacing treatment = .verbatim := by
    rcases verbatim with preserved | asked
    · exact if_pos preserved
    · rw [Sorter.spacing, asked, ite_self]
  have regular := ofText_regular text
  have sorted : sorter.sort treatment text =
      (sorter.rearrange treatment.dropCopies original).toText := by
    rw [sorter.sort_of_words treatment literal named,
      sorter.sortCut_verbatim first last inForce]
  have recut : ofText (sorter.sort treatment text) =
      sorter.rearrange treatment.dropCopies original := by
    rw [sorted, (rearrange_regular options treatment.dropCopies unnamed regular).ofText_toText]
  refine ⟨?_, ?_, ?_⟩
  · rw [recut, Sorter.rearrange, dropGaps_eq_filter]
  · rw [recut]
    exact Sorter.rearrange_gaps_length (ranking.sorter_faithful options) treatment.dropCopies
      regular.separated.le_length
  · rw [sorted]
    exact rearrange_edges unnamed options treatment.dropCopies named

omit unnamed in
/-- The copy in third place goes with the gap in front of it; the others stay where they are. -/
theorem ofText_sort_verbatim_letters :
    let text := ['\t', 'b', ' ', ' ', 'b', '\n', 'a', ' ']
    let sorted := (CanonicalOrder.letters.ranking.sorter {}).sort { spacing := .verbatim } text
    ofText sorted = ⟨[[], ['a'], ['b']], [['\t'], [' ', ' '], [' ']]⟩ ∧
      Text.leadingSpace sorted = ['\t'] ∧ Text.trailingSpace sorted = [' '] := by
  intro text sorted
  obtain ⟨cut, -, leading, trailing⟩ := @ofText_sort_verbatim CanonicalOrder.letters.ranking
    CanonicalOrder.letters_unnamed {} { spacing := .verbatim } text (by decide) (by decide)
    (by decide) rfl rfl (.inr rfl)
  exact ⟨cut.trans (by decide +kernel), leading.trans (by decide), trailing.trans (by decide)⟩

end Ranking

namespace Segments

/-! ## Collapsed spacing -/

/-- Collapsed segments are laid out on one line, with a space behind if there is a last gap. -/
theorem Named.toText_collapse {segments : Segments} (named : segments.Named)
    (ne_nil : segments.classes ≠ []) :
    segments.collapse.toText = Text.intercalate ' ' segments.classes ++
      if segments.gaps.length = segments.classes.length then [' '] else [] := by
  obtain ⟨classes, gaps⟩ := segments
  have some_class : 0 < classes.length := List.length_pos_iff.mpr ne_nil
  have fewer : gaps.length ≤ classes.length := named.length_le
  have enough : classes.length ≤ gaps.length + 1 := named.le_length
  have spaces : (collapse ⟨classes, gaps⟩).gaps = List.replicate gaps.length [' '] := by
    simp [collapse]
  rw [← toText_spacedOut]
  by_cases paired : gaps.length = classes.length
  · have one_more : gaps.length = classes.length - 1 + 1 := by omega
    rw [one_more, List.replicate_succ'] at spaces
    have onePaired : classes.length = (List.replicate (classes.length - 1) [' ']).length + 1 := by
      rw [List.length_replicate]
      omega
    have joined := toText_concat_gap [' '] onePaired
    rw [← spaces] at joined
    rw [if_pos paired]
    exact joined
  · have one_less : gaps.length = classes.length - 1 := by omega
    rw [one_less] at spaces
    rw [if_neg paired, List.append_nil, toText, spaces]
    rfl

theorem collapse_indent (leading : Text) (segments : Segments) :
    (segments.indent leading).collapse =
      segments.collapse.indent (if leading.isEmpty then [] else [' ']) := by
  cases leading <;> rfl

end Segments

namespace Ranking

open Segments

variable {ranking : Ranking} (unnamed : ranking.rank [] = none) (options : Options)
include unnamed

/-- With the spacing collapsed and no lines, the arranged words are put on one line, with a space at
either end where the text has some, and the ends of that are trimmed. -/
theorem sortCut_eq_trimEnds {treatment : Treatment} {text : Text} {dropStart dropEnd : Bool}
    (named : text.words ≠ []) (first : treatment.keepFirst = false)
    (last : treatment.keepLast = false)
    (inForce : (ranking.sorter options).spacing treatment = .collapsed dropStart dropEnd)
    (flat : (ranking.sorter options).breaksLines treatment
      ((ranking.sorter options).arrangement treatment.dropCopies (ofText text).classes).classes =
        false) :
    (ranking.sorter options).sortCut treatment text =
      Text.trimEnds dropStart dropEnd (Text.newEdge text.startsApart false ++
        (Text.intercalate ' '
            ((ranking.sorter options).arrangement treatment.dropCopies text.words).classes ++
          Text.newEdge text.endsApart false)) := by
  have faithful := ranking.sorter_faithful options
  obtain ⟨segments, regular, rfl⟩ := exists_regular text
  obtain ⟨leading, inner, space, innerNamed, rfl⟩ := regular.exists_indent
  rw [innerNamed.words_indent space] at named ⊢
  rw [regular.ofText_toText] at flat
  have arranged : Named ((ranking.sorter options).rearrange treatment.dropCopies inner) :=
    Sorter.rearrange_woven faithful treatment.dropCopies innerNamed
  have some_class := Sorter.rearrange_ne_nil faithful treatment.dropCopies named
  have spaced : Spacing.space (.collapsed dropStart dropEnd) (inner.indent leading) =
      (inner.indent leading).collapse := rfl
  have sameClasses : (inner.indent leading).collapse.classes = (inner.indent leading).classes := rfl
  have layout : (ranking.sorter options).sortCut treatment (inner.indent leading).toText =
      Text.trimEnds dropStart dropEnd
        ((if leading.isEmpty then [] else [' ']) ++
          ((ranking.sorter options).rearrange treatment.dropCopies inner).collapse.toText) := by
    rw [Sorter.sortCut, regular.ofText_toText, Sorter.sortSegments_plain _ first last, inForce,
      spaced, Sorter.layOut, sameClasses, flat, inForce, collapse_indent,
      rearrange_indent options treatment.dropCopies unnamed, Sorter.rearrange_collapse,
      ← toText_indent]
    rfl
  have ends := innerNamed.endsApart_indent named leading
  rw [← Sorter.rearrange_paired faithful treatment.dropCopies innerNamed.separated] at ends
  rw [layout, arranged.toText_collapse some_class, innerNamed.startsApart_indent space]
  simp only [Text.newEdge, ends]
  cases leading <;> rfl

/-- Where all blanks separate, the result can be told from the words. -/
theorem sortCut_collapsed {treatment : Treatment} {text : Text} {dropStart dropEnd : Bool}
    (named : text.words ≠ []) (separate : text.BlanksSeparate)
    (first : treatment.keepFirst = false) (last : treatment.keepLast = false)
    (inForce : (ranking.sorter options).spacing treatment = .collapsed dropStart dropEnd)
    (flat : (ranking.sorter options).breaksLines treatment
      ((ranking.sorter options).arrangement treatment.dropCopies (ofText text).classes).classes =
        false) :
    (ranking.sorter options).sortCut treatment text =
      Text.newEdge text.startsApart dropStart ++
        (Text.intercalate ' '
            ((ranking.sorter options).arrangement treatment.dropCopies text.words).classes ++
          Text.newEdge text.endsApart dropEnd) := by
  have some_class := arrangement_ne_nil ranking options treatment.dropCopies named
  have areWords := arrangement_isWord ranking options treatment.dropCopies text
  have coreSeparate := blanksSeparate_intercalate areWords
    fun name member => separate.of_mem_words (ranking.mem_of_mem_arrangement options _ member)
  obtain ⟨starts, ends⟩ := intercalate_edges areWords some_class
  rw [sortCut_eq_trimEnds unnamed options named first last inForce flat]
  exact Text.trimEnds_newEdge dropStart dropEnd text.startsApart text.endsApart
    (intercalate_ne_nil areWords some_class) (coreSeparate.startsBlank_eq.trans starts)
    (coreSeparate.endsBlank_eq.trans ends)

/-- With the spacing collapsed and lines off, the result is the arranged words with a space between
each two, and a space at either end where the attribute has one that is not dropped. -/
theorem sort_collapsed_eq {treatment : Treatment} {text : Text} {dropStart dropEnd : Bool}
    (ne_nil : text ≠ []) (notGap : text.isGap = false) (literal : text.isTemplate = false)
    (separate : text.BlanksSeparate) (first : treatment.keepFirst = false)
    (last : treatment.keepLast = false) (free : options.preserveSpacing = false)
    (collapsed : treatment.spacing = .collapsed dropStart dropEnd)
    (oneLine : options.multiline = false) :
    (ranking.sorter options).sort treatment text =
      (if text.startsApart && !dropStart then [' '] else []) ++
        Text.intercalate ' '
          ((ranking.sorter options).arrangement treatment.dropCopies text.words).classes ++
        (if text.endsApart && !dropEnd then [' '] else []) := by
  have named := Text.words_ne_nil ne_nil notGap
  have inForce : (ranking.sorter options).spacing treatment = .collapsed dropStart dropEnd := by
    rw [Sorter.spacing, collapsed]
    exact if_neg (by simp [sorter, free])
  have flat : ∀ classes, (ranking.sorter options).breaksLines treatment classes = false := by
    intro classes
    simp [Sorter.breaksLines, Sorter.breaksLong, sorter, oneLine]
  rw [Sorter.sort_of_words _ treatment literal named, sortCut_collapsed unnamed options named
    separate first last inForce (flat _), List.append_assoc]
  cases text.startsApart <;> cases text.endsApart <;> cases dropStart <;> cases dropEnd <;> rfl

omit unnamed in
theorem sort_collapsed_eq_letters :
    (CanonicalOrder.letters.ranking.sorter {}).sort { spacing := .collapsed false true }
      ['\n', 'b', ' ', ' ', 'a', '\t', 'b', ' '] = [' ', 'a', ' ', 'b'] := by
  rw [sort_collapsed_eq CanonicalOrder.letters_unnamed {} (by decide) (by decide) (by decide)
    (by decide) rfl rfl rfl rfl rfl]
  decide +kernel

end Ranking

end ClassTidy
