import ClassTidy.Proofs.Attribute.Collapse
import ClassTidy.Proofs.Class.Group

/-!
# Lines against one line

Breaking an attribute into lines gives a line for each group of neighbours, and changes nothing but
which character stands between two groups.
-/

set_option autoImplicit false

namespace ClassTidy

open Segments

theorem Text.intercalate_eq_list_intercalate (separator : Char) (texts : List Text) :
    intercalate separator texts = [separator].intercalate texts := by
  induction texts with
  | nil => rfl
  | cons first rest ih =>
    cases rest with
    | nil => exact List.intercalate_singleton.symm
    | cons second later =>
      rw [intercalate_cons_cons, ih, List.intercalate_cons_cons, List.append_assoc]
      rfl

theorem Segments.map_join (f : Char → Char) (classes : List ClassName) (gaps : List Text) :
    (join classes gaps).map f = join (classes.map (·.map f)) (gaps.map (·.map f)) := by
  induction classes generalizing gaps with
  | nil => rfl
  | cons name classes ih =>
    cases gaps with
    | nil =>
      have later := ih []
      simpa using later
    | cons gap gaps => simp [ih]

theorem Segments.mem_join {c : Char} {classes : List ClassName} {gaps : List Text}
    (member : c ∈ join classes gaps) : (∃ name ∈ classes, c ∈ name) ∨ ∃ gap ∈ gaps, c ∈ gap := by
  induction classes generalizing gaps with
  | nil => cases member
  | cons name classes ih =>
    cases gaps with
    | nil =>
      rcases List.mem_append.mp member with here | later
      · exact .inl ⟨name, List.mem_cons_self, here⟩
      · rcases ih later with ⟨other, isClass, inside⟩ | ⟨gap, none, -⟩
        · exact .inl ⟨other, List.mem_cons_of_mem _ isClass, inside⟩
        · cases none
    | cons gap gaps =>
      rcases List.mem_append.mp member with here | behind
      · exact .inl ⟨name, List.mem_cons_self, here⟩
      · rcases List.mem_append.mp behind with inGap | later
        · exact .inr ⟨gap, List.mem_cons_self, inGap⟩
        · rcases ih later with ⟨other, isClass, inside⟩ | ⟨other, isGap, inside⟩
          · exact .inl ⟨other, List.mem_cons_of_mem _ isClass, inside⟩
          · exact .inr ⟨other, List.mem_cons_of_mem _ isGap, inside⟩

/-- A text on one line. -/
def Text.unbroken (text : Text) : Text := text.map fun c => if c = '\n' then ' ' else c

theorem Text.IsPlain.unbroken {text : Text} (plain : text.IsPlain) : text.unbroken = text := by
  have kept : ∀ c ∈ text, (if c = '\n' then ' ' else c) = id c := by
    intro c member
    apply if_neg
    rintro rfl
    cases plain '\n' member
  rw [Text.unbroken, List.map_congr_left kept, List.map_id]

namespace Group

theorem lineGaps_unbroken (classes : List ClassName) :
    (lineGaps classes).map Text.unbroken = List.replicate (classes.length - 1) [' '] := by
  rw [List.eq_replicate_iff, List.length_map, lineGaps_length]
  refine ⟨rfl, ?_⟩
  fun_induction lineGaps classes with
  | case1 first second rest ih =>
    refine List.forall_mem_cons.mpr ⟨?_, ih⟩
    split <;> rfl
  | case2 classes short => exact List.forall_mem_nil _

variable {classes : List ClassName} (words : ∀ name ∈ classes, name.IsWord)
include words

/-- Put on one line, the lines are the classes with a space between each two. -/
theorem lines_unbroken : (lines classes).unbroken = Text.intercalate ' ' classes := by
  have kept : ∀ name ∈ classes, name.map (fun c => if c = '\n' then ' ' else c) = id name :=
    fun name member => (words name member).plain.unbroken
  have gaps := lineGaps_unbroken classes
  rw [lines_eq_join, Text.unbroken, map_join, List.map_congr_left kept, List.map_id,
    Text.intercalate_eq_join, ← gaps]
  rfl

theorem newline_not_mem_line {group : Group} (isGroup : group ∈ ofClasses classes) :
    '\n' ∉ Text.intercalate ' ' group.classes := by
  have members : ∀ name ∈ group.classes, name.IsWord :=
    fun name member => words name ((ofClasses_divides classes).mem_of_mem isGroup member)
  rw [Text.intercalate_eq_join]
  intro found
  rcases mem_join found with ⟨name, member, inside⟩ | ⟨gap, member, inside⟩
  · cases (members name member).plain '\n' inside
  · rw [List.eq_of_mem_replicate member] at inside
    exact absurd inside (by decide)

/-- Cut at the line feeds, the lines are those of the groups. -/
theorem splitOn_lines (some_class : classes ≠ []) :
    (lines classes).splitOn '\n' =
      (ofClasses classes).map fun group => Text.intercalate ' ' group.classes := by
  have some_group : ofClasses classes ≠ [] := by
    intro none
    have whole := (ofClasses_divides classes).whole
    rw [none] at whole
    exact some_class whole.symm
  rw [lines, Text.intercalate_eq_list_intercalate]
  apply List.splitOn_intercalate
  · intro line member
    obtain ⟨group, isGroup, rfl⟩ := List.mem_map.mp member
    exact newline_not_mem_line words isGroup
  · simpa using some_group

end Group

theorem Sorter.sortCut_eq_unbroken (sorter : Sorter) {treatment : Treatment} {text : Text}
    (first : treatment.keepFirst = false) (last : treatment.keepLast = false)
    (flat : sorter.breaksLines treatment
      (sorter.arrangement treatment.dropCopies (ofText text).classes).classes = false) :
    sorter.sortCut treatment text = sorter.unbroken.sortCut treatment text := by
  have sameSpacing : sorter.unbroken.spacing treatment = sorter.spacing treatment := rfl
  have sameClasses := (sorter.spacing treatment).space_classes (ofText text)
  rw [sortCut, sortCut, sorter.sortSegments_plain first last,
    sorter.unbroken.sortSegments_plain first last, sorter.unbroken.layOut_of_unbroken rfl,
    sameSpacing, layOut, sameClasses, flat]
  rfl

namespace Ranking

/-! ## The empty name -/

/-- The same ranks, but the empty name has none. -/
def unname (ranking : Ranking) : Ranking where
  rank name := if name.isEmpty then none else ranking.rank name
  numeric := by
    intro name number ranked
    split at ranked
    · cases ranked
    · exact ranking.numeric ranked

theorem arrangement_unname (ranking : Ranking) (options : Options) (dropping : Bool)
    {classes : List ClassName} (words : ∀ name ∈ classes, name.IsWord) :
    (ranking.unname.sorter options).arrangement dropping classes =
      (ranking.sorter options).arrangement dropping classes := by
  have sameRanks : (ranking.unname.sorter options).ranker classes =
      (ranking.sorter options).ranker classes := by
    apply List.map_congr_left
    intro name member
    simp [ranked, unname, (words name member).ne_nil]
  rw [Sorter.arrangement, Sorter.arrangement, Arrangement.ofClasses, Arrangement.ofClasses, arrange,
    arrange, sameRanks]
  rfl

/-- A text that does not start with a separator has no empty class to be ranked. -/
theorem sortCut_unname (ranking : Ranking) (options : Options) {treatment : Treatment} {text : Text}
    (starts : text.startsApart = false) (first : treatment.keepFirst = false)
    (last : treatment.keepLast = false) :
    (ranking.unname.sorter options).sortCut treatment text =
      (ranking.sorter options).sortCut treatment text := by
  have sameSpacing : (ranking.unname.sorter options).spacing treatment =
      (ranking.sorter options).spacing treatment := rfl
  have arranged := ranking.arrangement_unname options treatment.dropCopies
    (ofText_named starts).admits_all
  rw [← ((ranking.sorter options).spacing treatment).space_classes (ofText text)] at arranged
  rw [Sorter.sortCut, Sorter.sortCut, Sorter.sortSegments_plain _ first last,
    Sorter.sortSegments_plain _ first last, Sorter.layOut, Sorter.layOut, Sorter.rearrange,
    Sorter.rearrange, sameSpacing, arranged]
  rfl

theorem sort_oneLine (ranking : Ranking) (options : Options) {treatment : Treatment} {text : Text}
    (named : text.words ≠ []) (starts : text.startsApart = false) (literal : text.isTemplate = false)
    (separate : text.BlanksSeparate) (first : treatment.keepFirst = false)
    (last : treatment.keepLast = false) (free : options.preserveSpacing = false) :
    (ranking.sorter options).unbroken.sort { treatment with spacing := .collapsed true true } text =
      Text.intercalate ' '
        ((ranking.sorter options).arrangement treatment.dropCopies text.words).classes := by
  have unnamed : (ranking.unname.sorter { options with multiline := false }).sort
      { treatment with spacing := .collapsed true true } text =
        Text.intercalate ' ' ((ranking.unname.sorter { options with multiline := false }).arrangement
          treatment.dropCopies text.words).classes :=
    @sort_collapsed_ends_of_few { options with multiline := false }
      { treatment with spacing := .collapsed true true } first last free rfl ranking.unname rfl
      text named literal separate fun broken => Bool.false_ne_true broken.1
  rw [Sorter.sort_of_words _ _ literal named,
    @sortCut_unname ranking _ { treatment with spacing := .collapsed true true } text starts first
      last,
    ranking.arrangement_unname _ _ fun _ => Text.isWord_of_mem_words] at unnamed
  rw [Sorter.sort_of_words _ _ literal named]
  exact unnamed

/-! ## The result -/

/-- With enough classes the result has a line for each group of neighbours, and put on one line it is
the result without lines. With fewer it is that result as it stands. -/
theorem sort_multiline_refines (ranking : Ranking) {options : Options} {treatment : Treatment}
    {text : Text} {dropStart dropEnd : Bool}
    (ne_nil : text ≠ []) (starts : text.startsApart = false) (literal : text.isTemplate = false)
    (separate : text.BlanksSeparate) (first : treatment.keepFirst = false)
    (last : treatment.keepLast = false) (free : options.preserveSpacing = false)
    (collapsed : treatment.spacing = .collapsed dropStart dropEnd)
    (multiline : options.multiline = true) :
    let sorter := ranking.sorter options
    let sorted := sorter.sort treatment text
    let classes := (sorter.arrangement treatment.dropCopies (ofText text).classes).classes
    let groups := Group.ofClasses classes
    (options.multilineLeast ≤ (classes.length : Int) →
      Group.Divides groups classes ∧
        sorted.splitOn '\n' = groups.map (fun group => Text.intercalate ' ' group.classes) ∧
        (∀ line ∈ sorted.splitOn '\n', line ≠ []) ∧
        sorted.unbroken =
          sorter.unbroken.sort { treatment with spacing := .collapsed true true } text) ∧
      ((classes.length : Int) < options.multilineLeast →
        sorted = sorter.unbroken.sort treatment text) := by
  intro sorter sorted classes groups
  have named := Text.words_ne_nil_of_startsApart ne_nil starts
  have wordClasses : (ofText text).classes = text.words := by
    rw [classes_ofText, if_neg (by simp [starts])]
  have areWords : ∀ name ∈ classes, name.IsWord := by
    simp only [classes, wordClasses]
    exact arrangement_isWord ranking options treatment.dropCopies text
  have some_class : classes ≠ [] := by
    simp only [classes, wordClasses]
    exact arrangement_ne_nil ranking options treatment.dropCopies named
  have long := breaksLines_iff first last free collapsed ranking classes
  have sortedCut : sorted = sorter.sortCut treatment text :=
    sorter.sort_of_words treatment literal named
  constructor
  · intro enough
    have divides : Group.Divides groups classes := Group.ofClasses_divides classes
    have lines : sorted = Group.lines classes :=
      sortedCut.trans (sortCut_lines options first last (long.mpr ⟨multiline, enough⟩))
    have cut : sorted.splitOn '\n' =
        groups.map fun group => Text.intercalate ' ' group.classes := by
      rw [lines]
      exact Group.splitOn_lines areWords some_class
    refine ⟨divides, cut, ?_, ?_⟩
    · rw [cut]
      intro line member
      obtain ⟨group, isGroup, rfl⟩ := List.mem_map.mp member
      exact intercalate_ne_nil (fun name inside => areWords name (divides.mem_of_mem isGroup inside))
        (divides.some_class group isGroup)
    · have oneLine := ranking.sort_oneLine options named starts literal separate first last free
      rw [lines, Group.lines_unbroken areWords]
      simp only [classes, wordClasses]
      exact oneLine.symm
  · intro few
    have flat : sorter.breaksLines treatment classes = false := by
      rw [← Bool.not_eq_true, long]
      exact fun broken => few.not_ge broken.2
    rw [sortedCut, sorter.sortCut_eq_unbroken first last flat]
    exact (sorter.unbroken.sort_of_words treatment literal named).symm

/-- A copy is dropped, and four classes are left. -/
theorem sort_multiline_refines_letters :
    let sorter := CanonicalOrder.letters.ranking.sorter { multiline := true, multilineLeast := 4 }
    let text : Text := ['w', '-', '1', ' ', 'b', '\t', 'p', '-', '2', ' ', 'a', ' ', 'b']
    (sorter.sort {} text).splitOn '\n' = [['w', '-', '1'], ['p', '-', '2'], ['a', ' ', 'b']] ∧
      (sorter.sort {} text).unbroken = sorter.unbroken.sort {} text := by
  intro sorter text
  obtain ⟨-, cut, -, oneLine⟩ := (@sort_multiline_refines CanonicalOrder.letters.ranking
    { multiline := true, multilineLeast := 4 } {} text true true
    (by decide) (by decide) (by decide) (by decide) rfl rfl rfl rfl rfl).1 (by decide +kernel)
  exact ⟨cut.trans (by decide +kernel), oneLine⟩

end Ranking

end ClassTidy
