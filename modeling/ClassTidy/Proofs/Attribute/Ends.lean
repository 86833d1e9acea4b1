import ClassTidy.Proofs.Attribute.Parts
import ClassTidy.Proofs.Class.Order

/-!
# The classes at the ends

A class that is kept at the back stays the last one, however the attribute is spaced. A class that
is kept in front stays the first one of an attribute that starts with it. In front of a first gap
there is an empty class, and that is kept in its place: the first class behind it is sorted with
the others, and stays first only if none of them precedes it.
-/

set_option autoImplicit false

namespace ClassTidy

open Segments

theorem Text.words_eq_filter_classes (text : Text) :
    text.words = (ofText text).classes.filter fun name => !name.isEmpty := by
  rw [← (ofText_regular text).separated.words_toText, toText_ofText]

theorem Text.filter_words {text : Text} {names : List ClassName} (some_words : names ⊆ text.words) :
    names.filter (fun name => !name.isEmpty) = names := by
  apply List.filter_eq_self.mpr
  intro name member
  simpa using (Text.isWord_of_mem_words (some_words member)).ne_nil

/-- The last class of an attribute that has words is no empty one. -/
theorem Segments.mem_words_of_getLast? {text : Text} (named : text.words ≠ []) {name : ClassName}
    (isLast : (ofText text).classes.getLast? = some name) : name ∈ text.words := by
  rw [classes_ofText] at isLast
  split at isLast
  · obtain ⟨first, others, words⟩ := List.exists_cons_of_ne_nil named
    rw [words, List.getLast?_cons_cons, ← words] at isLast
    exact List.mem_of_getLast? isLast
  · exact List.mem_of_getLast? isLast

namespace Sorter

variable {sorter : Sorter} (faithful : sorter.ranker.IsFaithful) {treatment : Treatment}
  {text : Text} (literal : text.isTemplate = false) (separate : text.BlanksSeparate)
  (named : text.words ≠ [])
include faithful literal separate named

theorem words_sort :
    (sorter.sort treatment text).words =
      ((ofText text).front treatment.keepFirst ++
        ((sorter.arrangement treatment.dropCopies
            ((ofText text).middle treatment.keepFirst treatment.keepLast).classes).classes ++
          (ofText text).back treatment.keepFirst treatment.keepLast)).filter
        fun name => !name.isEmpty := by
  have whole : text = (ofText text).toText := (toText_ofText text).symm
  have classesSeparate := blanksSeparate_of_join (whole ▸ separate)
  rw [sorter.sort_of_words treatment literal named]
  exact words_sortSegments faithful (ofText_regular text).separated fun _ => classesSeparate

theorem getLast?_words_sort (last : treatment.keepLast = true) :
    (sorter.sort treatment text).words.getLast? = text.words.getLast? := by
  have parts := (ofText text).parts_append treatment.keepFirst treatment.keepLast
  have rest := (ofText text).cutLast_append_back treatment.keepFirst treatment.keepLast
  have result := @words_sort sorter faithful treatment text literal separate named
  have words := text.words_eq_filter_classes
  rw [← parts] at words
  rw [last] at rest result words
  rw [Segments.back, if_pos rfl] at rest result words
  rcases List.eq_nil_or_concat' (cutFirst treatment.keepFirst (ofText text)).2.classes with
    none | ⟨others, name, some_class⟩
  · rw [none] at rest result words
    obtain ⟨noMiddle, -⟩ := List.append_eq_nil_iff.mp rest
    rw [noMiddle, arrangement_nil faithful] at result
    rw [noMiddle] at words
    rw [result, words]
  · rw [some_class, List.getLast?_concat, Option.toList_some] at result words
    have isWord : (!name.isEmpty) = true := by
      have isLast : (ofText text).classes.getLast? = some name := by
        rw [← front_append_cutFirst treatment.keepFirst (ofText text), some_class,
          ← List.append_assoc, List.getLast?_concat]
      simpa using (Text.isWord_of_mem_words (mem_words_of_getLast? named isLast)).ne_nil
    rw [result, words, List.filter_append, List.filter_append, List.filter_append,
      List.filter_append, List.filter_singleton, isWord]
    simp

theorem head?_words_sort (first : treatment.keepFirst = true) (starts : text.startsApart = false) :
    (sorter.sort treatment text).words.head? = text.words.head? := by
  obtain ⟨name, others, words⟩ := List.exists_cons_of_ne_nil named
  have isWord : (!name.isEmpty) = true := by
    have member : name ∈ text.words := words ▸ List.mem_cons_self
    simpa using (Text.isWord_of_mem_words member).ne_nil
  have kept : (ofText text).front true = [name] := by
    rw [Segments.front, if_pos rfl, classes_ofText, starts, if_neg Bool.false_ne_true, words]
    rfl
  rw [words_sort faithful literal separate named, first, kept, words, List.singleton_append,
    List.filter_cons, isWord]
  rfl

/-- Behind a first gap all words but a last one that is kept are sorted. -/
theorem words_sort_indented (first : treatment.keepFirst = true)
    (starts : text.startsApart = true) :
    (sorter.sort treatment text).words =
      (sorter.arrangement treatment.dropCopies
          (if treatment.keepLast then text.words.dropLast else text.words)).classes ++
        if treatment.keepLast then text.words.getLast?.toList else [] := by
  have classes : (ofText text).classes = [] :: text.words := by rw [classes_ofText, if_pos starts]
  have kept : (ofText text).front true = [[]] := by
    rw [Segments.front, if_pos rfl, classes]
    rfl
  have rest : (cutFirst true (ofText text)).2.classes = text.words := by
    rw [cutFirst, if_pos rfl, takeFirst, classes]
    rfl
  have middle : ((ofText text).middle true treatment.keepLast).classes =
      if treatment.keepLast then text.words.dropLast else text.words := by
    rw [Segments.middle, ← rest]
    cases treatment.keepLast <;> rfl
  have back : (ofText text).back true treatment.keepLast =
      if treatment.keepLast then text.words.getLast?.toList else [] := by
    rw [Segments.back, rest]
  have result := @words_sort sorter faithful treatment text literal separate named
  rw [first, kept, middle, back, List.singleton_append, List.filter_cons_of_neg (by simp)] at result
  rw [result]
  refine @Text.filter_words text _ (List.append_subset.mpr ⟨fun name member => ?_, ?_⟩)
  · have sorted := (faithful _).subset (Arrangement.mem_of_mem_ofClasses _ _ _ member)
    split at sorted
    · exact List.dropLast_subset _ sorted
    · exact sorted
  · split
    · intro name member
      exact List.mem_of_getLast? (Option.mem_toList.mp member)
    · exact List.nil_subset _

end Sorter

namespace Ranking

variable (ranking : Ranking) (options : Options) {treatment : Treatment} {text : Text}

theorem head?_words_sort_indented_iff (literal : text.isTemplate = false)
    (separate : text.BlanksSeparate) {name : ClassName} {others : List ClassName}
    (words : text.words = name :: others) (first : treatment.keepFirst = true)
    (starts : text.startsApart = true) :
    ((ranking.sorter options).sort treatment text).words.head? = some name ↔
      ∀ other ∈ if treatment.keepLast then others.dropLast else others,
        (ranking.ranked other).precedes (ranking.ranked name) = false := by
  have faithful := ranking.sorter_faithful options
  have named : text.words ≠ [] := words ▸ List.cons_ne_nil _ _
  rw [Sorter.words_sort_indented faithful literal separate named first starts, words]
  have sorted (classes : List ClassName) :
      ((ranking.sorter options).arrangement treatment.dropCopies
          (name :: classes)).classes.head? = some name ↔
        ∀ other ∈ classes, (ranking.ranked other).precedes (ranking.ranked name) = false :=
    ranking.head?_ofClasses_iff _ name classes
  cases treatment.keepLast with
  | false => simpa using sorted others
  | true =>
    rcases List.eq_nil_or_concat' others with rfl | ⟨between, last, rfl⟩
    · have nothing := Sorter.arrangement_nil faithful treatment.dropCopies
      simp [nothing]
    · have some_class := ranking.arrangement_ne_nil options treatment.dropCopies
        (List.cons_ne_nil name between)
      have middle : (name :: (between ++ [last])).dropLast = name :: between := by
        rw [← List.cons_append, List.dropLast_concat]
      simp only [if_true, middle, List.dropLast_concat]
      rw [List.head?_append_of_ne_nil _ some_class]
      exact sorted between

/-- A class that is kept at the back is the last one of the result. A first class that is kept is
the first one of the result just when the attribute starts with it, or no other class that is sorted
precedes it. -/
theorem sort_keeps_ends (literal : text.isTemplate = false) (separate : text.BlanksSeparate)
    (named : text.words ≠ []) :
    let sorted := ((ranking.sorter options).sort treatment text).words
    let others := if treatment.keepLast then text.words.tail.dropLast else text.words.tail
    (treatment.keepLast = true → sorted.getLast? = text.words.getLast?) ∧
      (treatment.keepFirst = true →
        (sorted.head? = text.words.head? ↔
          text.startsApart = false ∨ ∀ first ∈ text.words.head?, ∀ other ∈ others,
            (ranking.ranked other).precedes (ranking.ranked first) = false)) := by
  intro sorted others
  have faithful := ranking.sorter_faithful options
  refine ⟨Sorter.getLast?_words_sort faithful literal separate named, fun first => ?_⟩
  cases starts : text.startsApart with
  | false =>
    have stays := Sorter.head?_words_sort faithful literal separate named first starts
    exact iff_of_true stays (.inl rfl)
  | true =>
    obtain ⟨name, rest, words⟩ := List.exists_cons_of_ne_nil named
    have indented := ranking.head?_words_sort_indented_iff options literal separate words first starts
    simpa [sorted, others, words] using indented

/-- A copy between the ends is dropped, and both classes at the ends stay. -/
theorem sort_keeps_ends_letters :
    let text : Text := ['b', '\t', 'b', ' ', ' ', 'a', ' ', 'b', '\n', 'a', ' ']
    let sorted := ((CanonicalOrder.letters.ranking.sorter {}).sort
      { keepFirst := true, keepLast := true } text).words
    sorted = [['b'], ['a'], ['b'], ['a']] ∧ sorted.getLast? = some ['a'] ∧
      sorted.head? = some ['b'] := by
  intro text sorted
  obtain ⟨atEnd, inFront⟩ := @sort_keeps_ends CanonicalOrder.letters.ranking {}
    { keepFirst := true, keepLast := true } text (by decide) (by decide) (by decide)
  exact ⟨by decide +kernel, atEnd rfl, ((inFront rfl).mpr (.inl rfl))⟩

/-- Behind space, the empty class is the one that is kept in front. -/
theorem sort_moves_first :
    let sorter := CanonicalOrder.letters.ranking.sorter {}
    let text : Text := [' ', 'b', ' ', 'a']
    (text.isTemplate = false ∧ text.BlanksSeparate ∧
        CanonicalOrder.letters.ranking.rank [] = none) ∧
      sorter.sort { keepFirst := true } text = [' ', 'a', ' ', 'b'] ∧
      (sorter.sort { keepFirst := true } text).words.head? ≠ text.words.head? := by
  decide +kernel

end Ranking

end ClassTidy
