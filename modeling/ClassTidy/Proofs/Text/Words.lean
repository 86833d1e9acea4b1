import ClassTidy.Attribute.Segments
import ClassTidy.Text.Blank
import Mathlib.Data.List.Induction

/-!
# Words

The words of a text are its longest stretches without separators. How much space stands around and
between them makes no difference to them.
-/

set_option autoImplicit false

namespace ClassTidy.Text

/-- The longest stretches of a text without separators, in order. -/
def words (text : Text) : List ClassName :=
  (text.splitOnP isSeparator).filter fun stretch => !stretch.isEmpty

def IsPlain (text : Text) : Prop := ∀ c ∈ text, isSeparator c = false

instance (text : Text) : Decidable text.IsPlain :=
  List.decidableBAll (fun c => isSeparator c = false) text

def IsSpace (text : Text) : Prop := ∀ c ∈ text, isSeparator c = true

/-- A class as it stands in an attribute: not empty, and without separators. -/
structure IsWord (text : Text) : Prop where
  ne_nil : text ≠ []
  plain : text.IsPlain

/-- Whether a separator is the first character of a text. -/
def startsApart (text : Text) : Bool := text.head?.any isSeparator

def endsApart (text : Text) : Bool := text.getLast?.any isSeparator

/-! ## Spaces and gaps -/

theorem isPlain_nil : IsPlain [] := List.forall_mem_nil _

theorem isSpace_nil : IsSpace [] := List.forall_mem_nil _

theorem isGap_iff {text : Text} : text.isGap = true ↔ text ≠ [] ∧ text.IsSpace := by
  simp [isGap, IsSpace]

theorem isSpace_of_isGap {text : Text} (gap : text.isGap = true) : text.IsSpace :=
  (isGap_iff.mp gap).2

theorem isGap_singleton {c : Char} (separates : isSeparator c = true) : isGap [c] = true := by
  simp [isGap, separates]

theorem isGap_cons {c : Char} {text : Text} (separates : isSeparator c = true)
    (gap : text.isGap = true) : isGap (c :: text) = true :=
  isGap_iff.mpr ⟨List.cons_ne_nil _ _, List.forall_mem_cons.mpr ⟨separates, isSpace_of_isGap gap⟩⟩

theorem isWord_singleton {c : Char} (letter : isSeparator c = false) : IsWord [c] :=
  ⟨List.cons_ne_nil _ _, fun d member => by rwa [List.mem_singleton.mp member]⟩

theorem IsWord.cons {c : Char} {text : Text} (word : text.IsWord)
    (letter : isSeparator c = false) : IsWord (c :: text) :=
  ⟨List.cons_ne_nil _ _, List.forall_mem_cons.mpr ⟨letter, word.plain⟩⟩

theorem eq_nil_of_isSpace {text : Text} (space : text.IsSpace) (starts : text.startsApart = false) :
    text = [] := by
  cases text with
  | nil => rfl
  | cons c rest =>
    have separates : isSeparator c = false := starts
    rw [space c List.mem_cons_self] at separates
    cases separates

theorem isSpace_append {front back : Text} :
    IsSpace (front ++ back) ↔ front.IsSpace ∧ back.IsSpace :=
  List.forall_mem_append

/-! ## First and last characters -/

@[simp] theorem startsApart_nil : startsApart [] = false := rfl

@[simp] theorem startsApart_cons (c : Char) (text : Text) :
    startsApart (c :: text) = isSeparator c := rfl

@[simp] theorem endsApart_nil : endsApart [] = false := rfl

@[simp] theorem endsApart_concat (text : Text) (c : Char) :
    endsApart (text ++ [c]) = isSeparator c := by
  simp [endsApart]

theorem startsApart_append {front : Text} (back : Text) (ne_nil : front ≠ []) :
    startsApart (front ++ back) = front.startsApart := by
  cases front with
  | nil => exact (ne_nil rfl).elim
  | cons c rest => rfl

theorem endsApart_append (front : Text) {back : Text} (ne_nil : back ≠ []) :
    endsApart (front ++ back) = back.endsApart := by
  cases back using List.reverseRecOn with
  | nil => exact (ne_nil rfl).elim
  | append_singleton rest c => rw [← List.append_assoc, endsApart_concat, endsApart_concat]

theorem startsApart_reverse (text : Text) : startsApart text.reverse = text.endsApart := by
  rw [startsApart, List.head?_reverse]
  rfl

theorem startsApart_space_append {space rest : Text} (isSpace : space.IsSpace)
    (starts : rest.startsApart = false) : startsApart (space ++ rest) = !space.isEmpty := by
  cases space with
  | nil => exact starts
  | cons c later => exact isSpace c List.mem_cons_self

theorem endsApart_append_space {rest space : Text} (isSpace : space.IsSpace)
    (ends : rest.endsApart = false) : endsApart (rest ++ space) = !space.isEmpty := by
  cases space using List.reverseRecOn with
  | nil => simpa using ends
  | append_singleton later c =>
    have separates : isSeparator c = true := isSpace c (by simp)
    rw [← List.append_assoc, endsApart_concat, separates]
    cases later <;> rfl

theorem IsPlain.startsApart {text : Text} (plain : text.IsPlain) : text.startsApart = false := by
  cases text with
  | nil => rfl
  | cons c rest => exact plain c List.mem_cons_self

theorem IsPlain.endsApart {text : Text} (plain : text.IsPlain) : text.endsApart = false := by
  cases text using List.reverseRecOn with
  | nil => rfl
  | append_singleton rest c => simpa using plain c (by simp)

theorem startsApart_of_isGap {text : Text} (gap : text.isGap = true) :
    text.startsApart = true := by
  obtain ⟨ne_nil, space⟩ := isGap_iff.mp gap
  cases text with
  | nil => exact (ne_nil rfl).elim
  | cons c rest => exact space c List.mem_cons_self

theorem endsApart_of_isGap {text : Text} (gap : text.isGap = true) : text.endsApart = true := by
  obtain ⟨ne_nil, space⟩ := isGap_iff.mp gap
  cases text using List.reverseRecOn with
  | nil => exact (ne_nil rfl).elim
  | append_singleton rest c => simpa using space c (by simp)

/-! ## Words -/

@[simp] theorem words_nil : words [] = [] := by
  simp [words]

theorem words_append_separator (front back : Text) {c : Char} (separates : isSeparator c = true) :
    words (front ++ c :: back) = words front ++ words back := by
  rw [words, List.splitOnP_append_cons _ _ separates, List.filter_append]
  rfl

theorem words_of_isPlain {text : Text} (plain : text.IsPlain) :
    words text = if text.isEmpty then [] else [text] := by
  rw [words, List.splitOnP_eq_singleton plain]
  cases text with
  | nil => rfl
  | cons c rest => rfl

theorem IsWord.words {name : Text} (word : name.IsWord) : words name = [name] := by
  rw [words_of_isPlain word.plain, if_neg (by simpa using word.ne_nil)]

/-- Whether no word runs from the end of one text into the start of another. -/
def Apart (front back : Text) : Prop :=
  front = [] ∨ back = [] ∨ front.endsApart = true ∨ back.startsApart = true

theorem words_append {front back : Text} (apart : Apart front back) :
    words (front ++ back) = words front ++ words back := by
  rcases apart with rfl | rfl | ends | starts
  · rw [words_nil]
    rfl
  · rw [words_nil, List.append_nil, List.append_nil]
  · cases front using List.reverseRecOn with
    | nil => cases ends
    | append_singleton rest c =>
      rw [endsApart_concat] at ends
      rw [List.append_assoc, List.singleton_append, words_append_separator _ _ ends,
        words_append_separator rest [] ends, words_nil, List.append_nil]
  · cases back with
    | nil => cases starts
    | cons c rest =>
      rw [startsApart_cons] at starts
      have rest_words : words (c :: rest) = words rest := words_append_separator [] rest starts
      rw [words_append_separator _ _ starts, rest_words]

theorem words_of_isSpace {text : Text} (space : text.IsSpace) : words text = [] := by
  induction text with
  | nil => exact words_nil
  | cons c rest ih =>
    obtain ⟨separates, restSpace⟩ := List.forall_mem_cons.mp space
    exact (words_append_separator [] rest separates).trans (ih restSpace)

theorem apart_of_isSpace_left {front : Text} (space : front.IsSpace) (back : Text) :
    Apart front back := by
  cases front using List.reverseRecOn with
  | nil => exact .inl rfl
  | append_singleton rest c =>
    exact .inr (.inr (.inl (by simpa using space c (by simp))))

theorem apart_of_isSpace_right (front : Text) {back : Text} (space : back.IsSpace) :
    Apart front back := by
  cases back with
  | nil => exact .inr (.inl rfl)
  | cons c rest => exact .inr (.inr (.inr (space c List.mem_cons_self)))

theorem words_space_append {front : Text} (space : front.IsSpace) (back : Text) :
    words (front ++ back) = words back := by
  rw [words_append (apart_of_isSpace_left space back), words_of_isSpace space, List.nil_append]

theorem words_append_space (front : Text) {back : Text} (space : back.IsSpace) :
    words (front ++ back) = words front := by
  rw [words_append (apart_of_isSpace_right front space), words_of_isSpace space, List.append_nil]

theorem words_append_gap (front back : Text) {gap : Text} (gapIsGap : gap.isGap = true) :
    words (front ++ (gap ++ back)) = words front ++ words back := by
  obtain ⟨ne_nil, space⟩ := isGap_iff.mp gapIsGap
  have starts : startsApart (gap ++ back) = true := by
    rw [startsApart_append _ ne_nil, startsApart_of_isGap gapIsGap]
  rw [words_append (.inr (.inr (.inr starts))), words_space_append space]

/-! ## Where a text comes apart -/

/-- A text is what follows the space at its start. -/
theorem exists_leading (text : Text) :
    ∃ space rest, space.IsSpace ∧ startsApart rest = false ∧ text = space ++ rest := by
  induction text with
  | nil => exact ⟨[], [], by simp [IsSpace], rfl, rfl⟩
  | cons c rest ih =>
    cases separates : isSeparator c with
    | false => exact ⟨[], c :: rest, by simp [IsSpace], separates, rfl⟩
    | true =>
      obtain ⟨space, later, isSpace, starts, rfl⟩ := ih
      exact ⟨c :: space, later, List.forall_mem_cons.mpr ⟨separates, isSpace⟩, starts, rfl⟩

theorem exists_trailing (text : Text) :
    ∃ rest space, space.IsSpace ∧ endsApart rest = false ∧ text = rest ++ space := by
  obtain ⟨space, rest, isSpace, starts, reversed⟩ := exists_leading text.reverse
  refine ⟨rest.reverse, space.reverse, by simpa [IsSpace] using isSpace, ?_, ?_⟩
  · rw [← startsApart_reverse, List.reverse_reverse, starts]
  · rw [← List.reverse_append, ← reversed, List.reverse_reverse]

/-- A text that has a separator comes apart at its first gap. -/
theorem exists_first (text : Text) :
    text.IsPlain ∨ ∃ name gap rest, name.IsPlain ∧ gap.isGap = true ∧ startsApart rest = false ∧
      text = name ++ (gap ++ rest) := by
  induction text with
  | nil => exact .inl isPlain_nil
  | cons c later ih =>
    cases separates : isSeparator c with
    | true =>
      obtain ⟨space, rest, isSpace, starts, rfl⟩ := exists_leading later
      have isGap : isGap (c :: space) = true :=
        isGap_iff.mpr ⟨List.cons_ne_nil _ _, List.forall_mem_cons.mpr ⟨separates, isSpace⟩⟩
      exact .inr ⟨[], c :: space, rest, isPlain_nil, isGap, starts, rfl⟩
    | false =>
      rcases ih with plain | ⟨name, gap, rest, plain, isGap, starts, rfl⟩
      · exact .inl (List.forall_mem_cons.mpr ⟨separates, plain⟩)
      · exact .inr ⟨c :: name, gap, rest, List.forall_mem_cons.mpr ⟨separates, plain⟩, isGap,
          starts, rfl⟩

theorem exists_last (text : Text) (ends : text.endsApart = false) :
    text.IsPlain ∨ ∃ rest gap name, endsApart rest = false ∧ gap.isGap = true ∧ name.IsWord ∧
      text = rest ++ (gap ++ name) := by
  rcases exists_first text.reverse with plain | ⟨name, gap, rest, plain, space, starts, reversed⟩
  · exact .inl (by simpa [IsPlain] using plain)
  · have same : text = rest.reverse ++ (gap.reverse ++ name.reverse) := by
      rw [← List.reverse_reverse text, reversed]
      simp
    have reversedGap : isGap gap.reverse = true := by
      rw [isGap_iff] at space ⊢
      simpa [IsSpace] using space
    refine .inr ⟨rest.reverse, gap.reverse, name.reverse, ?_, reversedGap, ⟨?_, ?_⟩, same⟩
    · rw [← startsApart_reverse, List.reverse_reverse, starts]
    · intro empty
      rw [same, empty, List.append_nil, endsApart_append _ (isGap_iff.mp reversedGap).1,
        endsApart_of_isGap reversedGap] at ends
      cases ends
    · simpa [IsPlain] using plain

end ClassTidy.Text
