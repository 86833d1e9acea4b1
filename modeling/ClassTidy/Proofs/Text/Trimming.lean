import ClassTidy.Proofs.Text.Words
import Mathlib.Data.List.DropRight

/-!
# Trimming

The ends of a text are trimmed of blanks, and not every blank is a separator. Trimming leaves the
words of a text as they are just when no word has a blank at its outer end; in particular it does
so where all blanks separate classes. The blanks at both ends can also be dropped altogether.
-/

set_option autoImplicit false

namespace ClassTidy.Text

/-- Whether a blank is the first character of a text. -/
def startsBlank (text : Text) : Bool := text.head?.any isBlank

def endsBlank (text : Text) : Bool := text.getLast?.any isBlank

theorem startsBlank_append {front : Text} (back : Text) (ne_nil : front ≠ []) :
    startsBlank (front ++ back) = front.startsBlank := by
  cases front with
  | nil => exact (ne_nil rfl).elim
  | cons c rest => rfl

theorem startsBlank_reverse (text : Text) : startsBlank text.reverse = text.endsBlank := by
  rw [startsBlank, List.head?_reverse]
  rfl

theorem endsBlank_append (front : Text) {back : Text} (ne_nil : back ≠ []) :
    endsBlank (front ++ back) = back.endsBlank := by
  rw [← startsBlank_reverse, ← startsBlank_reverse, List.reverse_append,
    startsBlank_append _ (by simpa using ne_nil)]

/-! ## Blanks that separate -/

/-- Whether all white space of a text separates classes. -/
def BlanksSeparate (text : Text) : Prop := ∀ c ∈ text, isBlank c = true → isSeparator c = true

instance (text : Text) : Decidable text.BlanksSeparate :=
  List.decidableBAll (fun c => isBlank c = true → isSeparator c = true) text

theorem BlanksSeparate.isBlank_eq {text : Text} (separate : text.BlanksSeparate) {c : Char}
    (member : c ∈ text) : isBlank c = isSeparator c := by
  cases blank : isBlank c with
  | true => exact (separate c member blank).symm
  | false =>
    cases separates : isSeparator c with
    | false => rfl
    | true => rw [isBlank_of_isSeparator separates] at blank; cases blank

theorem BlanksSeparate.startsBlank_eq {text : Text} (separate : text.BlanksSeparate) :
    text.startsBlank = text.startsApart := by
  cases text with
  | nil => rfl
  | cons c rest => exact separate.isBlank_eq List.mem_cons_self

theorem BlanksSeparate.endsBlank_eq {text : Text} (separate : text.BlanksSeparate) :
    text.endsBlank = text.endsApart := by
  have reversed : BlanksSeparate text.reverse := by simpa [BlanksSeparate] using separate
  rw [← startsBlank_reverse, ← startsApart_reverse, reversed.startsBlank_eq]

theorem blanksSeparate_append {front back : Text} :
    BlanksSeparate (front ++ back) ↔ front.BlanksSeparate ∧ back.BlanksSeparate :=
  List.forall_mem_append

theorem IsSpace.blanksSeparate {text : Text} (space : text.IsSpace) : text.BlanksSeparate :=
  fun c member _ => space c member

/-! ## Trimming one end -/

theorem replaceLeading_eq_self (substitute : Text) {text : Text}
    (starts : text.startsBlank = false) : replaceLeading substitute text = text := by
  cases text with
  | nil => rfl
  | cons c rest =>
    have letter : isBlank c = false := starts
    rw [replaceLeading, if_neg (by simp [letter])]

theorem dropWhile_of_startsBlank {text : Text} (starts : text.startsBlank = false) :
    text.dropWhile isBlank = text := by
  cases text with
  | nil => rfl
  | cons c rest => exact List.dropWhile_cons_of_neg (Bool.eq_false_iff.mp starts)

/-- Trimming the start replaces the space in front of what does not start with a blank. -/
theorem replaceLeading_append (substitute : Text) {space text : Text} (isSpace : space.IsSpace)
    (starts : text.startsBlank = false) :
    replaceLeading substitute (space ++ text) =
      (if space.isEmpty then [] else substitute) ++ text := by
  cases space with
  | nil => exact replaceLeading_eq_self substitute starts
  | cons c rest =>
    have blank : ∀ d ∈ c :: rest, isBlank d = true :=
      fun d member => isBlank_of_isSeparator (isSpace d member)
    rw [List.cons_append, replaceLeading, if_pos (blank c List.mem_cons_self), ← List.cons_append,
      List.dropWhile_append_of_pos blank, dropWhile_of_startsBlank starts]
    rfl

theorem replaceTrailing_append (substitute : Text) {space text : Text} (isSpace : space.IsSpace)
    (ends : text.endsBlank = false) :
    replaceTrailing substitute (text ++ space) =
      text ++ if space.isEmpty then [] else substitute := by
  have starts : startsBlank text.reverse = false := (startsBlank_reverse text).trans ends
  have reversedSpace : IsSpace space.reverse := by simpa [IsSpace] using isSpace
  rw [replaceTrailing, List.reverse_append, replaceLeading_append _ reversedSpace starts]
  cases space with
  | nil => simp
  | cons c rest => simp

theorem replaceTrailing_eq_self (substitute : Text) {text : Text}
    (ends : text.endsBlank = false) : replaceTrailing substitute text = text := by
  simpa using replaceTrailing_append substitute isSpace_nil ends

theorem words_replaceLeading {substitute text : Text} (substituteSpace : substitute.IsSpace)
    (separate : text.BlanksSeparate) : words (replaceLeading substitute text) = words text := by
  obtain ⟨space, rest, isSpace, starts, rfl⟩ := exists_leading text
  have restStarts := (blanksSeparate_append.mp separate).2.startsBlank_eq.trans starts
  rw [replaceLeading_append substitute isSpace restStarts, words_space_append isSpace]
  split
  · rfl
  · exact words_space_append substituteSpace rest

theorem words_replaceTrailing {substitute text : Text} (substituteSpace : substitute.IsSpace)
    (separate : text.BlanksSeparate) : words (replaceTrailing substitute text) = words text := by
  obtain ⟨rest, space, isSpace, ends, rfl⟩ := exists_trailing text
  have restEnds := (blanksSeparate_append.mp separate).1.endsBlank_eq.trans ends
  rw [replaceTrailing_append substitute isSpace restEnds, words_append_space rest isSpace]
  split
  · rw [List.append_nil]
  · exact words_append_space rest substituteSpace

theorem replaceLeading_blanksSeparate {substitute text : Text}
    (substituteSpace : substitute.IsSpace)
    (separate : text.BlanksSeparate) : BlanksSeparate (replaceLeading substitute text) := by
  obtain ⟨space, rest, isSpace, starts, rfl⟩ := exists_leading text
  have restSeparate := (blanksSeparate_append.mp separate).2
  rw [replaceLeading_append substitute isSpace (restSeparate.startsBlank_eq.trans starts)]
  refine blanksSeparate_append.mpr ⟨?_, restSeparate⟩
  split
  · exact isSpace_nil.blanksSeparate
  · exact substituteSpace.blanksSeparate

/-! ## Trimming both ends -/

def edge (drops : Bool) : Text := if drops then [] else [' ']

theorem edge_isSpace (drops : Bool) : (edge drops).IsSpace := by
  cases drops <;> simp [edge, IsSpace, isSeparator]

/-- Drop the space at either end, or make it a single space. -/
def trimEnds (dropStart dropEnd : Bool) (text : Text) : Text :=
  replaceTrailing (edge dropEnd) (replaceLeading (edge dropStart) text)

/-- What is put at an end if there was space there. -/
def newEdge (apart drops : Bool) : Text := if apart then edge drops else []

@[simp] theorem newEdge_true (apart : Bool) : newEdge apart true = [] := ite_self []

theorem newEdge_isSpace (apart drops : Bool) : (newEdge apart drops).IsSpace := by
  cases apart with
  | false => exact isSpace_nil
  | true => exact edge_isSpace drops

theorem startsApart_newEdge (apart drops : Bool) {text : Text} (starts : text.startsApart = false) :
    startsApart (newEdge apart drops ++ text) = (apart && !drops) := by
  rw [startsApart_space_append (newEdge_isSpace apart drops) starts]
  cases apart <;> cases drops <;> rfl

theorem endsApart_newEdge (apart drops : Bool) {text : Text} (ends : text.endsApart = false) :
    endsApart (text ++ newEdge apart drops) = (apart && !drops) := by
  rw [endsApart_append_space (newEdge_isSpace apart drops) ends]
  cases apart <;> cases drops <;> rfl

theorem newEdge_and (apart drops : Bool) :
    newEdge (apart && !drops) drops = newEdge apart drops := by
  cases apart <;> cases drops <;> rfl

theorem words_trimEnds (dropStart dropEnd : Bool) {text : Text} (separate : text.BlanksSeparate) :
    words (trimEnds dropStart dropEnd text) = words text := by
  rw [trimEnds, words_replaceTrailing (edge_isSpace dropEnd)
    (replaceLeading_blanksSeparate (edge_isSpace dropStart) separate),
    words_replaceLeading (edge_isSpace dropStart) separate]

section

variable (dropStart dropEnd : Bool) {leading text trailing : Text}
  (leadingSpace : leading.IsSpace) (trailingSpace : trailing.IsSpace) (ne_nil : text ≠ [])
include leadingSpace ne_nil

theorem replaceLeading_edge (starts : text.startsBlank = false) :
    replaceLeading (edge dropStart) (leading ++ (text ++ trailing)) =
      newEdge (!leading.isEmpty) dropStart ++ (text ++ trailing) := by
  have startsBehind : startsBlank (text ++ trailing) = false := by
    rw [startsBlank_append _ ne_nil, starts]
  rw [replaceLeading_append _ leadingSpace startsBehind]
  cases leading <;> rfl

include trailingSpace

theorem trimEnds_append (starts : text.startsBlank = false) (ends : text.endsBlank = false) :
    trimEnds dropStart dropEnd (leading ++ (text ++ trailing)) =
      newEdge (!leading.isEmpty) dropStart ++ (text ++ newEdge (!trailing.isEmpty) dropEnd) := by
  have endsBefore : endsBlank (newEdge (!leading.isEmpty) dropStart ++ text) = false := by
    rw [endsBlank_append _ ne_nil, ends]
  rw [trimEnds, replaceLeading_edge dropStart leadingSpace ne_nil starts, ← List.append_assoc,
    replaceTrailing_append _ trailingSpace endsBefore, List.append_assoc]
  cases trailing <;> rfl

end

/-- A single space at either end is dropped or stays. -/
theorem trimEnds_newEdge (dropStart dropEnd apartStart apartEnd : Bool) {text : Text}
    (ne_nil : text ≠ []) (starts : text.startsBlank = false) (ends : text.endsBlank = false) :
    trimEnds dropStart dropEnd (newEdge apartStart false ++ (text ++ newEdge apartEnd false)) =
      newEdge apartStart dropStart ++ (text ++ newEdge apartEnd dropEnd) := by
  rw [trimEnds_append dropStart dropEnd (newEdge_isSpace _ _) (newEdge_isSpace _ _) ne_nil starts
    ends]
  cases apartStart <;> cases apartEnd <;> rfl

/-! ## Letters -/

/-- The characters of a text that are no separators, which its words are made of. -/
def letters (text : Text) : Text := text.filter fun c => !isSeparator c

theorem letters_cons_of_separator {c : Char} (rest : Text) (separates : isSeparator c = true) :
    letters (c :: rest) = letters rest := List.filter_cons_of_neg (by simp [separates])

theorem letters_cons_of_letter {c : Char} (rest : Text) (letter : isSeparator c = false) :
    letters (c :: rest) = c :: letters rest := List.filter_cons_of_pos (by simp [letter])

theorem flatten_words (text : Text) : text.words.flatten = text.letters := by
  have stretches : (text.splitOnP isSeparator).flatten = text.letters := by
    induction text with
    | nil => rfl
    | cons c rest ih =>
      rw [List.splitOnP_cons_eq_if_modifyHead]
      cases separates : isSeparator c with
      | true =>
        rw [letters_cons_of_separator rest separates, ← ih]
        rfl
      | false =>
        have some_stretch := List.splitOnP_ne_nil isSeparator rest
        rw [letters_cons_of_letter rest separates, ← ih]
        cases pieces : rest.splitOnP isSeparator with
        | nil => exact (some_stretch pieces).elim
        | cons first others => rfl
  rw [words, ← stretches, List.flatten_filter_not_isEmpty]

theorem letters_append (front back : Text) :
    letters (front ++ back) = front.letters ++ back.letters := List.filter_append ..

theorem letters_reverse (text : Text) : letters text.reverse = text.letters.reverse :=
  List.filter_reverse ..

theorem letters_of_isSpace {text : Text} (space : text.IsSpace) : text.letters = [] :=
  List.filter_eq_nil_iff.mpr fun c member => by simp [space c member]

theorem letters_replaceLeading {substitute : Text} (space : substitute.IsSpace) (text : Text) :
    letters (replaceLeading substitute text) = letters (text.dropWhile isBlank) := by
  cases text with
  | nil => rfl
  | cons c rest =>
    rw [replaceLeading]
    split
    · rw [letters_append, letters_of_isSpace space, List.nil_append]
    next letter => rw [List.dropWhile_cons_of_neg letter]

theorem letters_replaceTrailing {substitute : Text} (space : substitute.IsSpace) (text : Text) :
    letters (replaceTrailing substitute text) = letters (text.rdropWhile isBlank) := by
  have reversedSpace : IsSpace substitute.reverse := by simpa [IsSpace] using space
  rw [replaceTrailing, letters_reverse, letters_replaceLeading reversedSpace, ← letters_reverse]
  rfl

/-- A blank that is no separator is lost if only space stands in front of it. -/
theorem length_letters_dropWhile_lt {leading text : Text} (space : leading.IsSpace)
    (starts : text.startsApart = false) (blank : text.startsBlank = true) :
    (letters ((leading ++ text).dropWhile isBlank)).length < text.letters.length := by
  have allBlank : ∀ c ∈ leading, isBlank c = true :=
    fun c member => isBlank_of_isSeparator (space c member)
  cases text with
  | nil => cases blank
  | cons c rest =>
    have lost : isBlank c = true := blank
    have letter : isSeparator c = false := starts
    have rest_le : (letters (rest.dropWhile isBlank)).length ≤ (letters rest).length :=
      ((List.dropWhile_sublist isBlank).filter _).length_le
    rw [List.dropWhile_append_of_pos allBlank, List.dropWhile_cons_of_pos lost,
      letters_cons_of_letter rest letter, List.length_cons]
    omega

theorem length_letters_rdropWhile_lt {text trailing : Text} (space : trailing.IsSpace)
    (ends : text.endsApart = false) (blank : text.endsBlank = true) :
    (letters ((text ++ trailing).rdropWhile isBlank)).length < text.letters.length := by
  have reversedSpace : IsSpace trailing.reverse := by simpa [IsSpace] using space
  have reversed := length_letters_dropWhile_lt reversedSpace
    ((startsApart_reverse text).trans ends) ((startsBlank_reverse text).trans blank)
  rwa [← List.reverse_append, letters_reverse, List.length_reverse, ← List.length_reverse,
    ← letters_reverse] at reversed

section

variable (dropStart dropEnd : Bool) {leading text trailing : Text}
  (leadingSpace : leading.IsSpace) (trailingSpace : trailing.IsSpace) (ne_nil : text ≠ [])
include leadingSpace trailingSpace ne_nil

theorem length_letters_trimEnds_of_startsBlank (starts : text.startsApart = false)
    (blank : text.startsBlank = true) :
    (letters (trimEnds dropStart dropEnd (leading ++ (text ++ trailing)))).length <
      text.letters.length := by
  have lost := length_letters_dropWhile_lt leadingSpace
    ((startsApart_append trailing ne_nil).trans starts)
    ((startsBlank_append trailing ne_nil).trans blank)
  rw [← letters_replaceLeading (edge_isSpace dropStart), letters_append,
    letters_of_isSpace trailingSpace, List.append_nil] at lost
  have fewer := (List.rdropWhile_prefix isBlank
    (replaceLeading (edge dropStart) (leading ++ (text ++ trailing)))).sublist
  rw [trimEnds, letters_replaceTrailing (edge_isSpace dropEnd)]
  exact (fewer.filter _).length_le.trans_lt lost

theorem length_letters_trimEnds_of_endsBlank (starts : text.startsBlank = false)
    (ends : text.endsApart = false) (blank : text.endsBlank = true) :
    (letters (trimEnds dropStart dropEnd (leading ++ (text ++ trailing)))).length <
      text.letters.length := by
  have frontSpace := newEdge_isSpace (!leading.isEmpty) dropStart
  have lost := length_letters_rdropWhile_lt trailingSpace
    ((endsApart_append (newEdge (!leading.isEmpty) dropStart) ne_nil).trans ends)
    ((endsBlank_append (newEdge (!leading.isEmpty) dropStart) ne_nil).trans blank)
  rw [letters_append, letters_of_isSpace frontSpace, List.nil_append] at lost
  rw [trimEnds, replaceLeading_edge dropStart leadingSpace ne_nil starts,
    letters_replaceTrailing (edge_isSpace dropEnd), ← List.append_assoc]
  exact lost

/-- Trimming leaves the words alone just when they have no blanks at their outer ends. -/
theorem words_trimEnds_iff (starts : text.startsApart = false) (ends : text.endsApart = false) :
    words (trimEnds dropStart dropEnd (leading ++ (text ++ trailing))) = text.words ↔
      text.startsBlank = false ∧ text.endsBlank = false := by
  constructor
  · intro sameWords
    have sameLetters : letters (trimEnds dropStart dropEnd (leading ++ (text ++ trailing))) =
        text.letters := by
      rw [← flatten_words, ← flatten_words, sameWords]
    cases startsPlain : text.startsBlank with
    | true =>
      have fewer := length_letters_trimEnds_of_startsBlank dropStart dropEnd leadingSpace
        trailingSpace ne_nil starts startsPlain
      exact (fewer.ne (congrArg List.length sameLetters)).elim
    | false =>
      cases endsPlain : text.endsBlank with
      | true =>
        have fewer := length_letters_trimEnds_of_endsBlank dropStart dropEnd leadingSpace
          trailingSpace ne_nil startsPlain ends endsPlain
        exact (fewer.ne (congrArg List.length sameLetters)).elim
      | false => exact ⟨rfl, rfl⟩
  · rintro ⟨startsPlain, endsPlain⟩
    rw [trimEnds_append dropStart dropEnd leadingSpace trailingSpace ne_nil startsPlain endsPlain,
      words_space_append (newEdge_isSpace _ _), words_append_space _ (newEdge_isSpace _ _)]

end

/-! ## Dropping the blanks at both ends -/

def IsBlank (text : Text) : Prop := ∀ c ∈ text, isBlank c = true

theorem startsBlank_dropWhile (text : Text) : startsBlank (text.dropWhile isBlank) = false := by
  induction text with
  | nil => rfl
  | cons c rest ih =>
    cases blank : isBlank c with
    | true => rwa [List.dropWhile_cons_of_pos blank]
    | false =>
      rw [List.dropWhile_cons_of_neg (Bool.eq_false_iff.mp blank)]
      exact blank

theorem strip_eq_self {text : Text} (starts : text.startsBlank = false)
    (ends : text.endsBlank = false) : text.strip = text := by
  rw [← startsBlank_reverse] at ends
  rw [strip, dropWhile_of_startsBlank starts, dropWhile_of_startsBlank ends, List.reverse_reverse]

theorem strip_blank_append {space : Text} (blank : space.IsBlank) (text : Text) :
    strip (space ++ text) = text.strip := by
  rw [strip, List.dropWhile_append_of_pos blank]
  rfl

theorem strip_append_blank (text : Text) {space : Text} (blank : space.IsBlank) :
    strip (text ++ space) = text.strip := by
  have backwards : ∀ c ∈ space.reverse, isBlank c = true :=
    fun c member => blank c (List.mem_reverse.mp member)
  rw [strip, List.dropWhile_append]
  split
  next allBlank =>
    rw [strip, List.isEmpty_iff.mp allBlank, List.dropWhile_eq_nil_iff.mpr blank]
  · rw [List.reverse_append, List.dropWhile_append_of_pos backwards]
    rfl

theorem strip_of_isBlank {space : Text} (blank : space.IsBlank) : space.strip = [] := by
  rw [← List.append_nil space, strip_blank_append blank]
  rfl

/-- What is left of a text starts and ends without a blank, and stood between blanks. -/
theorem exists_strip (text : Text) :
    ∃ before after : Text, before.IsBlank ∧ after.IsBlank ∧
      text = before ++ (text.strip ++ after) ∧
      text.strip.startsBlank = false ∧ text.strip.endsBlank = false := by
  have parts : text.strip ++ (text.dropWhile isBlank).rtakeWhile isBlank = text.dropWhile isBlank :=
    List.rdropWhile_append_rtakeWhile
  refine ⟨text.takeWhile isBlank, (text.dropWhile isBlank).rtakeWhile isBlank,
    fun c => List.mem_takeWhile_imp, fun c => List.mem_rtakeWhile_imp, ?_, ?_, ?_⟩
  · rw [parts, List.takeWhile_append_dropWhile]
  · by_cases empty : text.strip = []
    · rw [empty]
      rfl
    · rw [← startsBlank_append _ empty, parts]
      exact startsBlank_dropWhile text
  · rw [← startsBlank_reverse, strip, List.reverse_reverse]
    exact startsBlank_dropWhile _

end ClassTidy.Text
