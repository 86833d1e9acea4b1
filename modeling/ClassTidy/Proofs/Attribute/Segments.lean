import ClassTidy.Proofs.Attribute.Woven

/-!
# Cutting and joining

An attribute that starts with a gap has an empty class in front of that, and is woven behind it.
Cutting gives segments of these two kinds and no others, and on them joining and cutting undo each
other.
-/

set_option autoImplicit false

namespace ClassTidy

namespace Segments

/-- What an attribute is cut into. -/
inductive Regular : Segments → Prop where
  | flush {segments : Segments} : segments.Named → Regular segments
  | indented {gap : Text} {segments : Segments} :
      gap.isGap = true → segments.Named → Regular (segments.behind [] gap)

theorem Regular.separated {segments : Segments} (regular : segments.Regular) :
    segments.Separated := by
  cases regular with
  | flush named => exact named.separated
  | indented isGap named => exact .cons (by simp [Text.IsPlain]) isGap named.separated

theorem cut_plain_append {name : Text} (plain : name.IsPlain) (text : Text) :
    cut (name ++ text) = (name ++ (cut text).1, (cut text).2) := by
  induction name with
  | nil => rfl
  | cons c rest ih =>
    obtain ⟨here, later⟩ := List.forall_mem_cons.mp plain
    rw [List.cons_append, cut, if_neg (by simp [here]), ih later]
    rfl

/-- Nothing but an empty text and one that starts with a separator has an empty first piece. -/
theorem cut_of_not_startsApart {text : Text} (starts : text.startsApart = false)
    (empty : (cut text).1 = []) : text = [] := by
  cases text with
  | nil => rfl
  | cons c rest =>
    rw [Text.startsApart_cons] at starts
    rw [cut, if_neg (by simp [starts])] at empty
    cases empty

theorem cut_gap_append {gap text : Text} (isGap : gap.isGap = true)
    (starts : text.startsApart = false) :
    cut (gap ++ text) = ([], (gap, (cut text).1) :: (cut text).2) := by
  obtain ⟨gap_ne_nil, space⟩ := Text.isGap_iff.mp isGap
  induction gap with
  | nil => exact (gap_ne_nil rfl).elim
  | cons c rest ih =>
    obtain ⟨here, later⟩ := List.forall_mem_cons.mp space
    rw [List.cons_append, cut, if_pos here]
    cases rest with
    | nil =>
      rw [List.nil_append]
      cases pieces : cut text with
      | mk first more =>
        cases first with
        | nil =>
          obtain rfl := cut_of_not_startsApart starts (congrArg Prod.fst pieces)
          cases pieces
          rfl
        | cons d others => rfl
    | cons d others =>
      have restIsGap : Text.isGap (d :: others) = true :=
        Text.isGap_iff.mpr ⟨List.cons_ne_nil _ _, later⟩
      rw [ih restIsGap (List.cons_ne_nil _ _) later]

/-- The pieces of a text that was joined. With a gap at the end, there is an empty piece behind. -/
theorem Named.cut_toText {segments : Segments} (named : segments.Named) :
    (cut segments.toText).2.map (·.1) = segments.gaps ∧
      (cut segments.toText).1 :: (cut segments.toText).2.map (·.2) =
        if segments.gaps.length = segments.classes.length then segments.classes ++ [[]]
        else segments.classes := by
  obtain ⟨classes, gaps⟩ := segments
  simp only [Named, toText] at named ⊢
  induction named with
  | nil => exact ⟨rfl, rfl⟩
  | @last name word =>
    rw [join_cons_nil, join_nil, cut_plain_append word.plain]
    simp [cut]
  | @cons name gap classes gaps word isGap woven ih =>
    obtain ⟨sameGaps, sameClasses⟩ := ih
    have starts : Text.startsApart (join classes gaps) = false :=
      Named.startsApart_toText (show Named ⟨classes, gaps⟩ from woven)
    rw [join_cons_cons, cut_plain_append word.plain, cut_gap_append isGap starts]
    constructor
    · simp [sameGaps]
    · simp only [List.append_nil, List.map_cons, sameClasses, List.length_cons,
        Nat.add_right_cancel_iff]
      split <;> rfl

theorem ofText_of_pieces {text : Text} {segments : Segments}
    (sameGaps : (cut text).2.map (·.1) = segments.gaps)
    (sameClasses : (cut text).1 :: (cut text).2.map (·.2) =
      if segments.gaps.length = segments.classes.length then segments.classes ++ [[]]
      else segments.classes)
    (closed : segments.gaps.length ≠ segments.classes.length →
      segments.classes.getLast? ≠ some []) :
    ofText text = segments := by
  rw [ofText, sameClasses, sameGaps]
  by_cases paired : segments.gaps.length = segments.classes.length
  · simp [paired]
  · simp [paired, closed paired]

theorem Named.getLast?_ne {segments : Segments} (named : segments.Named) :
    segments.classes.getLast? ≠ some [] := by
  intro last
  exact (named.admits_all [] (List.mem_of_getLast? last)).ne_nil rfl

/-- Cutting undoes joining. -/
theorem Regular.ofText_toText {segments : Segments} (regular : Regular segments) :
    ofText segments.toText = segments := by
  cases regular with
  | flush named =>
    obtain ⟨sameGaps, sameClasses⟩ := named.cut_toText
    exact ofText_of_pieces sameGaps sameClasses fun _ => named.getLast?_ne
  | @indented gap inner isGap named =>
    obtain ⟨sameGaps, sameClasses⟩ := named.cut_toText
    have pieces := cut_gap_append isGap named.startsApart_toText
    rw [toText_behind, List.nil_append]
    apply ofText_of_pieces
    · rw [pieces, List.map_cons, sameGaps]
      rfl
    · rw [pieces, List.map_cons, sameClasses]
      simp only [behind, List.length_cons, Nat.add_right_cancel_iff]
      split <;> rfl
    · intro unpaired last
      obtain ⟨classes, gaps⟩ := inner
      cases classes with
      | nil => exact unpaired (congrArg Nat.succ (Nat.le_zero.mp named.length_le))
      | cons name later =>
        simp only [behind, List.getLast?_cons_cons] at last
        exact named.getLast?_ne last

/-- Segments with space in front, and an empty class in front of that if there is any. -/
def indent (leading : Text) (segments : Segments) : Segments :=
  if leading.isEmpty then segments else segments.behind [] leading

theorem toText_indent (leading : Text) (segments : Segments) :
    (segments.indent leading).toText = leading ++ segments.toText := by
  cases leading <;> rfl

theorem Regular.exists_indent {segments : Segments} (regular : segments.Regular) :
    ∃ leading inner, Text.IsSpace leading ∧ Named inner ∧ segments = inner.indent leading := by
  cases regular with
  | flush named => exact ⟨[], segments, Text.isSpace_nil, named, rfl⟩
  | @indented gap inner isGap named =>
    obtain ⟨gap_ne_nil, space⟩ := Text.isGap_iff.mp isGap
    refine ⟨gap, inner, space, named, ?_⟩
    rw [indent, if_neg (by simpa using gap_ne_nil)]

theorem Named.regular_indent {segments : Segments} (named : segments.Named) {leading : Text}
    (space : leading.IsSpace) : Regular (segments.indent leading) := by
  cases leading with
  | nil => exact .flush named
  | cons c rest => exact .indented (Text.isGap_iff.mpr ⟨List.cons_ne_nil _ _, space⟩) named

theorem Named.words_indent {segments : Segments} (named : segments.Named) {leading : Text}
    (space : leading.IsSpace) : Text.words (segments.indent leading).toText = segments.classes := by
  rw [toText_indent, Text.words_space_append space, named.words_toText]

theorem Named.startsApart_indent {segments : Segments} (named : segments.Named) {leading : Text}
    (space : leading.IsSpace) :
    Text.startsApart (segments.indent leading).toText = !leading.isEmpty := by
  rw [toText_indent]
  cases leading with
  | nil => exact named.startsApart_toText
  | cons c rest => exact space c List.mem_cons_self

theorem Named.endsApart_indent {segments : Segments} (named : segments.Named)
    (ne_nil : segments.classes ≠ []) (leading : Text) :
    Text.endsApart (segments.indent leading).toText = true ↔
      segments.gaps.length = segments.classes.length := by
  rw [toText_indent, Text.endsApart_append _ (named.toText_ne_nil ne_nil), named.endsApart_toText]
  exact and_iff_right ne_nil

/-- Every text is that of regular segments. -/
theorem exists_regular (text : Text) : ∃ segments, Regular segments ∧ segments.toText = text := by
  induction text with
  | nil => exact ⟨⟨[], []⟩, .flush Woven.nil, rfl⟩
  | cons c rest ih =>
    obtain ⟨segments, regular, rfl⟩ := ih
    cases separates : isSeparator c with
    | true =>
      cases regular with
      | flush named => exact ⟨_, .indented (Text.isGap_singleton separates) named, rfl⟩
      | @indented gap inner isGap named =>
        have longer : Text.isGap (c :: gap) = true := Text.isGap_cons separates isGap
        exact ⟨_, .indented longer named, rfl⟩
    | false =>
      have letter : Text.IsWord [c] := Text.isWord_singleton separates
      cases regular with
      | @indented gap inner isGap named =>
        exact ⟨inner.behind [c] gap, .flush (Woven.cons letter isGap named), rfl⟩
      | @flush segments named =>
        obtain ⟨classes, gaps⟩ := segments
        cases named with
        | nil => exact ⟨⟨[[c]], []⟩, .flush (Woven.last letter), rfl⟩
        | @last name word =>
          exact ⟨⟨[c :: name], []⟩, .flush (Woven.last (word.cons separates)), rfl⟩
        | @cons name gap classes gaps word isGap woven =>
          exact ⟨⟨(c :: name) :: classes, gap :: gaps⟩,
            .flush (Woven.cons (word.cons separates) isGap woven), rfl⟩

theorem ofText_regular (text : Text) : (ofText text).Regular := by
  obtain ⟨segments, regular, rfl⟩ := exists_regular text
  rwa [regular.ofText_toText]

/-- Joining undoes cutting. -/
theorem toText_ofText (text : Text) : (ofText text).toText = text := by
  obtain ⟨segments, regular, rfl⟩ := exists_regular text
  rw [regular.ofText_toText]

end Segments

theorem Text.isWord_of_mem_words {name text : Text} (member : name ∈ text.words) :
    name.IsWord := by
  obtain ⟨segments, regular, rfl⟩ := Segments.exists_regular text
  obtain ⟨leading, inner, space, named, rfl⟩ := regular.exists_indent
  rw [named.words_indent space] at member
  exact named.admits_all name member

theorem Text.BlanksSeparate.of_mem_words {name text : Text} (separate : text.BlanksSeparate)
    (member : name ∈ text.words) : name.BlanksSeparate := by
  obtain ⟨segments, regular, rfl⟩ := Segments.exists_regular text
  obtain ⟨leading, inner, space, named, rfl⟩ := regular.exists_indent
  rw [named.words_indent space] at member
  rw [Segments.toText_indent] at separate
  exact Segments.blanksSeparate_of_join (Text.blanksSeparate_append.mp separate).2 name member

theorem Text.words_eq_nil_iff {text : Text} : text.words = [] ↔ text.IsSpace := by
  constructor
  · intro wordless
    obtain ⟨segments, regular, rfl⟩ := Segments.exists_regular text
    obtain ⟨leading, ⟨classes, gaps⟩, space, named, rfl⟩ := regular.exists_indent
    obtain rfl : classes = [] := (named.words_indent space).symm.trans wordless
    obtain rfl := List.length_eq_zero_iff.mp (Nat.le_zero.mp named.length_le)
    rw [Segments.toText_indent]
    exact Text.isSpace_append.mpr ⟨space, Text.isSpace_nil⟩
  · exact Text.words_of_isSpace

theorem Text.words_ne_nil_of_startsApart {text : Text} (ne_nil : text ≠ [])
    (starts : text.startsApart = false) : text.words ≠ [] := fun wordless =>
  ne_nil (Text.eq_nil_of_isSpace (Text.words_eq_nil_iff.mp wordless) starts)

theorem Text.words_ne_nil_of_endsApart {text : Text} (ne_nil : text ≠ [])
    (ends : text.endsApart = false) : text.words ≠ [] := by
  intro wordless
  have gap := Text.isGap_iff.mpr ⟨ne_nil, Text.words_eq_nil_iff.mp wordless⟩
  rw [Text.endsApart_of_isGap gap] at ends
  cases ends

/-- A text that is neither empty nor a gap has a word. -/
theorem Text.words_ne_nil {text : Text} (ne_nil : text ≠ []) (notGap : text.isGap = false) :
    text.words ≠ [] := by
  intro wordless
  have gap := Text.isGap_iff.mpr ⟨ne_nil, Text.words_eq_nil_iff.mp wordless⟩
  rw [notGap] at gap
  cases gap

namespace Segments

/-! ## Cutting piece by piece -/

/-- Behind an empty class in front of a gap stand the words of a text. -/
theorem classes_ofText (text : Text) :
    (ofText text).classes = if text.startsApart then [] :: text.words else text.words := by
  obtain ⟨segments, regular, rfl⟩ := exists_regular text
  obtain ⟨leading, inner, space, named, rfl⟩ := regular.exists_indent
  rw [regular.ofText_toText, named.words_indent space, toText_indent,
    Text.startsApart_space_append space named.startsApart_toText]
  cases leading <;> rfl

/-- A text that does not start with a separator has no empty class. -/
theorem ofText_named {text : Text} (starts : text.startsApart = false) : (ofText text).Named := by
  obtain ⟨segments, regular, rfl⟩ := exists_regular text
  obtain ⟨leading, inner, space, named, rfl⟩ := regular.exists_indent
  rw [toText_indent, Text.startsApart_space_append space named.startsApart_toText] at starts
  cases leading with
  | nil => exact regular.ofText_toText.symm ▸ named
  | cons c rest => cases starts

theorem ofText_word {name : Text} (word : name.IsWord) : ofText name = ⟨[name], []⟩ := by
  have regular : Regular ⟨[name], []⟩ := .flush (Woven.last word)
  have single := regular.ofText_toText
  rwa [toText, join_cons_nil, join_nil, List.append_nil] at single

theorem ofText_behind {name gap rest : Text} (plain : name.IsPlain) (isGap : gap.isGap = true)
    (starts : rest.startsApart = false) :
    ofText (name ++ (gap ++ rest)) = (ofText rest).behind name gap := by
  have named := ofText_named starts
  have regular : Regular ((ofText rest).behind name gap) := by
    cases name with
    | nil => exact .indented isGap named
    | cons c later => exact .flush (Woven.cons ⟨List.cons_ne_nil _ _, plain⟩ isGap named)
  have whole := regular.ofText_toText
  rwa [toText_behind, toText_ofText] at whole

theorem Named.before {segments : Segments} (named : segments.Named) {name : ClassName} {gap : Text}
    (word : name.IsWord) (isGap : gap.isGap = true) : Named (segments.before name gap) := by
  apply woven_of_lengths
  · exact List.forall_mem_append.mpr ⟨named.admits_all, by simpa using word⟩
  · exact List.forall_mem_append.mpr ⟨named.gaps_isGap, by simpa using isGap⟩
  · simpa [Segments.before] using named.length_le
  · simpa [Segments.before] using named.le_length

theorem before_indent (name : ClassName) (gap leading : Text) (segments : Segments) :
    (segments.indent leading).before name gap = (segments.before name gap).indent leading := by
  cases leading <;> rfl

theorem ofText_before {name gap rest : Text} (word : name.IsWord) (isGap : gap.isGap = true)
    (ne_nil : rest ≠ []) (ends : rest.endsApart = false) :
    ofText (rest ++ (gap ++ name)) = (ofText rest).before name gap := by
  obtain ⟨segments, regular, rfl⟩ := exists_regular rest
  obtain ⟨leading, inner, space, named, rfl⟩ := regular.exists_indent
  have some_class : inner.classes ≠ [] := by
    intro empty
    have wordless : (inner.indent leading).toText.words = [] :=
      (named.words_indent space).trans empty
    have allSpace := Text.words_eq_nil_iff.mp wordless
    have separates := Text.endsApart_of_isGap (Text.isGap_iff.mpr ⟨ne_nil, allSpace⟩)
    rw [ends] at separates
    cases separates
  have paired : inner.classes.length = inner.gaps.length + 1 := by
    have fewer := named.length_le
    have enough := named.le_length
    have unpaired : inner.gaps.length ≠ inner.classes.length := by
      intro same
      rw [(named.endsApart_indent some_class leading).mpr same] at ends
      cases ends
    omega
  have whole := ((named.before word isGap).regular_indent space).ofText_toText
  rw [toText_indent, toText_before name gap paired, ← List.append_assoc, ← toText_indent] at whole
  rw [whole, regular.ofText_toText, before_indent]

/-- A gap at the end of a text is that of the last class. -/
theorem ofText_before_gap {name gap rest : Text} (word : name.IsWord) (isGap : gap.isGap = true)
    (ends : rest = [] ∨ rest.endsApart = true) :
    ofText (rest ++ (name ++ gap)) = (ofText rest).before name gap := by
  obtain ⟨segments, regular, rfl⟩ := exists_regular rest
  obtain ⟨leading, inner, space, named, rfl⟩ := regular.exists_indent
  have paired : inner.classes.length = inner.gaps.length := by
    by_cases empty : inner.classes = []
    · have fewer := named.length_le
      rw [empty] at fewer ⊢
      exact (Nat.le_zero.mp fewer).symm
    · rcases ends with nothing | separates
      · rw [toText_indent, List.append_eq_nil_iff] at nothing
        exact (named.toText_ne_nil empty nothing.2).elim
      · exact ((named.endsApart_indent empty leading).mp separates).symm
  have whole := ((named.before word isGap).regular_indent space).ofText_toText
  rw [toText_indent, toText_before_gap name gap paired, ← List.append_assoc, ← toText_indent]
    at whole
  rw [whole, regular.ofText_toText, before_indent]

end Segments

end ClassTidy
