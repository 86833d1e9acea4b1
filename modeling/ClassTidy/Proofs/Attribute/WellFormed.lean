import ClassTidy.Proofs.Attribute.Segments

/-!
# Well-formed segments

What segments have to look like is said here of their two lists alone. Segments are well formed
just when cutting yields them, and between well-formed segments and texts joining and cutting undo
each other.
-/

set_option autoImplicit false

namespace ClassTidy.Segments

/-- Classes without separators, and gaps of separators, in turn. Only the first class may be empty,
and only in front of a gap; only the last may have no gap behind it. -/
@[mk_iff]
structure WellFormed (segments : Segments) : Prop where
  plain : ∀ name ∈ segments.classes, name.IsPlain
  isGap : ∀ gap ∈ segments.gaps, gap.isGap = true
  later_ne_nil : ∀ name ∈ segments.classes.tail, name ≠ []
  followed : segments.classes.head? = some [] → segments.gaps ≠ []
  paired : segments.gaps.length = segments.classes.length ∨
    segments.gaps.length + 1 = segments.classes.length

instance (segments : Segments) : Decidable segments.WellFormed :=
  decidable_of_iff' _ (wellFormed_iff segments)

theorem Named.wellFormed {segments : Segments} (named : segments.Named) : segments.WellFormed where
  plain name member := (named.admits_all name member).plain
  isGap := named.gaps_isGap
  later_ne_nil name member := (named.admits_all name (List.mem_of_mem_tail member)).ne_nil
  followed empty := ((named.admits_all [] (List.mem_of_mem_head? empty)).ne_nil rfl).elim
  paired := by
    have fewer := named.length_le
    have enough := named.le_length
    omega

theorem Regular.wellFormed {segments : Segments} (regular : segments.Regular) :
    segments.WellFormed := by
  cases regular with
  | flush named => exact named.wellFormed
  | @indented gap inner isGap named =>
    have innerFormed := named.wellFormed
    refine ⟨?_, ?_, ?_, fun _ => List.cons_ne_nil _ _, ?_⟩
    · exact List.forall_mem_cons.mpr ⟨Text.isPlain_nil, innerFormed.plain⟩
    · exact List.forall_mem_cons.mpr ⟨isGap, innerFormed.isGap⟩
    · exact fun name member => (named.admits_all name member).ne_nil
    · have paired := innerFormed.paired
      simp only [behind, List.length_cons]
      omega

theorem WellFormed.regular {segments : Segments} (formed : segments.WellFormed) :
    segments.Regular := by
  obtain ⟨classes, gaps⟩ := segments
  obtain ⟨plain, isGap, later_ne_nil, followed, paired⟩ := formed
  simp only at plain isGap later_ne_nil followed paired
  cases classes with
  | nil =>
    rcases paired with same | more
    · obtain rfl := List.length_eq_zero_iff.mp same
      exact .flush Woven.nil
    · cases more
  | cons name classes =>
    obtain ⟨namePlain, laterPlain⟩ := List.forall_mem_cons.mp plain
    have laterWords : ∀ later ∈ classes, later.IsWord :=
      fun later member => ⟨later_ne_nil later member, laterPlain later member⟩
    rw [List.length_cons] at paired
    cases name with
    | nil =>
      cases gaps with
      | nil => exact (followed rfl rfl).elim
      | cons gap gaps =>
        obtain ⟨firstIsGap, laterIsGap⟩ := List.forall_mem_cons.mp isGap
        rw [List.length_cons] at paired
        have fewer : gaps.length ≤ classes.length := by omega
        have enough : classes.length ≤ gaps.length + 1 := by omega
        have named : Named ⟨classes, gaps⟩ := woven_of_lengths laterWords laterIsGap fewer enough
        exact .indented firstIsGap named
    | cons c rest =>
      have words : ∀ word ∈ (c :: rest) :: classes, Text.IsWord word :=
        List.forall_mem_cons.mpr ⟨⟨List.cons_ne_nil _ _, namePlain⟩, laterWords⟩
      have fewer : gaps.length ≤ ((c :: rest) :: classes).length := by
        rw [List.length_cons]
        omega
      have enough : ((c :: rest) :: classes).length ≤ gaps.length + 1 := by
        rw [List.length_cons]
        omega
      exact .flush (woven_of_lengths words isGap fewer enough)

/-- Joining undoes cutting, for every text, and cutting undoes joining, for the segments that are
well formed and for no others. -/
theorem toText_ofText_and_ofText_toText_iff :
    (∀ text, (ofText text).toText = text ∧ (ofText text).WellFormed ∧
      (ofText text = ⟨[], []⟩ ↔ text = [])) ∧
      ∀ segments : Segments, ofText segments.toText = segments ↔ segments.WellFormed := by
  refine ⟨fun text => ⟨toText_ofText text, (ofText_regular text).wellFormed, ?_⟩,
    fun segments => ⟨fun again => ?_, fun formed => formed.regular.ofText_toText⟩⟩
  · constructor
    · intro empty
      rw [← toText_ofText text, empty]
      rfl
    · rintro rfl
      rfl
  · rw [← again]
    exact (ofText_regular segments.toText).wellFormed

/-- An empty class in front needs a gap behind it: joined, it would be gone. -/
example : ¬ WellFormed ⟨[[]], []⟩ ∧ WellFormed ⟨[[], ['a']], [['\t']]⟩ := by decide

end ClassTidy.Segments
