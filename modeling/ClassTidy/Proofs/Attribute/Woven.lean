import ClassTidy.Proofs.Text.Trimming
import Mathlib.Data.List.Basic

/-!
# Classes and gaps in turn

Classes and gaps are woven if they take turns as they do in an attribute that starts with a class.
Joining woven classes and gaps keeps the classes apart, so the words of the text are the classes
again, and its first and last characters are told from the first class and the last gap.
-/

set_option autoImplicit false

namespace ClassTidy

namespace Segments

/-- Classes and the gaps behind them, in turn. Only the last class may have no gap behind it. -/
inductive Woven (admits : ClassName → Prop) : List ClassName → List Text → Prop where
  | nil : Woven admits [] []
  | last {name} : admits name → Woven admits [name] []
  | cons {name gap classes gaps} :
      admits name → Text.isGap gap = true → Woven admits classes gaps →
      Woven admits (name :: classes) (gap :: gaps)

/-- Segments with one more class and gap in front. -/
def behind (name : ClassName) (gap : Text) (segments : Segments) : Segments :=
  ⟨name :: segments.classes, gap :: segments.gaps⟩

/-- Segments with one more gap and class at the end. -/
def before (name : ClassName) (gap : Text) (segments : Segments) : Segments :=
  ⟨segments.classes ++ [name], segments.gaps ++ [gap]⟩

/-- Segments that keep their classes apart when they are joined. -/
def Separated (segments : Segments) : Prop := Woven Text.IsPlain segments.classes segments.gaps

/-- Separated segments without an empty class. -/
def Named (segments : Segments) : Prop := Woven Text.IsWord segments.classes segments.gaps

/-! ## Woven classes and gaps -/

section

variable {admits : ClassName → Prop} {classes : List ClassName} {gaps : List Text}

namespace Woven

theorem admits_all (woven : Woven admits classes gaps) : ∀ name ∈ classes, admits name := by
  induction woven with
  | nil => simp
  | last admitted => simpa using admitted
  | cons admitted _ _ ih => exact List.forall_mem_cons.mpr ⟨admitted, ih⟩

theorem gaps_isGap (woven : Woven admits classes gaps) : ∀ gap ∈ gaps, gap.isGap = true := by
  induction woven with
  | nil => simp
  | last => simp
  | cons _ isGap _ ih => exact List.forall_mem_cons.mpr ⟨isGap, ih⟩

theorem length_le (woven : Woven admits classes gaps) : gaps.length ≤ classes.length := by
  induction woven with
  | nil => exact Nat.le_refl _
  | last => exact Nat.zero_le _
  | cons _ _ _ ih => exact Nat.succ_le_succ ih

theorem le_length (woven : Woven admits classes gaps) : classes.length ≤ gaps.length + 1 := by
  induction woven with
  | nil => exact Nat.zero_le _
  | last => exact Nat.le_refl _
  | cons _ _ _ ih => exact Nat.succ_le_succ ih

end Woven

/-- Classes and gaps in the right numbers are woven. -/
theorem woven_of_lengths (admitted : ∀ name ∈ classes, admits name)
    (isGap : ∀ gap ∈ gaps, gap.isGap = true) (fewer : gaps.length ≤ classes.length)
    (enough : classes.length ≤ gaps.length + 1) : Woven admits classes gaps := by
  induction classes generalizing gaps with
  | nil =>
    obtain rfl := List.length_eq_zero_iff.mp (Nat.le_zero.mp fewer)
    exact .nil
  | cons name classes ih =>
    obtain ⟨here, later⟩ := List.forall_mem_cons.mp admitted
    cases gaps with
    | nil =>
      obtain rfl := List.length_eq_zero_iff.mp (Nat.le_zero.mp (Nat.le_of_succ_le_succ enough))
      exact .last here
    | cons gap gaps =>
      obtain ⟨first, others⟩ := List.forall_mem_cons.mp isGap
      exact .cons here first
        (ih later others (Nat.le_of_succ_le_succ fewer) (Nat.le_of_succ_le_succ enough))

theorem Woven.mono {admits' : ClassName → Prop} (weaker : ∀ name, admits name → admits' name)
    (woven : Woven admits classes gaps) : Woven admits' classes gaps := by
  induction woven with
  | nil => exact .nil
  | last admitted => exact .last (weaker _ admitted)
  | cons admitted isGap _ ih => exact .cons (weaker _ admitted) isGap ih

end

section

variable {admits : ClassName → Prop} {segments : Segments}

theorem Woven.cases_first (woven : Woven admits segments.classes segments.gaps) :
    segments = ⟨[], []⟩ ∨ (∃ name, admits name ∧ segments = ⟨[name], []⟩) ∨
      ∃ name gap, ∃ rest : Segments, admits name ∧ Text.isGap gap = true ∧
        Woven admits rest.classes rest.gaps ∧ segments = rest.behind name gap := by
  obtain ⟨classes, gaps⟩ := segments
  cases woven with
  | nil => exact .inl rfl
  | @last name admitted => exact .inr (.inl ⟨name, admitted, rfl⟩)
  | @cons name gap classes gaps admitted isGap rest =>
    exact .inr (.inr ⟨name, gap, ⟨classes, gaps⟩, admitted, isGap, rest, rfl⟩)

theorem Woven.cases_last (woven : Woven admits segments.classes segments.gaps) :
    segments = ⟨[], []⟩ ∨ (∃ name, admits name ∧ segments = ⟨[name], []⟩) ∨
      ∃ name gap, ∃ rest : Segments, admits name ∧ Text.isGap gap = true ∧
        Woven admits rest.classes rest.gaps ∧ segments = rest.before name gap := by
  have admitted := woven.admits_all
  have isGap := woven.gaps_isGap
  have fewer := woven.length_le
  have enough := woven.le_length
  obtain ⟨classes, gaps⟩ := segments
  simp only at admitted isGap fewer enough
  rcases List.eq_nil_or_concat' classes with rfl | ⟨restClasses, name, rfl⟩
  · obtain rfl := List.length_eq_zero_iff.mp (Nat.le_zero.mp fewer)
    exact .inl rfl
  · rcases List.eq_nil_or_concat' gaps with rfl | ⟨restGaps, gap, rfl⟩
    · rw [List.length_append] at enough
      obtain rfl := List.length_eq_zero_iff.mp (Nat.le_zero.mp (Nat.le_of_succ_le_succ enough))
      exact .inr (.inl ⟨name, admitted name (by simp), rfl⟩)
    · obtain ⟨restAdmitted, last⟩ := List.forall_mem_append.mp admitted
      obtain ⟨restIsGap, lastIsGap⟩ := List.forall_mem_append.mp isGap
      rw [List.length_append, List.length_append] at fewer enough
      refine .inr (.inr ⟨name, gap, ⟨restClasses, restGaps⟩, last name (by simp),
        lastIsGap gap (by simp), ?_, rfl⟩)
      exact woven_of_lengths restAdmitted restIsGap (Nat.le_of_succ_le_succ fewer)
        (Nat.le_of_succ_le_succ enough)

end

theorem Named.separated {segments : Segments} (named : segments.Named) : segments.Separated :=
  Woven.mono (fun _ word => word.plain) named

/-! ## Joining -/

@[simp] theorem join_nil (gaps : List Text) : join [] gaps = [] := rfl

@[simp] theorem join_cons_nil (name : ClassName) (classes : List ClassName) :
    join (name :: classes) [] = name ++ join classes [] := rfl

@[simp] theorem join_cons_cons (name : ClassName) (classes : List ClassName) (gap : Text)
    (gaps : List Text) :
    join (name :: classes) (gap :: gaps) = name ++ (gap ++ join classes gaps) := rfl

theorem join_of_empty {classes : List ClassName} (allEmpty : ∀ name ∈ classes, name = []) :
    join classes [] = [] := by
  induction classes with
  | nil => rfl
  | cons name classes ih =>
    obtain ⟨rfl, later⟩ := List.forall_mem_cons.mp allEmpty
    exact ih later

theorem toText_behind (name : ClassName) (gap : Text) (segments : Segments) :
    (segments.behind name gap).toText = name ++ (gap ++ segments.toText) := rfl

/-- A class at the end comes behind the gap at the end, if every other gap has its class. -/
theorem toText_before (name : ClassName) (gap : Text) {segments : Segments}
    (paired : segments.classes.length = segments.gaps.length + 1) :
    (segments.before name gap).toText = segments.toText ++ (gap ++ name) := by
  obtain ⟨classes, gaps⟩ := segments
  simp only [before, toText] at paired ⊢
  induction classes generalizing gaps with
  | nil => cases paired
  | cons first classes ih =>
    cases gaps with
    | nil =>
      obtain rfl := List.length_eq_zero_iff.mp (Nat.succ.inj paired)
      simp
    | cons firstGap gaps =>
      have later := ih gaps (Nat.succ.inj paired)
      simp [later]

/-- A class at the end comes in front of its gap, if every gap has its class. -/
theorem toText_before_gap (name : ClassName) (gap : Text) {segments : Segments}
    (paired : segments.classes.length = segments.gaps.length) :
    (segments.before name gap).toText = segments.toText ++ (name ++ gap) := by
  obtain ⟨classes, gaps⟩ := segments
  simp only [before, toText] at paired ⊢
  induction classes generalizing gaps with
  | nil =>
    obtain rfl := List.length_eq_zero_iff.mp paired.symm
    simp
  | cons first classes ih =>
    cases gaps with
    | nil => cases paired
    | cons firstGap gaps =>
      have later := ih gaps (Nat.succ.inj paired)
      simp [later]

/-- Gaps keep classes apart: the words of the text are the classes that are not empty. -/
theorem Separated.words_toText {segments : Segments} (separated : segments.Separated) :
    Text.words segments.toText = segments.classes.filter fun name => !name.isEmpty := by
  obtain ⟨classes, gaps⟩ := segments
  simp only [Separated, toText] at separated ⊢
  induction separated with
  | nil => exact Text.words_nil
  | @last name plain =>
    rw [join_cons_nil, join_nil, List.append_nil, Text.words_of_isPlain plain]
    cases name <;> rfl
  | @cons name gap classes gaps plain isGap _ ih =>
    rw [join_cons_cons, Text.words_append_gap _ _ isGap, ih, Text.words_of_isPlain plain]
    cases name <;> rfl

theorem Named.words_toText {segments : Segments} (named : segments.Named) :
    Text.words segments.toText = segments.classes := by
  refine named.separated.words_toText.trans (List.filter_eq_self.mpr fun name member => ?_)
  simpa using (named.admits_all name member).ne_nil

theorem blanksSeparate_join {classes : List ClassName} {gaps : List Text}
    (separate : ∀ name ∈ classes, name.BlanksSeparate) (isGap : ∀ gap ∈ gaps, gap.isGap = true) :
    Text.BlanksSeparate (join classes gaps) := by
  induction classes generalizing gaps with
  | nil => exact Text.isSpace_nil.blanksSeparate
  | cons name classes ih =>
    obtain ⟨here, later⟩ := List.forall_mem_cons.mp separate
    cases gaps with
    | nil => exact Text.blanksSeparate_append.mpr ⟨here, ih later isGap⟩
    | cons gap gaps =>
      obtain ⟨first, others⟩ := List.forall_mem_cons.mp isGap
      exact Text.blanksSeparate_append.mpr ⟨here, Text.blanksSeparate_append.mpr
        ⟨(Text.isSpace_of_isGap first).blanksSeparate, ih later others⟩⟩

theorem blanksSeparate_of_join {classes : List ClassName} {gaps : List Text}
    (separate : Text.BlanksSeparate (join classes gaps)) :
    ∀ name ∈ classes, name.BlanksSeparate := by
  induction classes generalizing gaps with
  | nil => simp
  | cons name classes ih =>
    cases gaps with
    | nil =>
      obtain ⟨here, later⟩ := Text.blanksSeparate_append.mp separate
      exact List.forall_mem_cons.mpr ⟨here, ih later⟩
    | cons gap gaps =>
      obtain ⟨here, behind⟩ := Text.blanksSeparate_append.mp separate
      exact List.forall_mem_cons.mpr ⟨here, ih (Text.blanksSeparate_append.mp behind).2⟩

theorem Named.startsApart_toText {segments : Segments} (named : segments.Named) :
    Text.startsApart segments.toText = false := by
  obtain ⟨classes, gaps⟩ := segments
  cases named with
  | nil => rfl
  | last word => simpa [toText] using word.plain.startsApart
  | cons word _ _ =>
    rw [toText, join_cons_cons, Text.startsApart_append _ word.ne_nil, word.plain.startsApart]

theorem Named.toText_ne_nil {segments : Segments} (named : segments.Named)
    (ne_nil : segments.classes ≠ []) : segments.toText ≠ [] := by
  intro empty
  apply ne_nil
  rw [← named.words_toText, empty, Text.words_nil]

/-- The text ends with a separator if there is a gap behind the last class. -/
theorem Named.endsApart_toText {segments : Segments} (named : segments.Named) :
    Text.endsApart segments.toText = true ↔
      segments.classes ≠ [] ∧ segments.gaps.length = segments.classes.length := by
  obtain ⟨classes, gaps⟩ := segments
  simp only [Named, toText] at named ⊢
  induction named with
  | nil => simp
  | last word => simp [word.plain.endsApart]
  | @cons name gap classes gaps word isGap woven ih =>
    cases classes with
    | nil =>
      obtain rfl := List.length_eq_zero_iff.mp (Nat.le_zero.mp woven.length_le)
      have ends := Text.endsApart_of_isGap isGap
      have gap_ne_nil := (Text.isGap_iff.mp isGap).1
      rw [join_cons_cons, join_nil, List.append_nil, Text.endsApart_append _ gap_ne_nil]
      simpa using ends
    | cons next classes =>
      have later : join (next :: classes) gaps ≠ [] :=
        Named.toText_ne_nil (show Named ⟨next :: classes, gaps⟩ from woven) (List.cons_ne_nil _ _)
      rw [join_cons_cons, Text.endsApart_append _ (by simp [later]),
        Text.endsApart_append _ later, ih]
      simp

theorem Named.not_endsApart {segments : Segments} (named : segments.Named)
    (unpaired : segments.gaps.length ≠ segments.classes.length) :
    Text.endsApart segments.toText = false := by
  cases ends : Text.endsApart segments.toText with
  | false => rfl
  | true => exact (unpaired (named.endsApart_toText.mp ends).2).elim

end Segments

end ClassTidy
