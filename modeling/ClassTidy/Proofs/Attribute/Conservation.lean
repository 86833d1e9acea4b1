import ClassTidy.Proofs.Attribute.Parts

/-!
# No class is lost

Sorting an attribute conserves its classes in every mode, whatever ranks they are given: those that
come out and those that are reported as dropped are the classes that went in. A kept class comes
through as it is, so only what is sorted between the kept classes has to be accounted for.
-/

set_option autoImplicit false

namespace ClassTidy

open Segments

/-- Only the first class can be empty. -/
theorem Segments.Regular.count_nil_le {segments : Segments} (regular : segments.Regular) :
    segments.classes.count [] ≤ 1 := by
  have none_empty : ∀ {inner : Segments}, inner.Named → inner.classes.count [] = 0 :=
    fun named => List.count_eq_zero.mpr fun member => (named.admits_all [] member).ne_nil rfl
  cases regular with
  | flush named => rw [none_empty named]; exact Nat.zero_le 1
  | indented _ named => rw [behind, List.count_cons_self, none_empty named]

namespace Sorter

/-- The names of the classes that sorting segments drops, one for each position reported. -/
def droppedClasses (sorter : Sorter) (treatment : Treatment) (segments : Segments) :
    List ClassName :=
  Arrangement.droppedNames sorter.ranker
    (treatment.dropCopies && !sorter.options.preserveCopies)
    (segments.middle treatment.keepFirst treatment.keepLast).classes

theorem droppedClasses_of_keeping (sorter : Sorter) {treatment : Treatment}
    (keeping : treatment.dropCopies = false ∨ sorter.options.preserveCopies = true)
    (segments : Segments) : sorter.droppedClasses treatment segments = [] := by
  rcases keeping with keeps | preserves
  · rw [droppedClasses, keeps]
    rfl
  · rw [droppedClasses, preserves, Bool.not_true, Bool.and_false]
    rfl

section

variable {sorter : Sorter} (faithful : sorter.ranker.IsFaithful)
include faithful

/-- A dropped class has a copy that stays, so an empty class is never dropped. -/
theorem nil_not_mem_droppedNames (dropping : Bool) {classes : List ClassName}
    (single : classes.count [] ≤ 1) :
    [] ∉ Arrangement.droppedNames sorter.ranker dropping classes := by
  intro member
  have stays := Arrangement.droppedNames_subset sorter.ranker dropping classes member
  have conserved := (Arrangement.ofClasses_perm sorter.ranker dropping classes).trans
    (faithful classes)
  have copies := conserved.count_eq []
  rw [List.count_append] at copies
  have one := List.count_pos_iff.mpr stays
  have another := List.count_pos_iff.mpr member
  omega

theorem arrangement_conserves (dropping : Bool) {classes : List ClassName}
    (single : classes.count [] ≤ 1) :
    (((Arrangement.ofClasses sorter.ranker dropping classes).classes.filter
        fun name => !name.isEmpty) ++
      Arrangement.droppedNames sorter.ranker dropping classes).Perm
      (classes.filter fun name => !name.isEmpty) := by
  have conserved := (Arrangement.ofClasses_perm sorter.ranker dropping classes).trans
    (faithful classes)
  have named := conserved.filter fun name => !name.isEmpty
  rw [List.filter_append] at named
  have allNamed : (Arrangement.droppedNames sorter.ranker dropping classes).filter
      (fun name => !name.isEmpty) = Arrangement.droppedNames sorter.ranker dropping classes := by
    apply List.filter_eq_self.mpr
    intro name member
    cases name with
    | nil => exact (nil_not_mem_droppedNames faithful dropping single member).elim
    | cons c rest => rfl
  rwa [allNamed] at named

/-- Whether the classes that come out and those that are dropped are those that went in. -/
def Conserves (sorter : Sorter) (treatment : Treatment) (segments : Segments) : Prop :=
  (Text.words (sorter.sortSegments treatment segments) ++
    sorter.droppedClasses treatment segments).Perm
    (segments.classes.filter fun name => !name.isEmpty)

/-- Sorting segments conserves their classes. -/
theorem conserves {treatment : Treatment} {segments : Segments} (separated : segments.Separated)
    (single : segments.classes.count [] ≤ 1)
    (separate : (sorter.spacing treatment).isCollapsed = true →
      ∀ name ∈ segments.classes, name.BlanksSeparate) :
    sorter.Conserves treatment segments := by
  have parts := segments.parts_append treatment.keepFirst treatment.keepLast
  have sublist : (segments.middle treatment.keepFirst treatment.keepLast).classes.Sublist
      segments.classes := by
    rw [← parts]
    exact (List.sublist_append_left _ _).trans (List.sublist_append_right _ _)
  have conserved : (((sorter.arrangement treatment.dropCopies (segments.middle treatment.keepFirst
        treatment.keepLast).classes).classes.filter fun name => !name.isEmpty) ++
      sorter.droppedClasses treatment segments).Perm
      ((segments.middle treatment.keepFirst treatment.keepLast).classes.filter
        fun name => !name.isEmpty) :=
    arrangement_conserves faithful _ ((sublist.count_le []).trans single)
  rw [Conserves, words_sortSegments faithful separated separate, ← parts]
  simp only [List.filter_append, List.append_assoc]
  refine List.Perm.append_left _ (List.Perm.trans ?_ (conserved.append_right _))
  rw [List.append_assoc]
  exact List.perm_append_comm.append_left _

theorem sortCut_conserves {treatment : Treatment} {text : Text} (separate : text.BlanksSeparate) :
    (Text.words (sorter.sortCut treatment text) ++
      sorter.droppedClasses treatment (.ofText text)).Perm (Text.words text) := by
  have regular := ofText_regular text
  have whole : text = (ofText text).toText := (toText_ofText text).symm
  have classesSeparate : ∀ name ∈ (ofText text).classes, name.BlanksSeparate :=
    blanksSeparate_of_join (whole ▸ separate)
  have conserved : sorter.Conserves treatment (ofText text) :=
    conserves faithful regular.separated regular.count_nil_le fun _ => classesSeparate
  have words : Text.words text = (ofText text).classes.filter fun name => !name.isEmpty := by
    rw [← regular.separated.words_toText, toText_ofText]
  rwa [words]

/-- Sorting an attribute conserves its classes: those in the result and those reported as dropped
are those of the attribute, each as often as it stood there. -/
theorem sort_conserves_classes (treatment : Treatment) {text : Text}
    (literal : text.isTemplate = false) (separate : text.BlanksSeparate) :
    (Text.words (sorter.sort treatment text) ++
        sorter.droppedClasses treatment (.ofText text)).Perm (Text.words text) ∧
      (treatment.dropCopies = false ∨ sorter.options.preserveCopies = true →
        (Text.words (sorter.sort treatment text)).Perm (Text.words text)) := by
  have conserved : (Text.words (sorter.sort treatment text) ++
      sorter.droppedClasses treatment (.ofText text)).Perm (Text.words text) := by
    have cutConserved : (Text.words (sorter.sortCut treatment text) ++
        sorter.droppedClasses treatment (.ofText text)).Perm (Text.words text) :=
      sortCut_conserves faithful separate
    by_cases wordless : text.words = []
    · rw [wordless, List.perm_nil, List.append_eq_nil_iff] at cutConserved
      rw [Text.words_of_isSpace (sorter.sort_isSpace treatment (Text.words_eq_nil_iff.mp wordless)),
        cutConserved.2, wordless]
      rfl
    · rwa [sorter.sort_of_words treatment literal wordless]
  refine ⟨conserved, fun keeping => ?_⟩
  rwa [sorter.droppedClasses_of_keeping keeping, List.append_nil] at conserved

end

/-- Ranks each class the same, and answers with the classes in reverse. -/
def reversing : Ranker := fun classes => classes.reverse.map fun name => ⟨name, some (.int 0)⟩

theorem reversing_isFaithful : reversing.IsFaithful := fun classes => by
  rw [reversing, List.map_map]
  exact (List.map_id _).symm ▸ List.reverse_perm classes

/-- Of two copies one stays and one is dropped. -/
theorem sort_conserves_classes_reversing :
    (Text.words (Sorter.sort ⟨reversing, {}⟩ {} ['b', ' ', 'a', '\n', 'b']) ++ [['b']]).Perm
      [['b'], ['a'], ['b']] := by
  obtain ⟨conserved, -⟩ := @sort_conserves_classes ⟨reversing, {}⟩ reversing_isFaithful {}
    ['b', ' ', 'a', '\n', 'b'] (by decide) (by decide)
  have dropped : Sorter.droppedClasses ⟨reversing, {}⟩ {} (ofText ['b', ' ', 'a', '\n', 'b']) =
      [['b']] := by decide +kernel
  have words : Text.words ['b', ' ', 'a', '\n', 'b'] = [['b'], ['a'], ['b']] := by decide
  rwa [dropped, words] at conserved

end Sorter

end ClassTidy
