import ClassTidy.Proofs.Class.Ties

/-!
# Dropping copies before arranging

Copies of known classes are dropped from the arranged list. Dropping them from the list as it is
given, and arranging what stays, comes to the same: classes of one name stand at one place, where
arranging keeps their order, so the first of them is the first in both lists.
-/

set_option autoImplicit false

namespace ClassTidy

namespace Ranking

variable (ranking : Ranking)

/-- A list of classes without the later copies of its known classes. -/
def withoutCopies : List ClassName → List ClassName
  | [] => []
  | name :: rest =>
    let later := withoutCopies rest
    name :: if (ranking.rank name).isSome then later.filter (· ≠ name) else later

/-- A test that a class fails takes no notice of its copies being gone. -/
private theorem filter_ne_filter {test : ClassName → Bool} {name : ClassName}
    (fails : test name = false) (classes : List ClassName) :
    (classes.filter (· ≠ name)).filter test = classes.filter test := by
  rw [List.filter_filter]
  refine List.filter_congr fun other _ => ?_
  by_cases same : other = name <;> simp [same, fails]

theorem withoutCopies_filter (test : ClassName → Bool) (classes : List ClassName) :
    ranking.withoutCopies (classes.filter test) = (ranking.withoutCopies classes).filter test := by
  induction classes with
  | nil => rfl
  | cons name rest ih =>
    cases passes : test name with
    | true =>
      cases known : (ranking.rank name).isSome <;>
        simp [withoutCopies, known, passes, ih, List.filter_filter, Bool.and_comm]
    | false =>
      have dropped (others : List ClassName) : (name :: others).filter test = others.filter test :=
        List.filter_cons_of_neg (by simp [passes])
      simp only [withoutCopies, dropped, ih]
      split
      · exact (filter_ne_filter passes _).symm
      · rfl

/-- The walk through ranked classes takes those that were not seen before the walk and are no later
copies. -/
theorem kept_ranker (seen classes : List ClassName) :
    Arrangement.kept seen (ranking.ranker classes) =
      ranking.ranker ((ranking.withoutCopies classes).filter (· ∉ seen)) := by
  induction classes generalizing seen with
  | nil => rfl
  | cons name rest ih =>
    have walk : ranking.ranker (name :: rest) = ranking.ranked name :: ranking.ranker rest := rfl
    rw [walk, Arrangement.kept, ih, ih]
    split
    next copy =>
      have met : name ∈ seen := List.contains_iff_mem.mp copy
      have dropped (others : List ClassName) :
          (name :: others).filter (· ∉ seen) = others.filter (· ∉ seen) :=
        List.filter_cons_of_neg (by simp [met])
      rw [withoutCopies, dropped]
      split
      · rw [filter_ne_filter (by simp [met])]
      · rfl
    next new =>
      have fresh : name ∉ seen := fun met => new (List.contains_iff_mem.mpr met)
      cases known : (ranking.rank name).isSome <;>
        simp [withoutCopies, ranked, ranker, known, fresh, List.filter_filter, Bool.and_comm]

theorem count_withoutCopies (name : ClassName) (classes : List ClassName) :
    (ranking.withoutCopies classes).count name =
      if (ranking.rank name).isSome ∧ name ∈ classes then 1 else classes.count name := by
  induction classes with
  | nil => simp [withoutCopies]
  | cons first rest ih =>
    by_cases same : first = name
    · subst same
      cases known : (ranking.rank first).isSome <;>
        simp [withoutCopies, known, ih, List.count_eq_zero]
    · cases known : (ranking.rank first).isSome <;>
        simp [withoutCopies, known, same, Ne.symm same, ih]

variable {ranking} {classes others : List ClassName}

/-- Classes of one name pass a test of where they stand together, so copies may be dropped first. -/
theorem rearranges_withoutCopies
    (rearranges : Ranked.scale.Rearranges (ranking.ranker classes) (ranking.ranker others)) :
    Ranked.scale.Rearranges (ranking.ranker (ranking.withoutCopies classes))
      (ranking.ranker (ranking.withoutCopies others)) := by
  refine .of_filters fun k => (filter_ranker_eq_iff _).mpr ?_
  rw [← withoutCopies_filter, ← withoutCopies_filter]
  exact congrArg ranking.withoutCopies
    ((filter_ranker_eq_iff _).mp (rearranges.level k (Ranked.scale_level k)))

/-- What stays of the arranged classes is what comes of arranging those that are no copies. The walk
through the arranged classes is told by their names, by which they are ranked. -/
theorem kept_arrange (ranking : Ranking) (classes : List ClassName) :
    Arrangement.kept [] (arrange ranking.ranker classes) =
      arrange ranking.ranker (ranking.withoutCopies classes) := by
  have sorts := ranking.arrange_sorts classes
  have sortsFirst := ranking.arrange_sorts (ranking.withoutCopies classes)
  have ordered : ranking.ranker ((arrange ranking.ranker classes).map (·.name)) =
      arrange ranking.ranker classes := ranking.ranker_names_of_sublist (.refl _)
  have kept := ranking.kept_ranker [] ((arrange ranking.ranker classes).map (·.name))
  simp only [ordered, List.not_mem_nil, not_false_eq_true, decide_true, List.filter_true] at kept
  have sorted : Ranked.scale.Sorted (Arrangement.kept [] (arrange ranking.ranker classes)) :=
    sorts.sorted.sublist (Arrangement.kept_sublist _ _)
  refine sorted.eq_of_rearranges Ranked.scale_level sortsFirst.sorted ?_
  rw [kept]
  refine .trans (rearranges_withoutCopies ?_) sortsFirst.toRearranges
  rw [ordered]
  exact sorts.toRearranges.symm

/-- Dropping copies commutes with arranging. Of each known class one copy stays, of each unknown
class all, and nothing is left to arrange or to drop. -/
theorem ofClasses_eq_arrange_withoutCopies (ranking : Ranking) (classes : List ClassName) :
    let arranged := (Arrangement.ofClasses ranking.ranker true classes).classes
    arranged = (arrange ranking.ranker (ranking.withoutCopies classes)).map (·.name) ∧
      (∀ name, arranged.count name =
        if (ranking.rank name).isSome ∧ name ∈ classes then 1 else classes.count name) ∧
      ∀ dropping, Arrangement.ofClasses ranking.ranker dropping arranged = ⟨arranged, []⟩ := by
  intro arranged
  have keptNames : arranged = (Arrangement.kept [] (arrange ranking.ranker classes)).map (·.name) :=
    Arrangement.dropCopies_classes _ _ _
  have names : arranged = (arrange ranking.ranker (ranking.withoutCopies classes)).map (·.name) :=
    ranking.kept_arrange classes ▸ keptNames
  refine ⟨names, fun name => ?_, fun dropping => ?_⟩
  · have perm := (arrange_perm ranking.ranker (ranking.withoutCopies classes)).map (·.name)
    rw [ranker_names, ← names] at perm
    rw [perm.count_eq, count_withoutCopies]
  · cases dropping with
    | true => exact ranking.ofClasses_ofClasses true classes
    | false =>
      have settled : arrange ranking.ranker arranged =
          Arrangement.kept [] (arrange ranking.ranker classes) := by
        rw [keptNames]
        exact ranking.arrange_names_of_sublist (Arrangement.kept_sublist _ _)
      simp only [Arrangement.ofClasses, settled, Bool.false_eq_true, if_false, ← keptNames]

end Ranking

end ClassTidy
