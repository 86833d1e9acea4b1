import ClassTidy.Proofs.Class.Blocks
import ClassTidy.Proofs.Class.Order

/-!
# Ties

Arranging a list of classes forgets the order in which they were given, except among ties: unknown
classes, ellipses, and known classes of one value. Two lists are arranged alike just when they agree
on these, and then the same copies are dropped.
-/

set_option autoImplicit false

namespace ClassTidy

namespace Ranked

/-- Whether a class is known and has a rank of this value. -/
def hasValue (value : ExtendedRat) (item : Ranked) : Bool :=
  item.isKnown && decide (item.value = value)

theorem filter_isKnown_value (items : List Ranked) (value : ExtendedRat) :
    ((items.filter isKnown).filter fun item => item.value = value) =
      items.filter (hasValue value) := by
  simp only [List.filter_filter, Bool.and_comm]
  rfl

/-- What a list ascends to depends on the order among its classes of one value only. -/
theorem Ascends.congr {items others ordered : List Ranked} (ascends : Ascends items ordered)
    (same : ∀ value, (items.filter fun item => item.value = value) =
      others.filter fun item => item.value = value) : Ascends others ordered := by
  have rearranges : valueScale.Rearranges items others := .of_filters same
  constructor
  · exact ascends.perm.trans rearranges.perm
  · exact ascends.rising
  · exact fun value => (ascends.stable value).trans (same value)

end Ranked

namespace Ranking

/-- Whether two lists have the same unknown classes, the same ellipses, and for each value the same
known classes of that value, each in the same order. -/
structure TiesAlike (ranking : Ranking) (classes others : List ClassName) : Prop where
  unknown : (classes.filter fun name => (ranking.ranked name).isUnknown) =
    others.filter fun name => (ranking.ranked name).isUnknown
  ellipses : classes.filter (·.isEllipsis) = others.filter (·.isEllipsis)
  tied : ∀ value, (classes.filter fun name => (ranking.ranked name).hasValue value) =
    others.filter fun name => (ranking.ranked name).hasValue value

/-- Whether all classes of a list are known, and different ones have ranks of different values. -/
structure Separates (ranking : Ranking) (classes : List ClassName) : Prop where
  known : ∀ name ∈ classes, (ranking.ranked name).isKnown = true
  apart : ∀ a ∈ classes, ∀ b ∈ classes, a ≠ b → (ranking.ranked a).value ≠ (ranking.ranked b).value

variable {ranking : Ranking} {classes others : List ClassName}

/-- Classes are ranked by name, so with ranks two lists differ no more than without. -/
theorem filter_ranker_eq_iff (test : Ranked → Bool) :
    (ranking.ranker classes).filter test = (ranking.ranker others).filter test ↔
      (classes.filter fun name => test (ranking.ranked name)) =
        others.filter fun name => test (ranking.ranked name) := by
  have injective : Function.Injective ranking.ranked := fun _ _ same => congrArg Ranked.name same
  simp only [ranker, List.filter_map]
  exact injective.list_map.eq_iff

theorem TiesAlike.arrange (alike : ranking.TiesAlike classes others) :
    arrange ranking.ranker classes = arrange ranking.ranker others := by
  have sorts := ranking.arrange_sorts classes
  have othersSorts := ranking.arrange_sorts others
  have unknown := (filter_ranker_eq_iff Ranked.isUnknown).mpr alike.unknown
  have ellipses : (ranking.ranker classes).filter (·.name.isEllipsis) =
      (ranking.ranker others).filter (·.name.isEllipsis) :=
    (filter_ranker_eq_iff _).mpr alike.ellipses
  have known : Ranked.Ascends ((ranking.ranker others).filter Ranked.isKnown)
      ((ClassTidy.arrange ranking.ranker classes).filter Ranked.isKnown) := by
    refine (Ranked.ascends_of_sorts sorts).congr fun value => ?_
    simp only [Ranked.filter_isKnown_value]
    exact (filter_ranker_eq_iff _).mpr (alike.tied value)
  rw [Ranked.arrange_eq_blocks, Ranked.arrange_eq_blocks ranking.ranker others, unknown, ellipses,
    known.unique (Ranked.ascends_of_sorts othersSorts)]

theorem tiesAlike_of_arrange
    (same : arrange ranking.ranker classes = arrange ranking.ranker others) :
    ranking.TiesAlike classes others := by
  have sorts := ranking.arrange_sorts classes
  have othersSorts := ranking.arrange_sorts others
  rw [← same] at othersSorts
  constructor
  · have unknown := congrArg (List.filter Ranked.isUnknown) same
    rw [Ranked.filter_isUnknown_arrange, Ranked.filter_isUnknown_arrange] at unknown
    exact (filter_ranker_eq_iff _).mp unknown
  · have ellipses := congrArg (List.filter (·.name.isEllipsis)) same
    rw [Ranked.filter_isEllipsis_arrange, Ranked.filter_isEllipsis_arrange] at ellipses
    exact (filter_ranker_eq_iff _).mp ellipses
  · intro value
    have known := ((Ranked.ascends_of_sorts sorts).stable value).symm.trans
      ((Ranked.ascends_of_sorts othersSorts).stable value)
    simp only [Ranked.filter_isKnown_value] at known
    exact (filter_ranker_eq_iff _).mp known

/-- Dropping copies looks at arranged classes only. -/
theorem TiesAlike.ofClasses (alike : ranking.TiesAlike classes others) (dropping : Bool) :
    Arrangement.ofClasses ranking.ranker dropping classes =
      Arrangement.ofClasses ranking.ranker dropping others := by
  simp only [Arrangement.ofClasses, alike.arrange]

/-- Without ties between different classes the order of a list does not matter at all: only copies
of one class stand together. -/
theorem Separates.tiesAlike (separates : ranking.Separates classes) (perm : classes.Perm others) :
    ranking.TiesAlike classes others := by
  have filter_eq (test : ClassName → Bool)
      (single : ∀ a ∈ classes, ∀ b ∈ classes, test a = true → test b = true → a = b) :
      classes.filter test = others.filter test := by
    have unordered (names : List ClassName) : names.Pairwise fun _ _ => True :=
      List.pairwise_of_forall fun _ _ => trivial
    refine (perm.filter test).eq_of_pairwise ?_ (unordered _) (unordered _)
    intro a b memberA memberB _ _
    obtain ⟨inA, testA⟩ := List.mem_filter.mp memberA
    obtain ⟨inB, testB⟩ := List.mem_filter.mp memberB
    exact single a inA b (perm.mem_iff.mpr inB) testA testB
  constructor
  · refine filter_eq _ fun a memberA _ _ unknown => ?_
    have known := separates.known a memberA
    simp [Ranked.isKnown, Ranked.isUnknown] at known unknown
    simp [unknown.2] at known
  · refine filter_eq _ fun a memberA _ _ ellipsis => ?_
    have known := separates.known a memberA
    simp [Ranked.isKnown, ranked, ellipsis] at known
  · intro value
    refine filter_eq _ fun a memberA b memberB valueA valueB => ?_
    simp only [Ranked.hasValue, Bool.and_eq_true, decide_eq_true_eq] at valueA valueB
    by_contra different
    exact separates.apart a memberA b memberB different (valueA.2.trans valueB.2.symm)

/-- Two lists are arranged alike just when they agree among ties, and then the same copies are
dropped. Two orders of one list are, if no different classes in it tie. -/
theorem arrange_eq_arrange_iff (ranking : Ranking) (classes others : List ClassName) :
    (arrange ranking.ranker classes = arrange ranking.ranker others ↔
      ranking.TiesAlike classes others) ∧
    (ranking.TiesAlike classes others → ∀ dropping,
      Arrangement.ofClasses ranking.ranker dropping classes =
        Arrangement.ofClasses ranking.ranker dropping others) ∧
    ∀ listed, ranking.Separates listed → classes.Perm listed → others.Perm listed →
      arrange ranking.ranker classes = arrange ranking.ranker others ∧ ∀ dropping,
        Arrangement.ofClasses ranking.ranker dropping classes =
          Arrangement.ofClasses ranking.ranker dropping others := by
  refine ⟨⟨tiesAlike_of_arrange, TiesAlike.arrange⟩, TiesAlike.ofClasses, ?_⟩
  intro listed separates perm othersPerm
  have alike := separates.tiesAlike perm.symm
  have othersAlike := separates.tiesAlike othersPerm.symm
  refine ⟨alike.arrange.symm.trans othersAlike.arrange, fun dropping => ?_⟩
  exact (alike.ofClasses dropping).symm.trans (othersAlike.ofClasses dropping)

theorem letters_separates : CanonicalOrder.letters.ranking.Separates [['b'], ['a'], ['b']] where
  known := by decide
  apart := by decide

/-- The unknown classes `x` and `y` keep their order and the ellipses theirs; the two known classes
may stand anywhere. -/
theorem arrange_eq_arrange_letters :
    let ranking := CanonicalOrder.letters.ranking
    let classes : List ClassName := [['…'], ['x'], ['b'], ['y'], ['a'], ['.', '.', '.']]
    let others : List ClassName := [['a'], ['x'], ['…'], ['.', '.', '.'], ['b'], ['y']]
    (arrange ranking.ranker classes = arrange ranking.ranker others ∧
      ranking.TiesAlike classes others ∧
      Arrangement.ofClasses ranking.ranker true classes =
        Arrangement.ofClasses ranking.ranker true others) ∧
    ranking.Separates [['b'], ['a'], ['b']] ∧
      arrange ranking.ranker [['a'], ['b'], ['b']] = arrange ranking.ranker [['b'], ['b'], ['a']] := by
  intro ranking classes others
  have arranged : arrange ranking.ranker classes = arrange ranking.ranker others := by
    decide +kernel
  obtain ⟨iff, dropped, -⟩ := arrange_eq_arrange_iff ranking classes others
  have alike := iff.mp arranged
  obtain ⟨-, -, orders⟩ := arrange_eq_arrange_iff ranking [['a'], ['b'], ['b']] [['b'], ['b'], ['a']]
  exact ⟨⟨arranged, alike, dropped alike true⟩, letters_separates,
    (orders _ letters_separates (by decide) (by decide)).1⟩

end Ranking

end ClassTidy
