import ClassTidy.Proofs.Class.Order
import ClassTidy.Proofs.Class.Position
import ClassTidy.Proofs.Number.Value

/-!
# Rankings that agree

Arranging asks of ranks only which classes are known and which of two classes comes first. Two
rankings that agree on this for the classes of a list arrange it alike, though the numbers differ.
So do a canonical order and one with more members, as long as none of the classes is among those.
-/

set_option autoImplicit false

namespace ClassTidy

theorem Arrangement.dropCopies_map {f : Ranked → Ranked} {items : List Ranked}
    (sameName : ∀ item ∈ items, (f item).name = item.name)
    (sameKnown : ∀ item ∈ items, (f item).rank.isSome = item.rank.isSome)
    (seen : List ClassName) (position : Nat) :
    dropCopies seen position (items.map f) = dropCopies seen position items := by
  induction items generalizing seen position with
  | nil => rfl
  | cons item rest ih =>
    obtain ⟨itemName, restName⟩ := List.forall_mem_cons.mp sameName
    obtain ⟨itemKnown, restKnown⟩ := List.forall_mem_cons.mp sameKnown
    simp only [List.map_cons, dropCopies, itemName, itemKnown, ih restName restKnown]

theorem Ranked.precedes_congr {a b a' b' : Ranked} (nameA : a.name = a'.name)
    (nameB : b.name = b'.name) (knownA : a.rank.isSome = a'.rank.isSome)
    (knownB : b.rank.isSome = b'.rank.isSome)
    (compared : ∀ m n m' n', a.rank = some m → b.rank = some n → a'.rank = some m' →
      b'.rank = some n' → (m.order n = .lt ↔ m'.order n' = .lt)) :
    a.precedes b = a'.precedes b' := by
  rw [Bool.eq_iff_iff, precedes, precedes, beq_iff_eq, beq_iff_eq, order, order, nameA, nameB]
  cases a'.name.isEllipsis <;> cases b'.name.isEllipsis <;> try rfl
  have knownOf {rank rank' : Option Number} (same : rank.isSome = rank'.isSome) {number : Number}
      (known : rank' = some number) : ∃ number, rank = some number :=
    Option.isSome_iff_exists.mp (by rw [same, known]; rfl)
  cases rankA' : a'.rank with
  | none =>
    have rankA : a.rank = none := by simpa [rankA'] using knownA
    cases rankB' : b'.rank with
    | none =>
      have rankB : b.rank = none := by simpa [rankB'] using knownB
      rw [rankA, rankB]
    | some n' =>
      obtain ⟨n, rankB⟩ := knownOf knownB rankB'
      rw [rankA, rankB]
  | some m' =>
    obtain ⟨m, rankA⟩ := knownOf knownA rankA'
    cases rankB' : b'.rank with
    | none =>
      have rankB : b.rank = none := by simpa [rankB'] using knownB
      rw [rankA, rankB]
    | some n' =>
      obtain ⟨n, rankB⟩ := knownOf knownB rankB'
      rw [rankA, rankB]
      exact compared m n m' n' rankA rankB rankA' rankB'

namespace Ranking

/-- Whether two rankings know the same of these classes and put them in the same order. -/
structure AgreesOn (ranking other : Ranking) (classes : List ClassName) : Prop where
  known : ∀ name ∈ classes, (ranking.rank name).isSome = (other.rank name).isSome
  precedes : ∀ a ∈ classes, ∀ b ∈ classes,
    (ranking.ranked a).precedes (ranking.ranked b) = (other.ranked a).precedes (other.ranked b)

namespace AgreesOn

variable {ranking other : Ranking} {classes : List ClassName}

theorem subset (agrees : ranking.AgreesOn other classes) {some : List ClassName}
    (subset : some ⊆ classes) : ranking.AgreesOn other some where
  known name member := agrees.known name (subset member)
  precedes a memberA b memberB := agrees.precedes a (subset memberA) b (subset memberB)

theorem standing_le_iff (agrees : ranking.AgreesOn other classes) {a b : ClassName}
    (memberA : a ∈ classes) (memberB : b ∈ classes) :
    (ranking.ranked a).standing ≤ (ranking.ranked b).standing ↔
      (other.ranked a).standing ≤ (other.ranked b).standing := by
  rw [← precedes_eq_false_iff, ← precedes_eq_false_iff, agrees.precedes b memberB a memberA]

theorem sorted_map_arrange (agrees : ranking.AgreesOn other classes) :
    Ranked.scale.Sorted
      ((arrange other.ranker classes).map fun item => ranking.ranked item.name) := by
  refine ⟨List.forall_mem_map.mpr fun item _ => ranking.ranked_isNumeric item.name, ?_⟩
  refine List.pairwise_map.mpr ((other.arrange_sorts classes).sorted.rising.imp_of_mem ?_)
  intro a b memberA memberB rising
  obtain ⟨classA, rankedA⟩ := other.of_mem_arrange memberA
  obtain ⟨classB, rankedB⟩ := other.of_mem_arrange memberB
  rw [← rankedA, ← rankedB] at rising
  exact (agrees.standing_le_iff classA classB).mpr rising

theorem rearranges_map_arrange (agrees : ranking.AgreesOn other classes) :
    Ranked.scale.Rearranges (ranking.ranker classes)
      ((arrange other.ranker classes).map fun item => ranking.ranked item.name) := by
  have sorts := other.arrange_sorts classes
  have ranked : ranking.ranker classes =
      (other.ranker classes).map fun item => ranking.ranked item.name := by
    rw [ranker, ranker, List.map_map]
    rfl
  rw [ranked]
  refine ⟨sorts.perm.map _, fun k _ => ?_⟩
  rw [List.filter_map, List.filter_map]
  refine congrArg _ (sorts.toRearranges.filter_eq Ranked.scale_level ?_)
  intro a memberA b memberB placeA placeB
  obtain ⟨classA, rankedA⟩ := other.of_mem_arrange (sorts.mem_iff.mp memberA)
  obtain ⟨classB, rankedB⟩ := other.of_mem_arrange (sorts.mem_iff.mp memberB)
  have together := (of_decide_eq_true placeA).trans (of_decide_eq_true placeB).symm
  rw [← rankedA, ← rankedB]
  exact le_antisymm ((agrees.standing_le_iff classA classB).mp together.le)
    ((agrees.standing_le_iff classB classA).mp together.ge)

/-- Ranked by the one, classes that were arranged by the other are arranged. -/
theorem map_arrange (agrees : ranking.AgreesOn other classes) :
    (arrange other.ranker classes).map (fun item => ranking.ranked item.name) =
      arrange ranking.ranker classes :=
  agrees.sorted_map_arrange.eq_of_rearranges Ranked.scale_level
    (ranking.arrange_sorts classes).sorted
    (agrees.rearranges_map_arrange.symm.trans (ranking.arrange_sorts classes).toRearranges)

theorem ofClasses (agrees : ranking.AgreesOn other classes) (dropping : Bool) :
    Arrangement.ofClasses ranking.ranker dropping classes =
      Arrangement.ofClasses other.ranker dropping classes := by
  rw [Arrangement.ofClasses, Arrangement.ofClasses, ← agrees.map_arrange, List.map_map]
  cases dropping with
  | false => rfl
  | true =>
    rw [if_pos rfl, if_pos rfl]
    refine Arrangement.dropCopies_map (f := fun item => ranking.ranked item.name)
      (fun _ _ => rfl) (fun item member => ?_) _ _
    obtain ⟨isClass, ranked⟩ := other.of_mem_arrange member
    rw [← ranked]
    exact agrees.known item.name isClass

end AgreesOn

end Ranking

/-! ## Canonical orders -/

theorem Number.order_int_eq_lt_iff {m n : Int} : (Number.int m).order (.int n) = .lt ↔ m < n := by
  have unit_pos : (0 : Int) < Binary64.unitsInOne := by exact_mod_cast Binary64.unitsInOne_pos
  rw [Number.order, Number.place?, Number.place?]
  exact compare_lt_iff_lt.trans (Int.mul_lt_mul_right unit_pos)

namespace CanonicalOrder

theorem ranking_rank (order : CanonicalOrder) (name : ClassName) :
    order.ranking.rank name = (order.position? name.base).map fun place =>
      .int (name.variants * order.members.length + place : Nat) := by
  simp only [ranking, rank?]
  cases order.position? name.base <;> rfl

/-- The numbers of two orders may differ for classes with variants, but they compare alike. -/
theorem ranking_agreesOn {order other : CanonicalOrder} {classes : List ClassName}
    (same : ∀ name ∈ classes, order.position? name.base = other.position? name.base) :
    order.ranking.AgreesOn other.ranking classes := by
  have known : ∀ name ∈ classes,
      (order.ranking.rank name).isSome = (other.ranking.rank name).isSome := by
    intro name member
    rw [ranking_rank, ranking_rank, Option.isSome_map, Option.isSome_map, same name member]
  refine ⟨known, fun a memberA b memberB => ?_⟩
  refine Ranked.precedes_congr rfl rfl (known a memberA) (known b memberB) ?_
  intro m n m' n' rankA rankB rankA' rankB'
  simp only [Ranking.ranked, ranking_rank, Option.map_eq_some_iff] at rankA rankB rankA' rankB'
  obtain ⟨placeA, placedA, rfl⟩ := rankA
  obtain ⟨placeB, placedB, rfl⟩ := rankB
  obtain ⟨placeA', placedA', rfl⟩ := rankA'
  obtain ⟨placeB', placedB', rfl⟩ := rankB'
  obtain rfl : placeA = placeA' :=
    Option.some_inj.mp (placedA.symm.trans ((same a memberA).trans placedA'))
  obtain rfl : placeB = placeB' :=
    Option.some_inj.mp (placedB.symm.trans ((same b memberB).trans placedB'))
  rw [Number.order_int_eq_lt_iff, Number.order_int_eq_lt_iff, Nat.cast_lt, Nat.cast_lt,
    mul_add_lt_iff (place?_lt placedA) (place?_lt placedB),
    mul_add_lt_iff (place?_lt placedA') (place?_lt placedB')]

/-- Members that are added do not change the position of what was a member or is none of them. -/
theorem position?_append {values more : List Value} {base : Text}
    (listedBefore : .text base ∈ more → .text base ∈ values) :
    (listed (values ++ more)).position? base = (listed values).position? base := by
  by_cases member : .text base ∈ values
  · exact place?_append_of_mem rfl member more
  · have absent : ∀ other ∈ values ++ more, other.same (.text base) = false := by
      intro other isMember
      rw [← Bool.not_eq_true, Value.same_text_iff]
      rintro rfl
      rcases List.mem_append.mp isMember with isValue | isMore
      · exact member isValue
      · exact member (listedBefore isMore)
    exact (place?_eq_none absent).trans
      (place?_eq_none fun other isValue => absent other (List.mem_append_left _ isValue)).symm

/-- Members that were there before have no effect when they are added again. -/
theorem listed_append_filter (values more : List Value) :
    listed (values ++ more.filter fun value => !values.any (·.same value)) =
      listed (values ++ more) := by
  have known : ∀ value, values.any (·.same value) = true →
      (Value.distinct values).any (·.same value) = true :=
    fun value again => (Value.any_same_distinct values value).trans again
  rw [listed, listed, Value.distinct_append, Value.distinct_append,
    Value.distinctFrom_filter more known]

end CanonicalOrder

end ClassTidy
