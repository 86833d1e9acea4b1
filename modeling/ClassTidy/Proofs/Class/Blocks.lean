import ClassTidy.Proofs.Class.Arrangement
import ClassTidy.Proofs.Number.Value

/-!
# The three blocks

Arranged classes come in three blocks: the unknown ones, the known ones and the ellipses. Within the
first and the last block the order is that of the ranker's answer, whatever the ranks are: the
comparison goes by the blocks even where a rank is no number and ties with all others. If all ranks
are numbers, the known classes ascend by value, those of one value in the order of the answer, and
no other list is of this shape.
-/

set_option autoImplicit false

namespace ClassTidy

theorem Place.value_le_value_iff {p q : Place} : p.value ≤ q.value ↔ p.height ≤ q.height := by
  cases p with
  | negInfinity => cases q <;> simp [value, height, Prod.Lex.toLex_le_toLex]
  | posInfinity => cases q <;> simp [value, height, Prod.Lex.toLex_le_toLex]
  | finite units =>
    cases q with
    | negInfinity => simp [value, height, Prod.Lex.toLex_le_toLex]
    | posInfinity => simp [value, height, Prod.Lex.toLex_le_toLex]
    | finite units' =>
      rw [value_finite_le_iff]
      simp [height, Prod.Lex.toLex_le_toLex]

namespace Ranked

def isUnknown (item : Ranked) : Bool := !item.name.isEllipsis && item.rank.isNone

def isKnown (item : Ranked) : Bool := !item.name.isEllipsis && item.rank.isSome

/-- Which of the three blocks a class belongs to. -/
def block (item : Ranked) : ℕ :=
  match item.name.isEllipsis, item.rank with
  | true, _ => 2
  | false, some _ => 1
  | false, none => 0

theorem isUnknown_iff_block {item : Ranked} : item.isUnknown = true ↔ item.block = 0 := by
  rw [isUnknown, block]
  cases item.name.isEllipsis <;> cases item.rank <;> simp

theorem isKnown_iff_block {item : Ranked} : item.isKnown = true ↔ item.block = 1 := by
  rw [isKnown, block]
  cases item.name.isEllipsis <;> cases item.rank <;> simp

theorem isEllipsis_iff_block {item : Ranked} : item.name.isEllipsis = true ↔ item.block = 2 := by
  rw [block]
  cases item.name.isEllipsis <;> cases item.rank <;> simp

/-- Ranks play a part only between two known classes. -/
theorem order_eq_compare_block {a b : Ranked} (notBoth : a.block ≠ 1 ∨ b.block ≠ 1) :
    a.order b = compare a.block b.block := by
  revert notBoth
  rw [order, block, block]
  cases a.name.isEllipsis <;> cases b.name.isEllipsis <;> cases a.rank <;> cases b.rank <;>
    simp <;> rfl

theorem precedes_of_block_lt {a b : Ranked} (less : a.block < b.block) : a.precedes b = true := by
  rw [precedes, order_eq_compare_block (by omega), beq_iff_eq, compare_lt_iff_lt]
  exact less

theorem not_precedes_of_block_lt {a b : Ranked} (less : a.block < b.block) :
    b.precedes a = false := by
  rw [precedes, order_eq_compare_block (by omega), beq_eq_false_iff_ne, Ne, compare_lt_iff_lt]
  exact less.not_gt

/-- The blocks are a scale for all classes, also for those whose rank is no number. -/
def blockScale : Sorting.Scale precedes ℕ where
  valid _ := True
  place := block
  le_of_lt _ _ less := by
    by_contra above
    rw [not_precedes_of_block_lt (not_le.mp above)] at less
    cases less
  le_of_not_lt _ _ notLess := by
    by_contra below
    rw [precedes_of_block_lt (not_le.mp below)] at notLess
    cases notLess

/-- Only among known classes the comparison tells more than the blocks. -/
theorem blockScale_level {k : ℕ} (other : k ≠ 1) : blockScale.Level k := by
  rintro a b - - rfl (same : b.block = a.block)
  rw [precedes, order_eq_compare_block (.inl other), same, compare_eq_iff_eq.mpr rfl]
  rfl

theorem blocks_of_sorted {items : List Ranked} (sorted : blockScale.Sorted items) :
    items.filter isUnknown ++ (items.filter isKnown ++ items.filter (·.name.isEllipsis)) =
      items := by
  have unknownApart : items.filter isUnknown ++ items.filter (fun item => !item.isUnknown) =
      items := by
    refine sorted.filter_append fun a _ b _ below unknown => ?_
    rw [isUnknown_iff_block] at unknown ⊢
    exact Nat.le_zero.mp (unknown ▸ below)
  have knownApart : (items.filter fun item => !item.isUnknown).filter isKnown ++
      (items.filter fun item => !item.isUnknown).filter (fun item => !item.isKnown) =
        items.filter fun item => !item.isUnknown := by
    refine (sorted.sublist List.filter_sublist).filter_append fun a memberA b _ below known => ?_
    have above : a.block ≠ 0 := by
      simpa [← isUnknown_iff_block] using (List.mem_filter.mp memberA).2
    have atMost : a.block ≤ b.block := below
    rw [isKnown_iff_block] at known ⊢
    omega
  have known : (fun item : Ranked => item.isKnown && !item.isUnknown) = isKnown := by
    funext item
    simp only [isUnknown, isKnown]
    cases item.name.isEllipsis <;> cases item.rank <;> rfl
  have ellipsis : (fun item : Ranked => !item.isKnown && !item.isUnknown) =
      fun item => item.name.isEllipsis := by
    funext item
    simp only [isUnknown, isKnown]
    cases item.name.isEllipsis <;> cases item.rank <;> rfl
  rw [List.filter_filter, List.filter_filter, known, ellipsis] at knownApart
  rw [knownApart, unknownApart]

section

variable (ranker : Ranker) (classes : List ClassName)

theorem arrange_sorts_blocks : blockScale.Sorts (ranker classes) (arrange ranker classes) :=
  Sorting.adaptiveSort_sorts fun _ _ => trivial

theorem filter_isUnknown_arrange :
    (arrange ranker classes).filter isUnknown = (ranker classes).filter isUnknown := by
  have unknown : isUnknown = fun item => decide (blockScale.place item = 0) :=
    funext fun item => Bool.eq_iff_iff.mpr (isUnknown_iff_block.trans decide_eq_true_iff.symm)
  rw [unknown]
  exact ((arrange_sorts_blocks ranker classes).level 0 (blockScale_level (by decide))).symm

theorem filter_isEllipsis_arrange :
    (arrange ranker classes).filter (·.name.isEllipsis) =
      (ranker classes).filter (·.name.isEllipsis) := by
  have ellipsis : (·.name.isEllipsis) = fun item => decide (blockScale.place item = 2) :=
    funext fun item => Bool.eq_iff_iff.mpr (isEllipsis_iff_block.trans decide_eq_true_iff.symm)
  rw [ellipsis]
  exact ((arrange_sorts_blocks ranker classes).level 2 (blockScale_level (by decide))).symm

theorem arrange_eq_blocks :
    arrange ranker classes = (ranker classes).filter isUnknown ++
      ((arrange ranker classes).filter isKnown ++
        (ranker classes).filter (·.name.isEllipsis)) := by
  have whole := blocks_of_sorted (arrange_sorts_blocks ranker classes).sorted
  rw [filter_isUnknown_arrange, filter_isEllipsis_arrange] at whole
  exact whole.symm

end

/-- The value of the rank. Classes whose rank has none are not told apart. -/
def value (item : Ranked) : ExtendedRat := (item.rank.bind Number.value?).getD ⊥

/-- Whether a list holds the given classes by ascending value, and those of one value in the given
order. -/
structure Ascends (items ordered : List Ranked) : Prop where
  perm : ordered.Perm items
  rising : ordered.Pairwise fun a b => a.value ≤ b.value
  stable : ∀ value, (ordered.filter fun item => item.value = value) =
    items.filter fun item => item.value = value

def valueScale : Sorting.Scale (fun a b : Ranked => decide (a.value < b.value)) ExtendedRat where
  valid _ := True
  place := value
  le_of_lt _ _ less := (of_decide_eq_true less).le
  le_of_not_lt _ _ notLess := not_lt.mp (of_decide_eq_false notLess)

theorem valueScale_level (v : ExtendedRat) : valueScale.Level v := by
  intro a b _ _ placeA placeB
  have same : a.value = b.value := placeA.trans placeB.symm
  simp [same]

theorem Ascends.sorts {items ordered : List Ranked} (ascends : Ascends items ordered) :
    valueScale.Sorts items ordered where
  perm := ascends.perm.symm
  level value _ := (ascends.stable value).symm
  sorted := ⟨fun _ _ => trivial, ascends.rising⟩

theorem Ascends.unique {items ordered ordered' : List Ranked} (ascends : Ascends items ordered)
    (ascends' : Ascends items ordered') : ordered = ordered' :=
  ascends.sorts.sorted.eq_of_rearranges valueScale_level ascends'.sorts.sorted
    (ascends.sorts.toRearranges.symm.trans ascends'.sorts.toRearranges)

/-! ## Known classes on the scale -/

theorem exists_place_of_isKnown {item : Ranked} (numeric : item.IsNumeric)
    (known : item.isKnown = true) :
    ∃ place : Place, item.value = place.value ∧ item.standing = place.height := by
  simp only [isKnown, Bool.and_eq_true, Bool.not_eq_true'] at known
  obtain ⟨plain, ranked⟩ := known
  obtain ⟨number, rank⟩ := Option.isSome_iff_exists.mp ranked
  obtain ⟨place, placed, standing⟩ := exists_standing_eq_height plain rank numeric
  refine ⟨place, ?_, standing⟩
  rw [value, rank, Option.bind_some, Number.value?_eq_map_place?, placed]
  rfl

theorem value_le_value_iff {a b : Ranked} (numericA : a.IsNumeric) (numericB : b.IsNumeric)
    (knownA : a.isKnown = true) (knownB : b.isKnown = true) :
    a.value ≤ b.value ↔ a.standing ≤ b.standing := by
  obtain ⟨placeA, valueA, standingA⟩ := exists_place_of_isKnown numericA knownA
  obtain ⟨placeB, valueB, standingB⟩ := exists_place_of_isKnown numericB knownB
  rw [valueA, valueB, standingA, standingB, Place.value_le_value_iff]

theorem value_eq_value_iff {a b : Ranked} (numericA : a.IsNumeric) (numericB : b.IsNumeric)
    (knownA : a.isKnown = true) (knownB : b.isKnown = true) :
    a.value = b.value ↔ a.standing = b.standing := by
  rw [le_antisymm_iff, le_antisymm_iff, value_le_value_iff numericA numericB knownA knownB,
    value_le_value_iff numericB numericA knownB knownA]

theorem ascends_of_sorts {items ordered : List Ranked} (sorts : scale.Sorts items ordered) :
    Ascends (items.filter isKnown) (ordered.filter isKnown) := by
  have numeric : ∀ item ∈ ordered, item.IsNumeric := sorts.sorted.valid
  constructor
  · exact (sorts.perm.filter _).symm
  · refine (sorts.sorted.rising.sublist List.filter_sublist).imp_of_mem ?_
    intro a b memberA memberB below
    obtain ⟨inA, knownA⟩ := List.mem_filter.mp memberA
    obtain ⟨inB, knownB⟩ := List.mem_filter.mp memberB
    exact (value_le_value_iff (numeric a inA) (numeric b inB) knownA knownB).mpr below
  · intro v
    rw [List.filter_filter, List.filter_filter]
    refine (sorts.filter_eq scale_level ?_).symm
    intro a memberA b memberB testA testB
    simp only [Bool.and_eq_true, decide_eq_true_eq] at testA testB
    have numericA := numeric a (sorts.mem_iff.mp memberA)
    have numericB := numeric b (sorts.mem_iff.mp memberB)
    exact (value_eq_value_iff numericA numericB testA.2 testB.2).mp (testA.1.trans testB.1.symm)

end Ranked

/-- Whatever the ranks are, the unknown classes come first and the ellipses last, each in the order
of the answer, and the known classes stand between them in some order. -/
theorem exists_arrange_eq_blocks (ranker : Ranker) (classes : List ClassName) :
    (arrange ranker classes).Perm (ranker classes) ∧
      ∃ known, known.Perm ((ranker classes).filter Ranked.isKnown) ∧
        arrange ranker classes = (ranker classes).filter Ranked.isUnknown ++
          (known ++ (ranker classes).filter (·.name.isEllipsis)) := by
  have perm := arrange_perm ranker classes
  exact ⟨perm, _, perm.filter _, Ranked.arrange_eq_blocks ranker classes⟩

/-- A rank that is no number ties with all others, so the known classes need not ascend. -/
example :
    let ranker : Ranker := fun _ =>
      [⟨['…'], none⟩, ⟨['a'], some (.int 2)⟩, ⟨['b'], some (.float .notANumber)⟩,
       ⟨['c'], some (.int 1)⟩, ⟨['d'], none⟩]
    (arrange ranker []).map (·.name) = [['d'], ['a'], ['b'], ['c'], ['…']] := by
  decide +kernel

/-- A list is the arrangement of ranked classes just when it holds the unknown ones in their order,
then the known ones by ascending value, and then the ellipses in their order. -/
theorem arrange_eq_iff {ranker : Ranker} {classes : List ClassName}
    (numeric : ∀ item ∈ ranker classes, item.IsNumeric) {result : List Ranked} :
    arrange ranker classes = result ↔
      ∃ known, Ranked.Ascends ((ranker classes).filter Ranked.isKnown) known ∧
        result = (ranker classes).filter Ranked.isUnknown ++
          (known ++ (ranker classes).filter (·.name.isEllipsis)) := by
  have sorts : Ranked.scale.Sorts (ranker classes) (arrange ranker classes) :=
    Sorting.adaptiveSort_sorts numeric
  have ascends := Ranked.ascends_of_sorts sorts
  have blocks := Ranked.arrange_eq_blocks ranker classes
  constructor
  · rintro rfl
    exact ⟨_, ascends, blocks⟩
  · rintro ⟨known, knownAscends, rfl⟩
    rw [blocks, ascends.unique knownAscends]

/-- Answers with an ellipsis that has a rank, with two classes of one value, a class without a rank
and one that is infinitely low. -/
def mixing : Ranker := fun _ =>
  [⟨['…'], some (.int 1)⟩, ⟨['b'], some (.float ⟨0x4000000000000000⟩)⟩, ⟨['a'], some (.int 2)⟩,
   ⟨['c'], none⟩, ⟨['d'], some (.float (.infinity true))⟩]

theorem mixing_numeric : ∀ item ∈ mixing [], item.IsNumeric := by
  intro item member number known
  simp only [mixing, List.mem_cons, List.not_mem_nil, or_false] at member
  rcases member with rfl | rfl | rfl | rfl | rfl <;> cases known <;> decide

theorem arrange_eq_iff_mixing :
    ∃ known, Ranked.Ascends ((mixing []).filter Ranked.isKnown) known ∧
      [⟨['c'], none⟩, ⟨['d'], some (.float (.infinity true))⟩,
        ⟨['b'], some (.float ⟨0x4000000000000000⟩)⟩, ⟨['a'], some (.int 2)⟩,
        ⟨['…'], some (.int 1)⟩] =
      (mixing []).filter Ranked.isUnknown ++
        (known ++ (mixing []).filter (·.name.isEllipsis)) :=
  (arrange_eq_iff mixing_numeric).mp (by decide +kernel)

end ClassTidy
