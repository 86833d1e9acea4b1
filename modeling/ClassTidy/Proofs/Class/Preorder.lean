import ClassTidy.Proofs.Class.Blocks

/-!
# The comparison as an order

Two numbers compare as their values do, whatever their kinds: no value is rounded on the way. So the
comparison of ranked classes is a total preorder as long as all ranks are numbers. Its greatest
class of ties are the ellipses, and its least are the unknown classes.
-/

set_option autoImplicit false

namespace ClassTidy

/-! ## Numbers -/

theorem Place.order_compares_value (p q : Place) : (p.order q).Compares p.value q.value := by
  have heights := p.order_compares q
  cases result : p.order q with
  | lt =>
    rw [result] at heights
    exact (lt_iff_lt_of_le_iff_le value_le_value_iff).mpr heights
  | eq =>
    rw [result] at heights
    exact le_antisymm (value_le_value_iff.mpr heights.le) (value_le_value_iff.mpr heights.ge)
  | gt =>
    rw [result] at heights
    exact (lt_iff_lt_of_le_iff_le value_le_value_iff).mpr heights

theorem Number.order_compares_value {a b : Number} (numericA : a.isNaN = false)
    (numericB : b.isNaN = false) :
    ∃ v w, a.value? = some v ∧ b.value? = some w ∧ (a.order b).Compares v w := by
  obtain ⟨placeA, placedA⟩ := exists_place numericA
  obtain ⟨placeB, placedB⟩ := exists_place numericB
  refine ⟨placeA.value, placeB.value, ?_, ?_, ?_⟩
  · rw [value?_eq_map_place?, placedA, Option.map_some]
  · rw [value?_eq_map_place?, placedB, Option.map_some]
  · rw [order, placedA, placedB]
    exact placeA.order_compares_value placeB

/-! ## Ranked classes -/

namespace Ranked

/-- Ranked classes without ranks that are no numbers. -/
abbrev Numeric := {item : Ranked // item.IsNumeric}

namespace Numeric

def order (a b : Numeric) : Ordering := a.1.order b.1

theorem order_compares (a b : Numeric) : (order a b).Compares a.1.standing b.1.standing :=
  Ranked.order_compares a.2 b.2

theorem isLE_order_iff {a b : Numeric} :
    (order a b).isLE = true ↔ a.1.standing ≤ b.1.standing := by
  rw [← (order_compares a b).ne_gt]
  cases order a b <;> simp

instance : Std.TransCmp order where
  eq_swap {a b} := (order_compares a b).inj (order_compares b a).swap
  isLE_trans {a b c} := by
    simp only [isLE_order_iff]
    exact le_trans

end Numeric

/-- Whether a comparison of ranked classes is a total preorder, in which the ellipses are the
greatest of the classes that tie with each other and the unknown classes the least. -/
structure IsTotalPreorder (order : Numeric → Numeric → Ordering) : Prop where
  swap : ∀ a b, order a b = (order b a).swap
  trans : ∀ a b c, (order a b).isLE = true → (order b c).isLE = true → (order a c).isLE = true
  ties : Equivalence fun a b => order a b = .eq
  compatible : ∀ a a' b b', order a a' = .eq → order b b' = .eq → order a b = order a' b'
  ellipses : ∀ a b, a.1.name.isEllipsis = true →
    (order b a).isLE = true ∧ (order b a = .eq ↔ b.1.name.isEllipsis = true)
  unknown : ∀ a b, a.1.isUnknown = true →
    (order a b).isLE = true ∧ (order a b = .eq ↔ b.1.isUnknown = true)

theorem block_le_two (item : Ranked) : item.block ≤ 2 := by
  rw [block]
  cases item.name.isEllipsis <;> cases item.rank <;> simp

theorem Numeric.order_isTotalPreorder : IsTotalPreorder order where
  swap _ _ := Std.OrientedCmp.eq_swap
  trans _ _ _ := Std.TransCmp.isLE_trans
  ties := ⟨fun _ => Std.ReflCmp.compare_self, Std.OrientedCmp.eq_symm, Std.TransCmp.eq_trans⟩
  compatible a a' b b' tie tie' :=
    (Std.TransCmp.congr_left tie).trans (Std.TransCmp.congr_right tie')
  ellipses a b ellipsis := by
    rw [isEllipsis_iff_block] at ellipsis ⊢
    rw [order, order_eq_compare_block (by omega), ellipsis, Nat.isLE_compare, Nat.compare_eq_eq]
    exact ⟨b.1.block_le_two, .rfl⟩
  unknown a b unknown := by
    rw [isUnknown_iff_block] at unknown ⊢
    rw [order, order_eq_compare_block (by omega), unknown, Nat.isLE_compare, Nat.compare_eq_eq]
    exact ⟨Nat.zero_le _, eq_comm⟩

/-- Numbers of any kind and size compare as their values do, and so ranked classes are in a total
preorder. -/
theorem order_exact_and_total :
    (∀ a b : Number, a.isNaN = false → b.isNaN = false →
      ∃ v w, a.value? = some v ∧ b.value? = some w ∧ (a.order b).Compares v w) ∧
    IsTotalPreorder Numeric.order :=
  ⟨fun _ _ => Number.order_compares_value, Numeric.order_isTotalPreorder⟩

/-- The least whole number that no floating-point number is equal to, and the floating-point number
it would be rounded to. -/
theorem order_exact_and_total_unrounded :
    let whole : Number := .int 9007199254740993
    let rounded : Number := .float ⟨0x4340000000000000⟩
    (whole.isNaN = false ∧ rounded.isNaN = false) ∧
      (∃ v w, whole.value? = some v ∧ rounded.value? = some w ∧
        (whole.order rounded).Compares v w) ∧
      whole.order rounded = .gt :=
  ⟨⟨rfl, by decide⟩, order_exact_and_total.1 _ _ rfl (by decide), by decide +kernel⟩

/-- The two zeros of floating-point numbers and the whole number zero tie. -/
example :
    (Number.float ⟨0⟩).order (.float ⟨0x8000000000000000⟩) = .eq ∧
      (Number.float ⟨0x8000000000000000⟩).order (.int 0) = .eq := by
  decide +kernel

end Ranked

end ClassTidy
