import ClassTidy.Class.Arrangement
import ClassTidy.Proofs.Sorting.Adaptive
import Mathlib.Data.Prod.Lex
import Mathlib.Order.Compare

/-!
# Where ranked classes stand

All ranked classes whose ranks are numbers stand on one scale: unknown classes at its bottom, known
ones by their ranks, and ellipses at its top. The comparison says no more than which of two classes
stands lower, so arranging classes sorts them by where they stand and keeps ties in order.
-/

set_option autoImplicit false

namespace ClassTidy

def Number.isNaN : Number → Bool
  | .int _ => false
  | .float value => value.isNaN

theorem Number.place?_eq_none_iff {number : Number} :
    number.place? = none ↔ number.isNaN = true := by
  cases number with
  | int value => simp [Number.place?, Number.isNaN]
  | float value =>
    simp only [Number.place?, Number.isNaN]
    cases value.isNaN with
    | true => simp
    | false => cases value.isInfinite <;> simp

theorem Number.exists_place {number : Number} (numeric : number.isNaN = false) :
    ∃ place, number.place? = some place := by
  rw [← Option.ne_none_iff_exists', Ne, place?_eq_none_iff, numeric]
  exact Bool.false_ne_true

/-- How high a place is, between the bottom `(0, 0)` and the top `(4, 0)`. -/
def Place.height : Place → ℕ ×ₗ ℤ
  | .negInfinity => toLex (1, 0)
  | .finite units => toLex (2, units)
  | .posInfinity => toLex (3, 0)

theorem Place.order_compares (p q : Place) : (p.order q).Compares p.height q.height := by
  cases p <;> cases q
  case finite.finite units units' =>
    have compares := cmp_compares units units'
    rw [cmp_eq_compare] at compares
    cases result : compare units units' <;>
      simpa [order, height, result, Prod.Lex.toLex_lt_toLex] using compares
  all_goals simp [order, height, Prod.Lex.toLex_lt_toLex]

theorem Place.bottom_lt_height (p : Place) : toLex (0, 0) < p.height := by
  cases p <;> simp [Place.height, Prod.Lex.toLex_lt_toLex]

theorem Place.height_lt_top (p : Place) : p.height < toLex (4, 0) := by
  cases p <;> simp [Place.height, Prod.Lex.toLex_lt_toLex]

namespace Ranked

/-- Whether the rank of a class, if it has one, is a number. -/
def IsNumeric (item : Ranked) : Prop := ∀ number, item.rank = some number → number.isNaN = false

def standing (item : Ranked) : ℕ ×ₗ ℤ :=
  if item.name.isEllipsis then toLex (4, 0)
  else
    match item.rank.bind Number.place? with
    | none => toLex (0, 0)
    | some place => place.height

theorem bottom_le_standing (item : Ranked) : toLex (0, 0) ≤ item.standing := by
  unfold standing
  split
  · simp [Prod.Lex.toLex_le_toLex]
  · split
    · exact le_refl _
    · exact (Place.bottom_lt_height _).le

theorem standing_of_ellipsis {item : Ranked} (ellipsis : item.name.isEllipsis = true) :
    item.standing = toLex (4, 0) := by
  rw [standing, if_pos ellipsis]

theorem standing_lt_top {item : Ranked} (plain : item.name.isEllipsis = false) :
    item.standing < toLex (4, 0) := by
  rw [standing, if_neg (by simp [plain])]
  split
  · simp [Prod.Lex.toLex_lt_toLex]
  · exact Place.height_lt_top _

theorem standing_of_unknown {item : Ranked} (plain : item.name.isEllipsis = false)
    (unknown : item.rank = none) : item.standing = toLex (0, 0) := by
  rw [standing, if_neg (by simp [plain]), unknown]
  rfl

/-- A known class that is no ellipsis stands at the place of its rank. -/
theorem exists_standing_eq_height {item : Ranked} {number : Number}
    (plain : item.name.isEllipsis = false) (known : item.rank = some number)
    (numeric : item.IsNumeric) :
    ∃ place, number.place? = some place ∧ item.standing = place.height := by
  obtain ⟨place, placed⟩ := Number.exists_place (numeric number known)
  refine ⟨place, placed, ?_⟩
  rw [standing, if_neg (by simp [plain]), known, Option.bind_some, placed]

/-- The comparison says how two classes stand to each other on the scale. -/
theorem order_compares {a b : Ranked} (numericA : a.IsNumeric) (numericB : b.IsNumeric) :
    (a.order b).Compares a.standing b.standing := by
  rw [order]
  cases ellipsisA : a.name.isEllipsis with
  | true =>
    cases ellipsisB : b.name.isEllipsis with
    | true => simp [standing_of_ellipsis ellipsisA, standing_of_ellipsis ellipsisB]
    | false => simpa [standing_of_ellipsis ellipsisA] using standing_lt_top ellipsisB
  | false =>
    cases ellipsisB : b.name.isEllipsis with
    | true => simpa [standing_of_ellipsis ellipsisB] using standing_lt_top ellipsisA
    | false =>
      cases rankA : a.rank with
      | none =>
        rw [standing_of_unknown ellipsisA rankA]
        cases rankB : b.rank with
        | none => simp [standing_of_unknown ellipsisB rankB]
        | some numberB =>
          obtain ⟨placeB, -, standingB⟩ := exists_standing_eq_height ellipsisB rankB numericB
          simpa [standingB] using placeB.bottom_lt_height
      | some numberA =>
        obtain ⟨placeA, placedA, standingA⟩ := exists_standing_eq_height ellipsisA rankA numericA
        rw [standingA]
        cases rankB : b.rank with
        | none => simpa [standing_of_unknown ellipsisB rankB] using placeA.bottom_lt_height
        | some numberB =>
          obtain ⟨placeB, placedB, standingB⟩ := exists_standing_eq_height ellipsisB rankB numericB
          simpa [Number.order, placedA, placedB, standingB] using placeA.order_compares placeB

theorem precedes_iff {a b : Ranked} (numericA : a.IsNumeric) (numericB : b.IsNumeric) :
    a.precedes b = true ↔ a.standing < b.standing := by
  rw [precedes, beq_iff_eq]
  exact (order_compares numericA numericB).eq_lt

def scale : Sorting.Scale precedes (ℕ ×ₗ ℤ) where
  valid := IsNumeric
  place := standing
  le_of_lt numericA numericB less := ((precedes_iff numericA numericB).mp less).le
  le_of_not_lt numericA numericB notLess := by
    by_contra higher
    rw [(precedes_iff numericA numericB).mpr (not_le.mp higher)] at notLess
    cases notLess

theorem scale_level (k : ℕ ×ₗ ℤ) : scale.Level k := by
  intro a b numericA numericB placeA placeB
  by_contra less
  have lower := (precedes_iff numericA numericB).mp (by simpa using less)
  exact lower.ne (placeA.trans placeB.symm)

end Ranked

end ClassTidy
