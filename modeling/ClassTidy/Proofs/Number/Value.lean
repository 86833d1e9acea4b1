import ClassTidy.Number.Basic
import Mathlib.Algebra.Order.Field.Basic
import Mathlib.Algebra.Order.Field.Rat
import Mathlib.Order.WithBot

/-!
# Values

The value of a number is a rational, or an infinity. It is read off an integer, and off the sign,
the exponent and the fraction of a floating-point number, without reference to places. The places
of numbers turn out to be their values in another unit.
-/

set_option autoImplicit false

namespace ClassTidy

/-- The rational numbers with an infinity at either end. -/
abbrev ExtendedRat := WithBot (WithTop ℚ)

namespace Binary64

/-- The size of a finite number. The fraction is a part of one, and one is added to it unless the
exponent is the lowest. -/
def size (x : Binary64) : ℚ :=
  if x.field = 0 then x.fraction / 2 ^ 52 * (2 : ℚ) ^ (-1022 : ℤ)
  else (1 + x.fraction / 2 ^ 52) * (2 : ℚ) ^ ((x.field : ℤ) - 1023)

def value (x : Binary64) : ℚ := if x.isNegative then -x.size else x.size

theorem cast_one_shiftLeft (n : ℕ) : ((1 <<< n : ℕ) : ℚ) = (2 : ℚ) ^ (n : ℤ) := by
  rw [Nat.one_shiftLeft, Nat.cast_pow, Nat.cast_ofNat, zpow_natCast]

theorem unitsInOne_eq : (unitsInOne : ℚ) = (2 : ℚ) ^ (1074 : ℤ) := cast_one_shiftLeft 1074

theorem unitsInOne_pos : (0 : ℚ) < unitsInOne := by
  rw [unitsInOne_eq]
  exact zpow_pos two_pos _

theorem magnitude_eq (x : Binary64) : (x.magnitude : ℚ) = x.size * unitsInOne := by
  have cancel (part : ℚ) : part / 2 ^ 52 * 2 ^ (52 : ℤ) = part :=
    div_mul_cancel₀ part (pow_ne_zero 52 two_ne_zero)
  rw [magnitude, size, unitsInOne_eq]
  split
  next lowest =>
    have exponents : (2 : ℚ) ^ (-1022 : ℤ) * 2 ^ (1074 : ℤ) = 2 ^ (52 : ℤ) := by
      rw [← zpow_add₀ two_ne_zero]
      rfl
    rw [mul_assoc, exponents, cancel]
  next higher =>
    have exponents : (2 : ℚ) ^ ((x.field : ℤ) - 1023) * 2 ^ (1074 : ℤ) =
        2 ^ (52 : ℤ) * x.spacing := by
      rw [spacing, cast_one_shiftLeft, ← zpow_add₀ two_ne_zero, ← zpow_add₀ two_ne_zero]
      congr 1
      omega
    have significand : (1 + x.fraction / 2 ^ 52 : ℚ) * (2 : ℚ) ^ (52 : ℤ) =
        ((1 <<< 52 : ℕ) : ℚ) + x.fraction := by
      rw [add_mul, cancel, cast_one_shiftLeft, one_mul]
      rfl
    rw [mul_assoc, exponents, ← mul_assoc, significand, Nat.cast_mul, Nat.cast_add]

/-- The units of a number measure its value. -/
theorem units_eq (x : Binary64) : (x.units : ℚ) = x.value * unitsInOne := by
  rw [units, value]
  split
  · rw [Int.cast_neg, Int.cast_natCast, magnitude_eq, neg_mul]
  · rw [Int.cast_natCast, magnitude_eq]

end Binary64

/-- The value of a number, unless it is none. -/
def Number.value? : Number → Option ExtendedRat
  | .int value => some ((value : ℚ) : WithTop ℚ)
  | .float x =>
    if x.isNaN then none
    else if x.isInfinite then some (if x.isNegative then ⊥ else ⊤)
    else some ((x.value : ℚ) : WithTop ℚ)

namespace Place

def value : Place → ExtendedRat
  | .negInfinity => ⊥
  | .finite units => ((units / Binary64.unitsInOne : ℚ) : WithTop ℚ)
  | .posInfinity => ⊤

theorem value_finite_le_iff {units units' : ℤ} :
    (finite units).value ≤ (finite units').value ↔ units ≤ units' := by
  rw [value, value, WithBot.coe_le_coe, WithTop.coe_le_coe,
    div_le_div_iff_of_pos_right Binary64.unitsInOne_pos, Int.cast_le]

end Place

/-- The value of a number is that of its place. -/
theorem Number.value?_eq_map_place? (number : Number) :
    number.value? = number.place?.map Place.value := by
  have unit_ne_zero := Binary64.unitsInOne_pos.ne'
  cases number with
  | int value =>
    rw [value?, place?, Option.map_some, Place.value, Int.cast_mul, Int.cast_natCast,
      mul_div_cancel_right₀ _ unit_ne_zero]
  | float x =>
    simp only [value?, place?]
    split
    · rfl
    · split
      · split <;> rfl
      · rw [Option.map_some, Place.value, Binary64.units_eq, mul_div_cancel_right₀ _ unit_ne_zero]

end ClassTidy
