/-!
# Binary floating-point numbers of 64 bits

A number is kept as its bits, so that every value is told apart from every other, also the two
zeros and the many values that are not numbers. Its size is read as a whole number of units of
`2 ^ (-1074)`, the least positive value: on that scale all finite values are integers.
-/

set_option autoImplicit false

namespace ClassTidy

/-- A binary floating-point number: a sign bit, eleven bits of exponent, 52 bits of fraction. -/
structure Binary64 where
  bits : UInt64
  deriving DecidableEq

namespace Binary64

def unitsInOne : Nat := 1 <<< 1074

def isNegative (x : Binary64) : Bool := x.bits.toNat.testBit 63

def field (x : Binary64) : Nat := (x.bits.toNat >>> 52) % 2048

def fraction (x : Binary64) : Nat := x.bits.toNat % (1 <<< 52)

/-- Whether the bits stand for no number at all. -/
def isNaN (x : Binary64) : Bool := x.field == 2047 && x.fraction != 0

def isInfinite (x : Binary64) : Bool := x.field == 2047 && x.fraction == 0

/-- The distance to the next larger size, in units of `2 ^ (-1074)`. -/
def spacing (x : Binary64) : Nat := 1 <<< (x.field - 1)

/-- The size of a finite number, in units of `2 ^ (-1074)`. -/
def magnitude (x : Binary64) : Nat :=
  if x.field = 0 then x.fraction else ((1 <<< 52) + x.fraction) * x.spacing

/-- The value of a finite number, in units of `2 ^ (-1074)`. -/
def units (x : Binary64) : Int := if x.isNegative then -x.magnitude else x.magnitude

def truncate (x : Binary64) : Int := x.units.tdiv unitsInOne

/-- The value that is not a number and has a sign bit: what dividing two infinities gives. -/
def notANumber : Binary64 := ⟨0xFFF8000000000000⟩

def infinity (negative : Bool) : Binary64 :=
  ⟨if negative then 0xFFF0000000000000 else 0x7FF0000000000000⟩

def negate (x : Binary64) : Binary64 := ⟨x.bits ^^^ 0x8000000000000000⟩

end Binary64

end ClassTidy
