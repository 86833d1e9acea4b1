import ClassTidy.Number.Numeral
import ClassTidy.Number.Shortest

/-!
# Numbers

A number is an integer of any size or a floating-point number. Both have a place on one line,
measured in units of `2 ^ (-1074)` with an infinity at either end, and are compared there: exactly
and never by rounding one to the kind of the other. What is not a number has no place.
-/

set_option autoImplicit false

namespace ClassTidy

/-- A place on the line of numbers. -/
inductive Place where
  | negInfinity
  | finite (units : Int)
  | posInfinity
  deriving DecidableEq

def Place.order : Place → Place → Ordering
  | .negInfinity, .negInfinity => .eq
  | .negInfinity, _ => .lt
  | _, .negInfinity => .gt
  | .posInfinity, .posInfinity => .eq
  | .posInfinity, _ => .gt
  | _, .posInfinity => .lt
  | .finite a, .finite b => compare a b

inductive Number where
  | int (value : Int)
  | float (value : Binary64)
  deriving DecidableEq

namespace Number

/-- Where a number stands on the line, unless it is none. -/
def place? : Number → Option Place
  | .int value => some (.finite (value * Binary64.unitsInOne))
  | .float value =>
    if value.isNaN then none
    else if value.isInfinite then some (if value.isNegative then .negInfinity else .posInfinity)
    else some (.finite value.units)

/-- Which of two numbers is the less. What has no place is neither less nor greater than
anything. -/
def order (a b : Number) : Ordering :=
  match a.place?, b.place? with
  | some p, some q => p.order q
  | _, _ => .eq

/-- Whether two numbers stand at one place. What has no place equals nothing. -/
def same (a b : Number) : Bool :=
  match a.place?, b.place? with
  | some p, some q => p == q
  | _, _ => false

/-- Whether a number is zero, of either sign. -/
def isZero (a : Number) : Bool := a.place? == some (.finite 0)

def isTooLong : Number → Bool
  | .int value => Nat.pow 10 Numeral.mostDigits ≤ value.natAbs
  | .float _ => false

def written : Number → Text
  | .int value =>
    if value < 0 then '-' :: Nat.toDigits 10 value.natAbs else Nat.toDigits 10 value.natAbs
  | .float value => value.written

end Number

end ClassTidy
