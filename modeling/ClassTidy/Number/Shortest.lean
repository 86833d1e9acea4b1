import ClassTidy.Number.Binary64
import ClassTidy.Text.Basic

/-!
# The written form of a floating-point number

A finite number is written with the fewest digits that read back to it; of the candidates with
that many digits the nearest is taken, an even last digit deciding a tie. Reading back rounds to
nearest, so the numbers that read back form an interval around the value.
-/

set_option autoImplicit false

namespace ClassTidy

structure Decimal where
  digits : Nat
  exponent : Int
  deriving DecidableEq

namespace Decimal

/-- Compare a decimal with a number of quarters of a unit, exactly. -/
def compareQuarters (decimal : Decimal) (quarters : Nat) : Ordering :=
  compare (decimal.digits * Nat.pow 10 decimal.exponent.toNat * (4 * Binary64.unitsInOne))
    (quarters * Nat.pow 10 (-decimal.exponent).toNat)

/-- Move the zeros at the end of the digits into the exponent. A number that is not zero has at
most as many such zeros as it has bits. -/
def dropZeros (decimal : Decimal) : Decimal :=
  (List.range decimal.digits.log2).foldl
    (fun decimal _ =>
      if decimal.digits % 10 = 0 then ⟨decimal.digits / 10, decimal.exponent + 1⟩ else decimal)
    decimal

end Decimal

namespace Binary64

/-- Whether a decimal reads back to the size of a finite number. Halfway to a neighbour, reading
goes to the number with the even fraction. Below a power of two the neighbour is nearer. -/
def readsBack (x : Binary64) (decimal : Decimal) : Bool :=
  let below := if x.fraction = 0 && x.field > 1 then x.spacing else 2 * x.spacing
  let low := decimal.compareQuarters (4 * x.magnitude - below)
  let high := decimal.compareQuarters (4 * x.magnitude + 2 * x.spacing)
  let even := x.fraction % 2 == 0
  (low == .gt || (even && low == .eq)) && (high == .lt || (even && high == .eq))

/-- The least exponent `k` for which the number is below `10 ^ k`. -/
def scale (x : Binary64) : Int :=
  let above (k : Int) : Bool := Decimal.compareQuarters ⟨1, k⟩ (4 * x.magnitude) == .gt
  (((List.range 640).map fun n : Nat => (n : Int) - 330).find? above).getD 310

/-- The neighbours of the size on the grid of multiples of `10 ^ exponent`, the nearer first. -/
def gridNeighbours (x : Binary64) (exponent : Int) : List Decimal :=
  let value := x.magnitude * Nat.pow 10 (-exponent).toNat
  let grid := Nat.pow 10 exponent.toNat * unitsInOne
  let floor := value / grid
  let upperFirst :=
    match compare (2 * value) ((2 * floor + 1) * grid) with
    | .lt => false
    | .eq => floor % 2 == 1
    | .gt => true
  if upperFirst then [⟨floor + 1, exponent⟩, ⟨floor, exponent⟩]
  else [⟨floor, exponent⟩, ⟨floor + 1, exponent⟩]

/-- The shortest decimal that reads back to the size of a finite number other than zero.
Seventeen digits always suffice. -/
def shortest (x : Binary64) : Decimal :=
  let scale := x.scale
  let candidates := (List.range 17).flatMap fun n : Nat => x.gridNeighbours (scale - (n + 1))
  ((candidates.find? x.readsBack).getD ⟨x.magnitude * Nat.pow 5 1074, -1074⟩).dropZeros

/-- How a decimal is laid out: positionally if its leading digit stands for at least `10 ^ (-4)`
and for less than `10 ^ 16`, and then with a digit on either side of the point; otherwise with a
signed exponent of at least two digits. -/
def layOut (decimal : Decimal) : Text :=
  let digits := Nat.toDigits 10 decimal.digits
  let leading := decimal.exponent + digits.length - 1
  if -4 ≤ leading && leading < 16 then
    if leading < 0 then
      '0' :: '.' :: (List.replicate (-leading - 1).toNat '0' ++ digits)
    else
      let whole := leading.toNat + 1
      let padded := digits ++ List.replicate (whole - digits.length) '0'
      let decimals := padded.drop whole
      padded.take whole ++ '.' :: (if decimals.isEmpty then ['0'] else decimals)
  else
    let exponent := Nat.toDigits 10 leading.natAbs
    let exponentDigits := List.replicate (2 - exponent.length) '0' ++ exponent
    let mantissa := match digits with
      | first :: second :: rest => first :: '.' :: second :: rest
      | short => short
    mantissa ++ 'e' :: (if leading < 0 then '-' else '+') :: exponentDigits

def written (x : Binary64) : Text :=
  let sign : Text := if x.isNegative then ['-'] else []
  if x.isNaN then "nan".toList
  else if x.isInfinite then sign ++ "inf".toList
  else if x.magnitude = 0 then sign ++ "0.0".toList
  else sign ++ layOut x.shortest

end Binary64

end ClassTidy
