import ClassTidy.Number.Numeral
import ClassTidy.Yaml.Scalar

/-!
# Plain scalars

The value of a plain scalar is told by its form: a null, a truth value, an integer or a
floating-point number, or else a text.
-/

set_option autoImplicit false

namespace ClassTidy.Yaml

/-! ## The forms of numbers -/

def isDigit (c : Char) : Bool := '0' ≤ c && c ≤ '9'

def isOctal (c : Char) : Bool := '0' ≤ c && c ≤ '7'

def isBinary (c : Char) : Bool := c == '0' || c == '1'

/-- Whether a text has one character at least, and each of them is a digit or an underscore. -/
def isDigits (digit : Char → Bool) (text : Text) : Bool :=
  !text.isEmpty && text.all fun c => digit c || c == '_'

/-- The value of digits in a base. Underscores between them have no meaning. -/
def digitsValue (base : Nat) (digits : Text) : Nat :=
  digits.foldl (fun total c => ((hexValue? c).map (total * base + ·)).getD total) 0

def colonParts : Text → List Text
  | [] => [[]]
  | c :: rest =>
    if c = ':' then [] :: colonParts rest
    else
      match colonParts rest with
      | [] => [[c]]
      | part :: others => (c :: part) :: others

/-- Whether a part of a number in base sixty, other than the first, is one. -/
def isSixtieth : Text → Bool
  | [c] => isDigit c
  | [c, d] => '0' ≤ c && c ≤ '5' && isDigit d
  | _ => false

/-- The parts of a number in base sixty: two at least, and the first of them digits. -/
def sixtieths? (text : Text) : Option (List Text) :=
  match colonParts text with
  | first :: second :: others =>
    if (first.head?.map isDigit).getD false && isDigits isDigit first &&
        (second :: others).all isSixtieth then
      some (first :: second :: others)
    else none
  | _ => none

/-- The value of the digits of a decimal integer, of which there must not be too many. -/
def decimalValue (digits : Text) : Except Fault Nat :=
  let count := (digits.filter isDigit).length
  if count > Numeral.mostDigits then .error (.longNumeral count) else .ok (digitsValue 10 digits)

/-- The size of an integer without its sign: in base two behind `0b`, sixteen behind `0x`, eight
behind a zero, ten, or sixty with colons. Behind `0b` and `0x` there may be no digit at all. -/
def integer? : Text → Option (Except Fault Nat)
  | ['0'] => some (.ok 0)
  | '0' :: 'b' :: digits =>
    if isDigits isBinary digits then
      some (if digits.any isBinary then .ok (digitsValue 2 digits) else .error (.noDigits 2))
    else none
  | '0' :: 'x' :: digits =>
    if isDigits (fun c => (hexValue? c).isSome) digits then
      some (if digits.any (· != '_') then .ok (digitsValue 16 digits) else .error (.noDigits 16))
    else none
  | '0' :: digits => if isDigits isOctal digits then some (.ok (digitsValue 8 digits)) else none
  | text =>
    if (text.head?.map isDigit).getD false && isDigits isDigit text then
      some (decimalValue text)
    else
      (sixtieths? text).map fun parts =>
        parts.foldlM (fun total part => (total * 60 + ·) <$> decimalValue part) 0

/-- The floating-point number nearest to `digits * 10 ^ exponent`. Exponents far out of range are
told from the number of digits alone. -/
def nearest (digits : Nat) (exponent : Int) : Binary64 :=
  let size := exponent + (Nat.toDigits 10 digits).length
  if digits = 0 || size < -400 then ⟨0⟩
  else if size > 400 then Binary64.infinity false
  else ⟨(Float.ofScientific digits (exponent < 0) exponent.natAbs).toBits⟩

/-- A signed exponent behind an `e`, or nothing. -/
def exponent? : Text → Option Int
  | [] => some 0
  | mark :: sign :: digits =>
    if (mark = 'e' || mark = 'E') && !digits.isEmpty && digits.all isDigit then
      if sign = '+' then some (digitsValue 10 digits)
      else if sign = '-' then some (-(digitsValue 10 digits : Int))
      else none
    else none
  | _ => none

def pointed (whole fraction : Text) (exponent : Int) : Binary64 :=
  let decimals := fraction.filter isDigit
  nearest (digitsValue 10 (whole ++ decimals)) (exponent - decimals.length)

/-- The size of a floating-point number with a point, without its sign. Digits have to stand in
front of the point, or else behind it and then no sign in front. -/
def decimal? (signed : Bool) (text : Text) : Option Binary64 :=
  let whole := text.takeWhile (· != '.')
  match text.dropWhile (· != '.') with
  | '.' :: rest =>
    let inFraction (c : Char) : Bool := isDigit c || c == '_'
    let fraction := rest.takeWhile inFraction
    let wellFormed :=
      if whole.isEmpty then !signed && (fraction.head?.map isDigit).getD false
      else (whole.head?.map isDigit).getD false && isDigits isDigit whole
    if wellFormed then (exponent? (rest.dropWhile inFraction)).map (pointed whole fraction)
    else none
  | _ => none

/-- The size of a floating-point number in base sixty, without its sign. The parts are added up
from the last to the first, rounding each time, and the weight of the first has to be in range. -/
def sixtiethDecimal? (text : Text) : Option (Except Fault Binary64) :=
  match text.dropWhile (· != '.') with
  | '.' :: fraction =>
    if fraction.all fun c => isDigit c || c == '_' then do
      let parts ← sixtieths? (text.takeWhile (· != '.'))
      let number (part decimals : Text) : Float := Float.ofBits (pointed part decimals 0).bits
      let numbers := match parts.reverse with
        | last :: others => number last fraction :: others.map fun part => number part []
        | [] => []
      let sum := numbers.foldl
        (fun (total, weight) part => (total + part * Float.ofNat weight, weight * 60)) (0, 1)
      let heaviest := Nat.pow 60 (parts.length - 1)
      return if heaviest.log2 < 1024 then .ok ⟨sum.1.toBits⟩ else .error .outOfRange
    else none
  | _ => none

def float? (text : Text) : Option (Except Fault Binary64) :=
  if [".nan", ".NaN", ".NAN"].any (·.toList == text) then some (.ok Binary64.notANumber)
  else
    let (negative, size) := Numeral.splitSign text
    let signed := size.length != text.length
    let found :=
      if [".inf", ".Inf", ".INF"].any (·.toList == size) then
        some (.ok (Binary64.infinity false))
      else ((decimal? signed size).map .ok).or (sixtiethDecimal? size)
    found.map fun size => size.map fun size => if negative then size.negate else size

/-- The value of a plain scalar. A lone `=` and a lone `<<` are reserved and have no value. -/
def plainValue (text : Text) : Except Fault Value :=
  let isOneOf (words : List String) : Bool := words.any (·.toList == text)
  if isOneOf ["=", "<<"] then .error .malformed
  else if isOneOf ["", "~", "null", "Null", "NULL"] then .ok .null
  else if isOneOf ["yes", "Yes", "YES", "true", "True", "TRUE", "on", "On", "ON"] then
    .ok (.bool true)
  else if isOneOf ["no", "No", "NO", "false", "False", "FALSE", "off", "Off", "OFF"] then
    .ok (.bool false)
  else
    match float? text with
    | some value => value.map fun value => .number (.float value)
    | none =>
      let (negative, size) := Numeral.splitSign text
      match integer? size with
      | some size => size.map fun size => .number (.int (if negative then -size else size))
      | none => .ok (.text text)

end ClassTidy.Yaml
