import ClassTidy.Text.Blank
import ClassTidy.Text.DecimalDigit

/-!
# Whole numerals

Reading an integer from a text: decimal digits of any script, a sign before them, single
underscores between them, white space around all. Of the blanks, the four information separators
do not count as white space here. Numerals of very many digits are neither read nor written.
-/

set_option autoImplicit false

namespace ClassTidy.Numeral

def mostDigits : Nat := 4300

inductive Flaw where
  | malformed
  | tooLong (digits : Nat)
  deriving DecidableEq

def isMargin (c : Char) : Bool := isBlank c && !('\x1c' ≤ c && c ≤ '\x1f')

/-- Whether a character may stand among the digits of a numeral. -/
def isMark (c : Char) : Bool := c == '_' || (digitValue? c).isSome

/-- Whether every underscore among some marks stands between two digits. -/
def isSeparated : Text → Bool
  | [] => true
  | '_' :: _ => false
  | _ :: '_' :: rest => !rest.isEmpty && isSeparated rest
  | _ :: rest => isSeparated rest

/-- The value of digits in a base, the first being the most significant. -/
def value (base : Nat) (digits : List Nat) : Nat :=
  digits.foldl (fun total digit => total * base + digit) 0

/-- The sign in front of a numeral, as whether it is negative, and what follows it. -/
def splitSign : Text → Bool × Text
  | '-' :: rest => (true, rest)
  | '+' :: rest => (false, rest)
  | text => (false, text)

/-- Read a whole numeral in base ten. Its digits are counted before what follows them is looked
at. -/
def read (text : Text) : Except Flaw Int :=
  let (negative, rest) := splitSign (text.dropWhile isMargin)
  let marks := rest.takeWhile isMark
  let digits := marks.filterMap digitValue?
  if !isSeparated marks then .error .malformed
  else if digits.length > mostDigits then .error (.tooLong digits.length)
  else if digits.isEmpty || !(rest.dropWhile isMark).all isMargin then .error .malformed
  else if negative then .ok (-(value 10 digits))
  else .ok (value 10 digits)

end ClassTidy.Numeral
