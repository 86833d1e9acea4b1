import ClassTidy.Text.Basic

/-!
# White space

Two sets of characters are told apart. *Separators* are the five characters that stand between
the classes of an attribute. *Blanks* are all characters with the white-space property, and the
four information separators; the ends of a text are trimmed of blanks. Every separator is a blank.
-/

set_option autoImplicit false

namespace ClassTidy

/-- The characters that separate the classes of an attribute: tab, carriage return, form feed,
line feed and space. -/
def isSeparator (c : Char) : Bool :=
  c == '\t' || c == '\r' || c == '\x0c' || c == '\n' || c == ' '

def blankRanges : List (Nat × Nat) :=
  [(0x09, 0x0D), (0x1C, 0x20), (0x85, 0x85), (0xA0, 0xA0), (0x1680, 0x1680), (0x2000, 0x200A),
   (0x2028, 0x2029), (0x202F, 0x202F), (0x205F, 0x205F), (0x3000, 0x3000)]

/-- White space in the wide sense. -/
def isBlank (c : Char) : Bool := inRanges blankRanges c

/-- A separator is a blank, so trimming blanks from an end leaves no separator there. -/
theorem isBlank_of_isSeparator {c : Char} (separates : isSeparator c = true) :
    isBlank c = true := by
  simp only [isSeparator, Bool.or_eq_true, beq_iff_eq] at separates
  rcases separates with (((rfl | rfl) | rfl) | rfl) | rfl <;> decide

namespace Text

/-- Put `substitute` in place of the blanks at the start, if there are any. -/
def replaceLeading (substitute text : Text) : Text :=
  match text with
  | c :: _ => if isBlank c then substitute ++ text.dropWhile isBlank else text
  | [] => []

/-- Put `substitute` in place of the blanks at the end, if there are any. -/
def replaceTrailing (substitute text : Text) : Text :=
  (replaceLeading substitute.reverse text.reverse).reverse

def strip (text : Text) : Text :=
  ((text.dropWhile isBlank).reverse.dropWhile isBlank).reverse

end Text

end ClassTidy
