/-!
# Text

The library reads and writes text character by character, so a text is the list of its
characters. `String` is left to literals and to the outer layer.
-/

set_option autoImplicit false

namespace ClassTidy

/-- A text, as the sequence of its characters. -/
abbrev Text := List Char

/-- Whether a character lies in one of a table's closed ranges of code points. -/
def inRanges (ranges : List (Nat × Nat)) (c : Char) : Bool :=
  ranges.any fun range => range.1 ≤ c.toNat && c.toNat ≤ range.2

end ClassTidy
