import ClassTidy.Text.Basic

/-!
# Lines

Text that is read from a file or a stream first has its line ends unified to line feeds. It is
then cut into lines, either at line feeds alone or at every line boundary.
-/

set_option autoImplicit false

namespace ClassTidy.Text

/-- The line boundaries: line feed, carriage return, line tabulation, form feed, three of the
information separators, next line, and the line and paragraph separators. -/
def isLineBoundary (c : Char) : Bool :=
  c == '\n' || c == '\r' || c == '\x0b' || c == '\x0c' || c == '\x1c' || c == '\x1d' ||
    c == '\x1e' || c == '\x85' || c == '\u2028' || c == '\u2029'

/-- Every carriage return, with the line feed that may follow it, becomes one line feed. -/
def unifyLineEnds : Text → Text
  | [] => []
  | '\r' :: '\n' :: rest => '\n' :: unifyLineEnds rest
  | c :: rest => (if c = '\r' then '\n' else c) :: unifyLineEnds rest

/-- Cut a text after each character that ends a line. The ends are dropped, and there is no line
after the last end. -/
def linesBy (ends : Char → Bool) : Text → List Text
  | [] => []
  | c :: rest =>
    if ends c then
      [] :: linesBy ends rest
    else
      match linesBy ends rest with
      | [] => [[c]]
      | line :: lines => (c :: line) :: lines

def boundaryLines (text : Text) : List Text := linesBy isLineBoundary text

/-- The lines of a text with unified line ends, cut at line feeds only. -/
def feedLines (text : Text) : List Text := linesBy (· == '\n') text

end ClassTidy.Text
