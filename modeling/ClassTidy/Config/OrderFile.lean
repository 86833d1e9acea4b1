import ClassTidy.Files.Source
import ClassTidy.Text.Blank

/-!
# Order files

An order file holds one class name on a line, in canonical order. White space around a name does
not count, and lines without a name or with a `#` in front are skipped.
-/

set_option autoImplicit false

namespace ClassTidy.OrderFile

/-- The class name on a line, unless the line is blank or a comment. -/
def name? (line : Text) : Option Text :=
  match line.strip with
  | [] => none
  | c :: rest => if c = '#' then none else some (c :: rest)

def names (text : Text) : List Text := text.boundaryLines.filterMap name?

def read (source : Source) (path : Text) : Except Fault (List Text) :=
  names <$> source.text path

end ClassTidy.OrderFile
