import ClassTidy.Text.Blank
import ClassTidy.Class.Name

/-!
# Segments

An attribute is a sequence of classes with gaps of separators between them. Cutting it keeps the
gaps, so that joining gives the attribute back. A gap at the start has an empty class in front of
it; a gap at the end is simply the last.
-/

set_option autoImplicit false

namespace ClassTidy

/-- The classes of an attribute and its gaps. The gap with a given index follows the class with
that index. -/
structure Segments where
  classes : List ClassName
  gaps : List Text
  deriving DecidableEq

namespace Segments

/-- The text up to the first gap, and the gaps, each with the text up to the next. Of these texts
only the first and the last may be empty. -/
def cut : Text → Text × List (Text × Text)
  | [] => ([], [])
  | c :: rest =>
    if isSeparator c then
      match cut rest with
      | ([], (gap, name) :: more) => ([], (c :: gap, name) :: more)
      | (first, more) => ([], ([c], first) :: more)
    else
      let tail := cut rest
      (c :: tail.1, tail.2)

/-- Cut an attribute into classes and gaps. There is no empty class at the end. -/
def ofText (text : Text) : Segments :=
  let pieces := cut text
  let classes := pieces.1 :: pieces.2.map (·.2)
  ⟨if classes.getLast? = some [] then classes.dropLast else classes, pieces.2.map (·.1)⟩

/-- Join classes and gaps. Gaps without a class are ignored. -/
def join : List ClassName → List Text → Text
  | [], _ => []
  | name :: classes, [] => name ++ join classes []
  | name :: classes, gap :: gaps => name ++ (gap ++ join classes gaps)

def toText (segments : Segments) : Text := join segments.classes segments.gaps

end Segments

/-- Whether a text consists of separators, and of at least one. -/
def Text.isGap (text : Text) : Bool := !text.isEmpty && text.all isSeparator

end ClassTidy
