import ClassTidy.Attribute.Segments
import ClassTidy.Attribute.Settings
import ClassTidy.Class.Arrangement
import ClassTidy.Class.Group
import ClassTidy.Config.Value

/-!
# Sorting an attribute

The attribute is cut into segments, the classes are arranged, and the segments are joined again.
The gaps keep their places, except that the gap in front of a dropped class goes with it. The first
and the last class may be kept out of the arrangement, and the rest may be broken into one line for
each group.
-/

set_option autoImplicit false

namespace ClassTidy

/-- What sorts attributes: the ranks of classes and the settings of the tool. -/
structure Sorter where
  ranker : Ranker
  options : Options := {}

/-- Whether an attribute is a template: two opening braces stand side by side in it. The text of a
template is not known yet, so it is left alone. -/
def Text.isTemplate : Text → Bool
  | '\x7b' :: '\x7b' :: _ => true
  | _ :: rest => isTemplate rest
  | [] => false

namespace Segments

def collapse (segments : Segments) : Segments :=
  { segments with gaps := segments.gaps.map fun _ => [' '] }

/-- The first class with the gap behind it, and what is left. -/
def takeFirst (segments : Segments) : Text × Segments :=
  (segments.classes.head?.getD [] ++ segments.gaps.head?.getD [],
    ⟨segments.classes.tail, segments.gaps.tail⟩)

/-- The last class with the last gap in front of it, and what is left. -/
def takeLast (segments : Segments) : Text × Segments :=
  (segments.gaps.getLast?.getD [] ++ segments.classes.getLast?.getD [],
    ⟨segments.classes.dropLast, segments.gaps.dropLast⟩)

/-- The gaps without those in front of dropped classes, counted from `position`. -/
def dropGaps (removed : List Nat) (position : Nat) : List Text → List Text
  | [] => []
  | gap :: gaps =>
    let later := dropGaps removed (position + 1) gaps
    if removed.contains (position + 1) then later else gap :: later

end Segments

/-- Texts with a separator between each two. -/
def Text.intercalate (separator : Char) : List Text → Text
  | [] => []
  | [only] => only
  | first :: rest => first ++ separator :: intercalate separator rest

def Group.lines (classes : List ClassName) : Text :=
  Text.intercalate '\n' <|
    (Group.ofClasses classes).map fun group => Text.intercalate ' ' group.classes

namespace Sorter

/-- The spacing in force: the tool may ask for all white space to be preserved. -/
def spacing (sorter : Sorter) (treatment : Treatment) : Spacing :=
  if sorter.options.preserveSpacing then .verbatim else treatment.spacing

def arrangement (sorter : Sorter) (dropCopies : Bool) (classes : List ClassName) : Arrangement :=
  .ofClasses sorter.ranker (dropCopies && !sorter.options.preserveCopies) classes

def breaksLong (sorter : Sorter) (treatment : Treatment) : Bool :=
  sorter.options.multiline && !treatment.keepFirst && !treatment.keepLast &&
    (sorter.spacing treatment).isCollapsed

def breaksLines (sorter : Sorter) (treatment : Treatment) (classes : List ClassName) : Bool :=
  sorter.breaksLong treatment && sorter.options.multilineLeast ≤ (classes.length : Int)

/-- Sort an attribute that has a class in it. -/
def sortSegments (sorter : Sorter) (treatment : Treatment) (segments : Segments) : Text :=
  let spacing := sorter.spacing treatment
  let segments := if spacing.isCollapsed then segments.collapse else segments
  let (front, segments) := if treatment.keepFirst then segments.takeFirst else ([], segments)
  let (back, segments) := if treatment.keepLast then segments.takeLast else ([], segments)
  let arranged := sorter.arrangement treatment.dropCopies segments.classes
  let gaps := Segments.dropGaps arranged.removed 0 segments.gaps
  let trimmedFront := Text.replaceTrailing [' '] front
  let trimmedBack := Text.replaceLeading [' '] back
  if sorter.breaksLines treatment arranged.classes then
    trimmedFront ++ Group.lines arranged.classes ++ trimmedBack
  else
    let body := Segments.join arranged.classes gaps
    match spacing with
    | .verbatim => front ++ body ++ back
    | .collapsed dropStart dropEnd =>
      let body := Text.replaceLeading (if dropStart then [] else [' ']) body
      let body := Text.replaceTrailing (if dropEnd then [] else [' ']) body
      trimmedFront ++ body ++ trimmedBack

/-- Sort an attribute. An empty attribute and a template stay as they are. -/
def sort (sorter : Sorter) (treatment : Treatment) (text : Text) : Text :=
  if text.isEmpty || text.isTemplate then text
  else if text.isGap then
    if (sorter.spacing treatment).isCollapsed then [' '] else text
  else sorter.sortSegments treatment (.ofText text)

/-- Sort the attribute that a value is. A value that is no text stays as it is. -/
def sortValue (sorter : Sorter) (treatment : Treatment) : Value → Value
  | .text text => .text (sorter.sort treatment text)
  | value => value

end Sorter

end ClassTidy
