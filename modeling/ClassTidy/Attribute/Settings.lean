/-!
# Settings for sorting an attribute

Some settings belong to the tool as a whole and take precedence; the others may differ from one
attribute to the next.
-/

set_option autoImplicit false

namespace ClassTidy

inductive Spacing where
  | verbatim
  /-- Every gap becomes one space; the space at the start and the one at the end may be dropped. -/
  | collapsed (dropStart dropEnd : Bool)
  deriving DecidableEq

def Spacing.isCollapsed : Spacing → Bool
  | .verbatim => false
  | .collapsed _ _ => true

structure Options where
  preserveSpacing : Bool := false
  preserveCopies : Bool := false
  multiline : Bool := false
  /-- The least number of classes that are broken into lines. -/
  multilineLeast : Int := 5
  deriving DecidableEq

structure Treatment where
  keepFirst : Bool := false
  keepLast : Bool := false
  dropCopies : Bool := true
  spacing : Spacing := .collapsed true true
  deriving DecidableEq

end ClassTidy
