import ClassTidy.Class.Category

/-!
# Groups

A list of classes is divided into groups of neighbours of one category. A category comes back in a
later group if other categories stand between.
-/

set_option autoImplicit false

namespace ClassTidy

structure Group where
  category : Category
  classes : List ClassName
  deriving DecidableEq

def Group.cons (name : ClassName) (groups : List Group) : List Group :=
  match groups with
  | group :: others =>
    if group.category = name.category then ⟨group.category, name :: group.classes⟩ :: others
    else ⟨name.category, [name]⟩ :: group :: others
  | [] => [⟨name.category, [name]⟩]

def Group.ofClasses (classes : List ClassName) : List Group := classes.foldr Group.cons []

end ClassTidy
