import ClassTidy.Class.Rank
import ClassTidy.Sorting.Adaptive

/-!
# Arranging classes

The classes of a list are ranked and sorted, and later copies of known classes may be dropped.
Copies of unknown classes are kept, since an unknown class is never taken note of.
-/

set_option autoImplicit false

namespace ClassTidy

def arrange (ranker : Ranker) (classes : List ClassName) : List Ranked :=
  Sorting.adaptiveSort Ranked.precedes (ranker classes)

/-- A list of classes in order, and the positions, among all classes in order, of those that were
dropped. -/
structure Arrangement where
  classes : List ClassName
  removed : List Nat
  deriving DecidableEq

namespace Arrangement

/-- Walk through ranked classes from a position on, dropping each whose name was seen with a known
rank. -/
def dropCopies (seen : List ClassName) (position : Nat) : List Ranked → Arrangement
  | [] => ⟨[], []⟩
  | item :: rest =>
    if seen.contains item.name then
      let later := dropCopies seen (position + 1) rest
      ⟨later.classes, position :: later.removed⟩
    else
      let seen := if item.rank.isSome then item.name :: seen else seen
      let later := dropCopies seen (position + 1) rest
      ⟨item.name :: later.classes, later.removed⟩

/-- Arrange a list of classes, with or without copies of known classes. -/
def ofClasses (ranker : Ranker) (dropping : Bool) (classes : List ClassName) : Arrangement :=
  let ordered := arrange ranker classes
  if dropping then dropCopies [] 0 ordered else ⟨ordered.map (·.name), []⟩

end Arrangement

end ClassTidy
