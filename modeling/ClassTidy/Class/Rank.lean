import ClassTidy.Class.Name
import ClassTidy.Number.Basic

/-!
# Ranks

A class may have a rank, which is a number; a class without one is unknown. Unknown classes come
before known ones, and the ellipses come after all others whatever their rank.
-/

set_option autoImplicit false

namespace ClassTidy

structure Ranked where
  name : ClassName
  rank : Option Number
  deriving DecidableEq

/-- What gives the classes of a list their ranks. The answer is taken as it comes: it need not
name the classes that were asked for. -/
abbrev Ranker := List ClassName → List Ranked

/-- The ellipses, in three characters and in one. They stand for an elided part of a list. -/
def ClassName.isEllipsis (name : ClassName) : Bool := name == ['.', '.', '.'] || name == ['…']

namespace Ranked

/-- Which of two ranked classes comes first, as far as that is settled. -/
def order (a b : Ranked) : Ordering :=
  match a.name.isEllipsis, b.name.isEllipsis with
  | true, true => .eq
  | true, false => .gt
  | false, true => .lt
  | false, false =>
    match a.rank, b.rank with
    | none, none => .eq
    | none, some _ => .lt
    | some _, none => .gt
    | some rank, some rank' => rank.order rank'

def precedes (a b : Ranked) : Bool := a.order b == .lt

end Ranked

end ClassTidy
