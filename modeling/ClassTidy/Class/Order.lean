import ClassTidy.Class.Rank
import ClassTidy.Config.Value

/-!
# Canonical orders

A canonical order is a list of values, of which those that are texts name classes. A class ranks by
the position of its base name; each variant puts it one more whole list behind, so every class with
fewer variants ranks before every class with more.
-/

set_option autoImplicit false

namespace ClassTidy

/-- A list of members in their order, each once. Members that are no texts take up positions. -/
structure CanonicalOrder where
  members : List Value

namespace CanonicalOrder

/-- The order in which values first appear in a list. Lists and mappings cannot be members. -/
def ofValues? (values : List Value) : Option CanonicalOrder :=
  if values.any (·.isCompound) then none else some ⟨Value.distinct values⟩

def position? (order : CanonicalOrder) (base : Text) : Option Nat :=
  order.members.findIdx? (·.same (.text base))

def rank? (order : CanonicalOrder) (name : ClassName) : Option Nat :=
  (order.position? name.base).map fun position =>
    name.variants * order.members.length + position

def ranker (order : CanonicalOrder) : Ranker := fun classes =>
  classes.map fun name => ⟨name, (order.rank? name).map fun rank => .int rank⟩

end CanonicalOrder

end ClassTidy
