import ClassTidy.Class.Order
import ClassTidy.Proofs.Class.Arrangement

/-!
# Ranking by a canonical order

A canonical order ranks by name, and its ranks are whole numbers.
-/

set_option autoImplicit false

namespace ClassTidy.CanonicalOrder

def ranking (order : CanonicalOrder) : Ranking where
  rank name := (order.rank? name).map fun rank => .int rank
  numeric known := by
    obtain ⟨rank, -, rfl⟩ := Option.map_eq_some_iff.mp known
    rfl

theorem ranking_ranker (order : CanonicalOrder) : order.ranking.ranker = order.ranker := rfl

/-- An empty class is unknown unless its name is a member. -/
theorem ranking_unnamed {order : CanonicalOrder}
    (absent : ∀ member ∈ order.members, member.same (.text []) = false) :
    order.ranking.rank [] = none := by
  have nowhere : order.position? [] = none :=
    List.findIdx?_eq_none_iff.mpr absent
  have base : ClassName.base [] = [] := rfl
  simp only [ranking, rank?, base, nowhere, Option.map_none]
  rfl

def letters : CanonicalOrder := ⟨[.text ['a'], .text ['b']]⟩

theorem letters_unnamed : letters.ranking.rank [] = none := ranking_unnamed (by decide)

end ClassTidy.CanonicalOrder
