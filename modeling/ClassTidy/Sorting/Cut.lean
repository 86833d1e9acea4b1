/-!
# Cutting a list

A sorted list is cut into the elements that go before something and the elements that go after
it. Both ways to find the cut look at few elements: halving, and galloping from one end with
growing leaps. Every cut loses nothing and reorders nothing.
-/

set_option autoImplicit false

namespace ClassTidy.Sorting

variable {α : Type}

/-- Cut a list by halving: the element in the middle decides in which half the cut is. -/
def bisect (before : α → Bool) (items : List α) : List α × List α :=
  match _found : items.drop (items.length / 2) with
  | [] => ([], [])
  | middle :: upper =>
    let lower := items.take (items.length / 2)
    if before middle then
      let cut := bisect before upper
      (lower ++ middle :: cut.1, cut.2)
    else
      let cut := bisect before lower
      (cut.1, cut.2 ++ middle :: upper)
termination_by items.length
decreasing_by
  · have sizes := congrArg List.length _found
    simp only [List.length_drop, List.length_cons] at sizes
    omega
  · have sizes := congrArg List.length _found
    simp only [List.length_drop, List.length_cons] at sizes
    simp only [List.length_take]
    omega

@[simp] theorem bisect_append (before : α → Bool) (items : List α) :
    (bisect before items).1 ++ (bisect before items).2 = items := by
  fun_induction bisect before items with
  | case1 items found =>
    have sizes := congrArg List.length found
    simp only [List.length_drop, List.length_nil] at sizes
    have empty : items = [] := List.length_eq_zero_iff.mp (by omega)
    simp [empty]
  | case2 items middle upper found lower holds cut ih =>
    simp only [lower, cut, List.append_assoc, List.cons_append, ih, ← found]
    exact List.take_append_drop _ _
  | case3 items middle upper found lower fails cut ih =>
    rw [← List.append_assoc, ih]
    simp only [lower, ← found]
    exact List.take_append_drop _ _

/-- What leaping over a list finds: the elements passed over up to the last one that was looked
at and passed, the elements between that one and the first that did not pass, and the rest. -/
structure Leap (α : Type) where
  passed : List α
  between : List α
  beyond : List α

/-- Look at the element behind the next `gap` elements; while it passes, go on with a gap of twice
the size and one. -/
def leap (passes : α → Bool) (gap : Nat) (items : List α) : Leap α :=
  match _found : items.drop gap with
  | [] => ⟨[], items, []⟩
  | probe :: rest =>
    if passes probe then
      let next := leap passes (2 * gap + 1) rest
      ⟨items.take gap ++ probe :: next.passed, next.between, next.beyond⟩
    else ⟨[], items.take gap, probe :: rest⟩
termination_by items.length
decreasing_by
  have sizes := congrArg List.length _found
  simp only [List.length_drop, List.length_cons] at sizes
  omega

@[simp] theorem leap_append (passes : α → Bool) (gap : Nat) (items : List α) :
    (leap passes gap items).passed ++ ((leap passes gap items).between ++
      (leap passes gap items).beyond) = items := by
  fun_induction leap passes gap items with
  | case1 => simp
  | case2 gap items probe rest found holds next ih =>
    simp only [next, List.append_assoc, List.cons_append, ih, ← found]
    exact List.take_append_drop _ _
  | case3 gap items probe rest found fails =>
    simp only [List.nil_append, ← found]
    exact List.take_append_drop _ _

/-- Cut a list by galloping from its start, and halving the stretch that was leapt over last. -/
def gallop (before : α → Bool) (items : List α) : List α × List α :=
  match items with
  | [] => ([], [])
  | first :: rest =>
    if before first then
      let found := leap before 0 rest
      let cut := bisect before found.between
      (first :: (found.passed ++ cut.1), cut.2 ++ found.beyond)
    else ([], first :: rest)

@[simp] theorem gallop_append (before : α → Bool) (items : List α) :
    (gallop before items).1 ++ (gallop before items).2 = items := by
  unfold gallop
  split
  · rfl
  · split
    · simp only [List.cons_append, List.append_assoc]
      rw [← List.append_assoc (bisect _ _).1, bisect_append, leap_append]
    · rfl

/-- Cut a list by galloping from its end. The list is given, and both parts are returned, from the
end to the start: the first part holds the elements that go after, the second those before. -/
def gallopBack (before : α → Bool) (reversed : List α) : List α × List α :=
  match reversed with
  | [] => ([], [])
  | last :: rest =>
    if before last then ([], last :: rest)
    else
      let found := leap (fun item => !before item) 0 rest
      let cut := bisect before found.between.reverse
      (last :: (found.passed ++ cut.2.reverse), cut.1.reverse ++ found.beyond)

@[simp] theorem gallopBack_append (before : α → Bool) (reversed : List α) :
    (gallopBack before reversed).1 ++ (gallopBack before reversed).2 = reversed := by
  unfold gallopBack
  split
  · rfl
  · split
    · rfl
    · simp only [List.cons_append, List.append_assoc]
      rw [← List.append_assoc (List.reverse _), ← List.reverse_append, bisect_append,
        List.reverse_reverse, leap_append]

end ClassTidy.Sorting
