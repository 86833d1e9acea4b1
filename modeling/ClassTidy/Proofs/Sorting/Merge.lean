import ClassTidy.Proofs.Sorting.Scale
import ClassTidy.Sorting.Merge

/-!
# Merging on a scale

Merging two sorted lists sorts what they hold together, at whatever pace it goes: patience and
galloping decide how far a step reaches, and every step that is possible is right.
-/

set_option autoImplicit false

namespace ClassTidy.Sorting

variable {α : Type} {lt : α → α → Bool} {κ : Type} [LinearOrder κ] {scale : Scale lt κ}

/-! ## From the start -/

/-- A merge from the start never looks at the last element of the left list; all of the right list
may overtake it. -/
def Scale.LastBehind (scale : Scale lt κ) (left right : List α) : Prop :=
  ∀ front last, left = front ++ [last] → ∀ item ∈ right, scale.Overtakes item last

theorem Scale.LastBehind.part {left left' right right' : List α}
    (behind : scale.LastBehind left right) (ending : left' <:+ left) (part : right' ⊆ right) :
    scale.LastBehind left' right' := by
  obtain ⟨passed, rfl⟩ := ending
  intro front last ends item member
  exact behind (passed ++ front) last (by rw [ends, List.append_assoc]) item (part member)

/-- The end of a sorted list is overtaken by all of another one. -/
theorem sorts_overtake (first : List α) {front back : List α}
    (sorted : scale.Sorted (first ++ front))
    (backSorted : scale.Sorted back) (le : ∀ a ∈ first, ∀ b ∈ back, scale.place a ≤ scale.place b)
    (overtakes : ∀ a ∈ front, ∀ b ∈ back, scale.Overtakes b a) :
    scale.Sorts ((first ++ front) ++ back) (first ++ (back ++ front)) := by
  obtain ⟨firstSorted, frontSorted, first_le⟩ := Scale.sorted_append.mp sorted
  have exchanged : scale.Rearranges ((first ++ front) ++ back) (first ++ (back ++ front)) := by
    simpa using Scale.Rearranges.exchange first [] overtakes
  have fromBack : scale.Sorts (back ++ front) (back ++ front) :=
    backSorted.sorts.append frontSorted.sorts fun b memberB a memberA =>
      (overtakes a memberA b memberB).1
  refine .of_rearranges exchanged (firstSorted.sorts.append fromBack fun a memberA b memberB => ?_)
  rcases List.mem_append.mp memberB with inBack | inFront
  · exact le a memberA b inBack
  · exact first_le a memberA b inFront

theorem sorts_gallopLow {moved left moved' right merged : List α} {x y : α}
    (leftSorted : scale.Sorted (moved ++ x :: left))
    (rightSorted : scale.Sorted (y :: (moved' ++ right)))
    (moved_le : ∀ item ∈ moved, scale.place item ≤ scale.place y) (y_over : scale.Overtakes y x)
    (moved'_over : ∀ item ∈ moved', scale.Overtakes item x)
    (x_le : ∀ item ∈ right, scale.place x ≤ scale.place item)
    (sorts : scale.Sorts (left ++ right) merged) :
    scale.Sorts ((moved ++ x :: left) ++ y :: (moved' ++ right))
      (moved ++ y :: (moved' ++ x :: merged)) := by
  obtain ⟨movedSorted, leftSorted, moved_le_left⟩ := Scale.sorted_append.mp leftSorted
  obtain ⟨xValid, -, x_le_left⟩ := Scale.sorted_cons.mp leftSorted
  obtain ⟨yValid, rightSorted, y_le⟩ := Scale.sorted_cons.mp rightSorted
  obtain ⟨movedSorted', -, moved'_le⟩ := Scale.sorted_append.mp rightSorted
  have over_x : ∀ item ∈ y :: moved', scale.Overtakes item x :=
    List.forall_mem_cons.mpr ⟨y_over, moved'_over⟩
  have overtakes : ∀ a ∈ x :: left, ∀ b ∈ y :: moved', scale.Overtakes b a := by
    intro a memberA b memberB
    rcases List.mem_cons.mp memberA with rfl | later
    · exact over_x b memberB
    · exact (over_x b memberB).trans_le (x_le_left a later)
  have fromX : scale.Sorts (x :: (left ++ right)) (x :: merged) :=
    sorts.cons xValid (List.forall_mem_append.mpr ⟨x_le_left, x_le⟩)
  have fromMoved : scale.Sorts (moved' ++ x :: (left ++ right)) (moved' ++ x :: merged) := by
    refine movedSorted'.sorts.append fromX fun a memberA b memberB => ?_
    have le_x := (moved'_over a memberA).1
    grind
  have fromY : scale.Sorts (y :: (moved' ++ x :: (left ++ right)))
      (y :: (moved' ++ x :: merged)) := by
    refine fromMoved.cons yValid fun item member => ?_
    have le_x := y_over.1
    grind
  refine .of_rearranges (.exchange _ _ overtakes)
    (movedSorted.sorts.append fromY fun a memberA b memberB => ?_)
  have le_y := moved_le a memberA
  grind

theorem mergeLow_sorts (pace : Pace) (patience : Nat) {left right : List α}
    (leftSorted : scale.Sorted left) (rightSorted : scale.Sorted right)
    (behind : scale.LastBehind left right) :
    scale.Sorts (left ++ right) (mergeLow lt pace patience left right).1 := by
  fun_induction mergeLow lt pace patience left right with
  | case1 => simpa using leftSorted.sorts
  | case2 => exact rightSorted.sorts
  | case3 pace patience last right =>
    refine sorts_overtake [] leftSorted rightSorted (by simp) ?_
    intro a memberA b memberB
    exact List.mem_singleton.mp memberA ▸ behind [] last rfl b memberB
  | case4 pace patience x x' left y right patience' leftWins rightWins walks less merged ih =>
    obtain ⟨yValid, restSorted, y_le⟩ := Scale.sorted_cons.mp rightSorted
    obtain ⟨xValid, -, x_le⟩ := Scale.sorted_cons.mp leftSorted
    have y_over : ∀ item ∈ x :: x' :: left, scale.Overtakes y item := by
      have overtakes := Scale.overtakes_of_lt yValid xValid less
      exact List.forall_mem_cons.mpr
        ⟨overtakes, fun item member => overtakes.trans_le (x_le item member)⟩
    have sorts := ih leftSorted restSorted
      (behind.part (List.suffix_refl _) (List.subset_cons_self y right))
    refine .of_rearranges (.overtake y_over) (sorts.cons yValid ?_)
    exact List.forall_mem_append.mpr ⟨fun item member => (y_over item member).1, y_le⟩
  | case5 pace patience x x' left y right patience' leftWins rightWins walks notLess merged ih =>
    obtain ⟨yValid, -, y_le⟩ := Scale.sorted_cons.mp rightSorted
    obtain ⟨xValid, leftSorted', x_le⟩ := Scale.sorted_cons.mp leftSorted
    have x_le_y := scale.le_of_not_lt yValid xValid (by simpa using notLess)
    have sorts := ih leftSorted' rightSorted
      (behind.part (List.suffix_cons x _) (List.Subset.refl _))
    refine sorts.cons xValid (List.forall_mem_append.mpr ⟨x_le, ?_⟩)
    exact List.forall_mem_cons.mpr ⟨x_le_y, fun item member => x_le_y.trans (y_le item member)⟩
  | case6 pace patience x x' left y right patience' gallops moved x₁ x₂ left₂ found moved' merged
      ih =>
    obtain ⟨yValid, restSorted, -⟩ := Scale.sorted_cons.mp rightSorted
    obtain ⟨moved_le, y_over⟩ := gallop_divides (leftSorted.divides_not_gt yValid)
    have leftCut : moved.1 ++ x₁ :: x₂ :: left₂ = x :: x' :: left := by
      rw [← found]
      exact gallop_append _ _
    have x₁_member : x₁ ∈ moved.2 := by simp [found]
    rw [← leftCut] at leftSorted behind ⊢
    have x₁Valid := leftSorted.valid x₁ (by simp)
    obtain ⟨moved'_over, x₁_le⟩ := gallop_divides (restSorted.divides_lt x₁Valid)
    have rightCut : moved'.1 ++ moved'.2 = right := gallop_append _ _
    rw [← rightCut] at rightSorted behind ⊢
    have sorts := ih (leftSorted.sublist (by simp)) (rightSorted.sublist (by simp))
      (behind.part ⟨moved.1 ++ [x₁], by simp⟩ (by simp))
    exact sorts_gallopLow leftSorted rightSorted moved_le (y_over x₁ x₁_member) moved'_over x₁_le
      sorts
  | case7 pace patience x x' left y right patience' gallops moved short =>
    obtain ⟨yValid, -, y_le⟩ := Scale.sorted_cons.mp rightSorted
    obtain ⟨moved_le, -⟩ := gallop_divides (leftSorted.divides_not_gt yValid)
    have leftCut : moved.1 ++ moved.2 = x :: x' :: left := gallop_append _ _
    rw [← leftCut] at leftSorted behind ⊢
    refine sorts_overtake _ leftSorted rightSorted ?_ ?_
    · intro a memberA b memberB
      have le_y := moved_le a memberA
      rcases List.mem_cons.mp memberB with rfl | later
      · exact le_y
      · exact le_y.trans (y_le b later)
    · match ends : moved.2 with
      | [] => simp
      | [last] =>
        intro a memberA b memberB
        rw [ends] at behind
        exact List.mem_singleton.mp memberA ▸ behind moved.1 last rfl b memberB
      | x₁ :: x₂ :: left₂ => exact (short x₁ x₂ left₂ ends).elim

/-! ## From the end -/

/-- A merge from the end never looks at the first element of the right list, which is the last one
of the list as given; it may overtake all of the left list. -/
def Scale.FirstAhead (scale : Scale lt κ) (left right : List α) : Prop :=
  ∀ front lowest, right = front ++ [lowest] → ∀ item ∈ left, scale.Overtakes lowest item

theorem Scale.FirstAhead.part {left left' right right' : List α}
    (ahead : scale.FirstAhead left right) (part : left' ⊆ left) (ending : right' <:+ right) :
    scale.FirstAhead left' right' := by
  obtain ⟨passed, rfl⟩ := ending
  intro front lowest ends item member
  exact ahead (passed ++ front) lowest (by rw [ends, List.append_assoc]) item (part member)

theorem sorts_last {left right merged : List α} {x : α} (leftSorted : scale.Sorted (left ++ [x]))
    (overtakes : ∀ item ∈ right, scale.Overtakes item x)
    (sorts : scale.Sorts (left ++ right) merged) :
    scale.Sorts ((left ++ [x]) ++ right) (merged ++ [x]) := by
  obtain ⟨-, xSorted, le_x⟩ := Scale.sorted_append.mp leftSorted
  have overX : ∀ a ∈ [x], ∀ b ∈ right, scale.Overtakes b a := by
    intro a memberA b memberB
    exact List.mem_singleton.mp memberA ▸ overtakes b memberB
  have rearranges : scale.Rearranges ((left ++ [x]) ++ right) ((left ++ right) ++ [x]) := by
    simpa using Scale.Rearranges.exchange left [] overX
  refine .of_rearranges rearranges (sorts.append xSorted.sorts fun a memberA b memberB => ?_)
  rw [List.mem_singleton.mp memberB]
  rcases List.mem_append.mp memberA with inLeft | inRight
  · exact le_x a inLeft x (by simp)
  · exact (overtakes a inRight).1

theorem sorts_gallopHigh {left moved right moved' merged : List α} {x y : α}
    (leftSorted : scale.Sorted (left ++ x :: moved))
    (rightSorted : scale.Sorted ((right ++ moved') ++ [y])) (x_le_y : scale.place x ≤ scale.place y)
    (y_over : ∀ item ∈ moved, scale.Overtakes y item)
    (right_over : ∀ item ∈ right, scale.Overtakes item x)
    (x_le : ∀ item ∈ moved', scale.place x ≤ scale.place item)
    (sorts : scale.Sorts (left ++ right) merged) :
    scale.Sorts ((left ++ x :: moved) ++ ((right ++ moved') ++ [y]))
      (merged ++ x :: (moved' ++ y :: moved)) := by
  obtain ⟨leftSorted, fromXSorted, left_le⟩ := Scale.sorted_append.mp leftSorted
  obtain ⟨xValid, movedSorted, x_le_moved⟩ := Scale.sorted_cons.mp fromXSorted
  obtain ⟨bothSorted, ySorted, le_y⟩ := Scale.sorted_append.mp rightSorted
  obtain ⟨rightSorted, movedSorted', right_le⟩ := Scale.sorted_append.mp bothSorted
  have overMoved : ∀ a ∈ moved, ∀ b ∈ (right ++ moved') ++ [y], scale.Overtakes b a := by
    intro a memberA b memberB
    rcases List.mem_append.mp memberB with inBoth | isY
    · exact (y_over a memberA).le_trans (le_y b inBoth y List.mem_cons_self)
    · exact List.mem_singleton.mp isY ▸ y_over a memberA
  have overX : ∀ a ∈ [x], ∀ b ∈ right, scale.Overtakes b a := by
    intro a memberA b memberB
    exact List.mem_singleton.mp memberA ▸ right_over b memberB
  have rearranges : scale.Rearranges ((left ++ x :: moved) ++ ((right ++ moved') ++ [y]))
      ((left ++ right) ++ x :: (moved' ++ y :: moved)) := by
    have first : scale.Rearranges ((left ++ x :: moved) ++ ((right ++ moved') ++ [y]))
        ((left ++ [x]) ++ (right ++ (moved' ++ y :: moved))) := by
      simpa using Scale.Rearranges.exchange (left ++ [x]) [] overMoved
    refine first.trans ?_
    simpa using Scale.Rearranges.exchange left (moved' ++ y :: moved) overX
  have fromY : scale.Sorts (y :: moved) (y :: moved) :=
    movedSorted.sorts.cons (ySorted.valid y (by simp)) fun item member => (y_over item member).1
  have fromMoved : scale.Sorts (moved' ++ y :: moved) (moved' ++ y :: moved) := by
    refine movedSorted'.sorts.append fromY fun a memberA b memberB => ?_
    have y_le : ∀ item ∈ y :: moved, scale.place y ≤ scale.place item := by
      simpa using fun item member => (y_over item member).1
    exact (le_y a (by simp [memberA]) y (by simp)).trans (y_le b memberB)
  have fromX : scale.Sorts (x :: (moved' ++ y :: moved)) (x :: (moved' ++ y :: moved)) :=
    fromMoved.cons xValid (by grind)
  refine .of_rearranges rearranges (sorts.append fromX fun a memberA b memberB => ?_)
  have a_le_x : scale.place a ≤ scale.place x := by
    rcases List.mem_append.mp memberA with inLeft | inRight
    · exact left_le a inLeft x (by simp)
    · exact (right_over a inRight).1
  grind

theorem sorts_gallopHigh_reverse {left moved right moved' merged : List α} {x y : α}
    (leftSorted : scale.Sorted (moved ++ x :: left).reverse)
    (rightSorted : scale.Sorted (y :: (moved' ++ right)).reverse)
    (x_le_y : scale.place x ≤ scale.place y) (y_over : ∀ item ∈ moved, scale.Overtakes y item)
    (right_over : ∀ item ∈ right, scale.Overtakes item x)
    (x_le : ∀ item ∈ moved', scale.place x ≤ scale.place item)
    (sorts : scale.Sorts (left.reverse ++ right.reverse) merged.reverse) :
    scale.Sorts ((moved ++ x :: left).reverse ++ (y :: (moved' ++ right)).reverse)
      (moved ++ y :: (moved' ++ x :: merged)).reverse := by
  have leftSorted' : scale.Sorted (left.reverse ++ x :: moved.reverse) := by
    simpa using leftSorted
  have rightSorted' : scale.Sorted ((right.reverse ++ moved'.reverse) ++ [y]) := by
    simpa using rightSorted
  have round := sorts_gallopHigh leftSorted' rightSorted' x_le_y (by simpa using y_over)
    (by simpa using right_over) (by simpa using x_le) sorts
  simpa using round

theorem sorts_rest_reverse {left right : List α} (leftSorted : scale.Sorted left.reverse)
    (rightSorted : scale.Sorted right.reverse)
    (overtakes : ∀ a ∈ left, ∀ b ∈ right, scale.Overtakes b a) :
    scale.Sorts (left.reverse ++ right.reverse) (left ++ right).reverse := by
  rw [List.reverse_append]
  exact sorts_overtake [] leftSorted rightSorted (by simp) (by simpa using overtakes)

theorem mergeHigh_sorts (pace : Pace) (patience : Nat) {left right : List α}
    (leftSorted : scale.Sorted left.reverse) (rightSorted : scale.Sorted right.reverse)
    (ahead : scale.FirstAhead left right) :
    scale.Sorts (left.reverse ++ right.reverse)
      (mergeHigh lt pace patience left right).1.reverse := by
  fun_induction mergeHigh lt pace patience left right with
  | case1 => simpa using rightSorted.sorts
  | case2 => simpa using leftSorted.sorts
  | case3 pace patience left lowest =>
    refine sorts_rest_reverse leftSorted rightSorted fun a memberA b memberB => ?_
    rw [List.mem_singleton.mp memberB]
    exact ahead [] lowest rfl a memberA
  | case4 pace patience x left y y' right patience' leftWins rightWins walks less merged ih =>
    have sorts := ih (leftSorted.sublist (by simp)) rightSorted
      (ahead.part (List.subset_cons_self x left) (List.suffix_refl _))
    have y_over : scale.Overtakes y x := Scale.overtakes_of_lt (rightSorted.valid y (by simp))
      (leftSorted.valid x (by simp)) less
    rw [List.reverse_cons] at leftSorted
    obtain ⟨-, -, le_y⟩ := Scale.sorted_append.mp (List.reverse_cons ▸ rightSorted)
    have overtakes : ∀ item ∈ (y :: y' :: right).reverse, scale.Overtakes item x := by
      intro item member
      rcases List.mem_cons.mp (List.mem_reverse.mp member) with rfl | later
      · exact y_over
      · exact y_over.le_trans (le_y item (List.mem_reverse.mpr later) y (by simp))
    simpa using sorts_last leftSorted overtakes sorts
  | case5 pace patience x left y y' right patience' leftWins rightWins walks notLess merged ih =>
    have sorts := ih leftSorted (rightSorted.sublist (by simp))
      (ahead.part (List.Subset.refl _) (List.suffix_cons y _))
    have x_le_y := scale.le_of_not_lt (rightSorted.valid y (by simp))
      (leftSorted.valid x (by simp)) (by simpa using notLess)
    obtain ⟨-, ySorted, le_y⟩ := Scale.sorted_append.mp (List.reverse_cons ▸ rightSorted)
    obtain ⟨-, -, le_x⟩ := Scale.sorted_append.mp (List.reverse_cons ▸ leftSorted)
    have le : ∀ a ∈ (x :: left).reverse ++ (y' :: right).reverse, ∀ b ∈ [y],
        scale.place a ≤ scale.place b := by
      intro a memberA b memberB
      rw [List.mem_singleton.mp memberB]
      rcases List.mem_append.mp memberA with inLeft | inRight
      · rcases List.mem_cons.mp (List.mem_reverse.mp inLeft) with rfl | later
        · exact x_le_y
        · exact (le_x a (List.mem_reverse.mpr later) x (by simp)).trans x_le_y
      · exact le_y a inRight y (by simp)
    simpa using sorts.append ySorted.sorts le
  | case6 pace patience x left y y' right patience' gallops moved found =>
    obtain ⟨y_over, -⟩ := gallopBack_divides
      (leftSorted.divides_not_gt (rightSorted.valid y (by simp)))
    have all : moved.1 ++ moved.2 = x :: left := gallopBack_append _ _
    rw [found, List.append_nil] at all
    obtain ⟨-, -, le_y⟩ := Scale.sorted_append.mp (List.reverse_cons ▸ rightSorted)
    have overtakes : ∀ a ∈ (x :: left).reverse, ∀ b ∈ (y :: y' :: right).reverse,
        scale.Overtakes b a := by
      intro a memberA b memberB
      rw [List.mem_reverse, ← all] at memberA
      rcases List.mem_cons.mp (List.mem_reverse.mp memberB) with rfl | later
      · exact y_over a memberA
      · exact (y_over a memberA).le_trans (le_y b (List.mem_reverse.mpr later) y (by simp))
    have sorts := sorts_overtake [] leftSorted rightSorted (by simp) overtakes
    simpa [all] using sorts
  | case7 pace patience x left y y' right patience' gallops moved x₁ left₂ found nothing =>
    have yValid := rightSorted.valid y (by simp)
    obtain ⟨y_over, le_y⟩ := gallopBack_divides (leftSorted.divides_not_gt yValid)
    have leftCut : moved.1 ++ x₁ :: left₂ = x :: left := found ▸ gallopBack_append _ _
    rw [← leftCut] at leftSorted ahead ⊢
    obtain rfl : right = [] := List.isEmpty_iff.mp nothing
    have lowest_over : ∀ item ∈ x₁ :: left₂, ∀ b ∈ [y'], scale.Overtakes b item := by
      intro item member b memberB
      rw [List.mem_singleton.mp memberB]
      exact ahead [y] y' rfl item (List.mem_append_right _ member)
    have sorts : scale.Sorts (left₂.reverse ++ [y'].reverse) (left₂ ++ [y']).reverse :=
      sorts_rest_reverse (leftSorted.sublist (by simp)) (rightSorted.sublist (by simp))
        fun item member => lowest_over item (List.mem_cons_of_mem _ member)
    have rightSorted' : scale.Sorted (y :: ([] ++ [y'])).reverse := rightSorted
    exact sorts_gallopHigh_reverse leftSorted rightSorted' (le_y x₁ (found ▸ List.mem_cons_self))
      y_over (lowest_over x₁ List.mem_cons_self) (by simp) sorts
  | case8 pace patience x left y y' right patience' gallops moved x₁ left₂ found more moved' y₁ y₂
      right₂ found' merged ih =>
    have yValid := rightSorted.valid y (by simp)
    obtain ⟨y_over, le_y⟩ := gallopBack_divides (leftSorted.divides_not_gt yValid)
    have leftCut : moved.1 ++ x₁ :: left₂ = x :: left := found ▸ gallopBack_append _ _
    rw [← leftCut] at leftSorted ahead ⊢
    have x₁Valid := leftSorted.valid x₁ (by simp)
    have restSorted : scale.Sorted (y' :: right).reverse := rightSorted.sublist (by simp)
    obtain ⟨x₁_le, right_over⟩ := gallopBack_divides (restSorted.divides_lt x₁Valid)
    have rightCut : moved'.1 ++ y₁ :: y₂ :: right₂ = y' :: right := found' ▸ gallopBack_append _ _
    rw [← rightCut] at rightSorted ahead ⊢
    have sorts := ih (leftSorted.sublist (by simp)) (rightSorted.sublist (by simp))
      (ahead.part (by simp) ⟨y :: moved'.1, by simp⟩)
    exact sorts_gallopHigh_reverse leftSorted rightSorted (le_y x₁ (found ▸ List.mem_cons_self))
      y_over (found' ▸ right_over) x₁_le sorts
  | case9 pace patience x left y y' right patience' gallops moved x₁ left₂ found more moved' short =>
    have yValid := rightSorted.valid y (by simp)
    obtain ⟨y_over, le_y⟩ := gallopBack_divides (leftSorted.divides_not_gt yValid)
    have leftCut : moved.1 ++ x₁ :: left₂ = x :: left := found ▸ gallopBack_append _ _
    rw [← leftCut] at leftSorted ahead ⊢
    have x₁Valid := leftSorted.valid x₁ (by simp)
    have restSorted : scale.Sorted (y' :: right).reverse := rightSorted.sublist (by simp)
    obtain ⟨x₁_le, right_over⟩ := gallopBack_divides (restSorted.divides_lt x₁Valid)
    have rightCut : moved'.1 ++ moved'.2 = y' :: right := gallopBack_append _ _
    rw [← rightCut] at rightSorted ahead ⊢
    have rest_over : ∀ item ∈ left₂, ∀ b ∈ moved'.2, scale.Overtakes b item := by
      match ends : moved'.2 with
      | [] => simp
      | [lowest] =>
        intro item member b memberB
        rw [List.mem_singleton.mp memberB]
        exact ahead (y :: moved'.1) lowest (by simp [ends]) item (by simp [member])
      | y₁ :: y₂ :: right₂ => exact (short y₁ y₂ right₂ ends).elim
    have sorts : scale.Sorts (left₂.reverse ++ moved'.2.reverse) (left₂ ++ moved'.2).reverse :=
      sorts_rest_reverse (leftSorted.sublist (by simp)) (rightSorted.sublist (by simp)) rest_over
    exact sorts_gallopHigh_reverse leftSorted rightSorted (le_y x₁ (found ▸ List.mem_cons_self))
      y_over right_over x₁_le sorts

/-! ## Two neighbouring runs -/

/-- What already is in place at the start of the left and at the end of the right list stays. -/
theorem sorts_between {settled left right unsettled merged : List α}
    (leftSorted : scale.Sorted (settled ++ left)) (rightSorted : scale.Sorted (right ++ unsettled))
    (settled_le : ∀ a ∈ settled, ∀ b ∈ right ++ unsettled, scale.place a ≤ scale.place b)
    (le_unsettled : ∀ a ∈ left, ∀ b ∈ unsettled, scale.place a ≤ scale.place b)
    (sorts : scale.Sorts (left ++ right) merged) :
    scale.Sorts ((settled ++ left) ++ (right ++ unsettled)) (settled ++ (merged ++ unsettled)) := by
  obtain ⟨settledSorted, -, settled_le_left⟩ := Scale.sorted_append.mp leftSorted
  obtain ⟨-, unsettledSorted, right_le⟩ := Scale.sorted_append.mp rightSorted
  have toEnd : scale.Sorts ((left ++ right) ++ unsettled) (merged ++ unsettled) := by
    refine sorts.append unsettledSorted.sorts fun a memberA b memberB => ?_
    rcases List.mem_append.mp memberA with inLeft | inRight
    · exact le_unsettled a inLeft b memberB
    · exact right_le a inRight b memberB
  have whole := settledSorted.sorts.append toEnd fun a memberA b memberB => by
    rw [List.append_assoc] at memberB
    rcases List.mem_append.mp memberB with inLeft | later
    · exact settled_le_left a memberA b inLeft
    · exact settled_le a memberA b later
  simpa using whole

theorem sorts_fromLowest (patience : Nat) {front right : List α} {last lowest : α}
    (leftSorted : scale.Sorted (front ++ [last])) (rightSorted : scale.Sorted (lowest :: right))
    (lowest_over : ∀ item ∈ front ++ [last], scale.Overtakes lowest item)
    (right_over : ∀ item ∈ lowest :: right, scale.Overtakes item last) :
    scale.Sorts ((front ++ [last]) ++ lowest :: right)
      (lowest :: (mergeLow lt (.walk 0 0) patience (front ++ [last]) right).1) := by
  obtain ⟨lowestValid, rightSorted', lowest_le⟩ := Scale.sorted_cons.mp rightSorted
  have behind : scale.LastBehind (front ++ [last]) right := by
    intro front' last' ends item member
    obtain ⟨-, same⟩ := List.append_inj' ends rfl
    exact List.singleton_inj.mp same ▸ right_over item (List.mem_cons_of_mem _ member)
  have sorts := mergeLow_sorts (.walk 0 0) patience leftSorted rightSorted' behind
  refine .of_rearranges (.overtake lowest_over) (sorts.cons lowestValid ?_)
  exact List.forall_mem_append.mpr ⟨fun item member => (lowest_over item member).1, lowest_le⟩

theorem sorts_fromLast (patience : Nat) {front right : List α} {last lowest : α}
    (leftSorted : scale.Sorted (front ++ [last])) (rightSorted : scale.Sorted (lowest :: right))
    (lowest_over : ∀ item ∈ front ++ [last], scale.Overtakes lowest item)
    (right_over : ∀ item ∈ lowest :: right, scale.Overtakes item last) :
    scale.Sorts ((front ++ [last]) ++ lowest :: right)
      (last :: (mergeHigh lt (.walk 0 0) patience front.reverse (lowest :: right).reverse).1).reverse
    := by
  have ahead : scale.FirstAhead front.reverse (lowest :: right).reverse := by
    intro front' lowest' ends item member
    rw [List.reverse_cons] at ends
    obtain ⟨-, same⟩ := List.append_inj' ends rfl
    rw [← List.singleton_inj.mp same]
    exact lowest_over item (List.mem_append_left _ (List.mem_reverse.mp member))
  have frontSorted : scale.Sorted front.reverse.reverse := by
    rw [List.reverse_reverse]
    exact leftSorted.sublist (List.sublist_append_left _ _)
  have rightSorted' : scale.Sorted (lowest :: right).reverse.reverse := by
    rwa [List.reverse_reverse]
  have sorts := mergeHigh_sorts (.walk 0 0) patience frontSorted rightSorted' ahead
  rw [List.reverse_reverse, List.reverse_reverse] at sorts
  rw [List.reverse_cons]
  exact sorts_last leftSorted right_over sorts

theorem mergeRuns_sorts (patience : Nat) {left right : List α} (leftSorted : scale.Sorted left)
    (rightSorted : scale.Sorted right) :
    scale.Sorts (left ++ right) (mergeRuns lt patience left right).1 := by
  unfold mergeRuns
  dsimp only
  split
  case h_1 => simpa using leftSorted.sorts
  case h_2 first rest =>
    obtain ⟨firstValid, -, first_le_rest⟩ := Scale.sorted_cons.mp rightSorted
    have first_le : ∀ b ∈ first :: rest, scale.place first ≤ scale.place b :=
      List.forall_mem_cons.mpr ⟨le_refl _, first_le_rest⟩
    obtain ⟨settled_le, first_over⟩ := gallop_divides (leftSorted.divides_not_gt firstValid)
    have leftCut := gallop_append (fun item => !lt first item) left
    generalize gallop (fun item => !lt first item) left = settled at settled_le first_over leftCut ⊢
    have settled_le_right : ∀ a ∈ settled.1, ∀ b ∈ first :: rest, scale.place a ≤ scale.place b :=
      fun a memberA b memberB => (settled_le a memberA).trans (first_le b memberB)
    subst leftCut
    split
    case h_1 ends =>
      rw [List.reverse_eq_nil_iff.mp ends, List.append_nil] at leftSorted ⊢
      exact leftSorted.sorts.append rightSorted.sorts settled_le_right
    case h_2 last backwards ends =>
      have shape : settled.2 = backwards.reverse ++ [last] := by
        rw [← List.reverse_cons, ← ends, List.reverse_reverse]
      rw [shape] at leftSorted first_over ⊢
      have lastValid := leftSorted.valid last (by simp)
      have reversedSorted : scale.Sorted (first :: rest).reverse.reverse := by
        rwa [List.reverse_reverse]
      obtain ⟨last_le, right_over⟩ := gallopBack_divides (reversedSorted.divides_lt lastValid)
      have rightCut := gallopBack_append (fun item => lt item last) (first :: rest).reverse
      generalize gallopBack (fun item => lt item last) (first :: rest).reverse = unsettled
        at last_le right_over rightCut ⊢
      have rightShape : first :: rest = unsettled.2.reverse ++ unsettled.1.reverse := by
        rw [← List.reverse_append, rightCut, List.reverse_reverse]
      have le_last : ∀ a ∈ settled.1 ++ (backwards.reverse ++ [last]),
          scale.place a ≤ scale.place last := by
        rw [← List.append_assoc] at leftSorted ⊢
        obtain ⟨-, -, le⟩ := Scale.sorted_append.mp leftSorted
        exact List.forall_mem_append.mpr
          ⟨fun a memberA => le a memberA last (by simp), by simp⟩
      split
      case h_1 none =>
        rw [none, List.nil_append] at rightShape
        refine leftSorted.sorts.append rightSorted.sorts fun a memberA b memberB => ?_
        rw [rightShape, List.mem_reverse] at memberB
        exact (le_last a memberA).trans (last_le b memberB)
      case h_2 lowest upward some =>
        rw [some] at rightShape
        obtain ⟨rfl, -⟩ := List.cons.inj rightShape
        have rightOver : ∀ item ∈ first :: upward, scale.Overtakes item last := by
          rw [← some]
          exact fun item member => right_over item (List.mem_reverse.mp member)
        have unsettledShape : unsettled.2 = (first :: upward).reverse := by
          rw [← some, List.reverse_reverse]
        rw [rightShape] at rightSorted settled_le_right ⊢
        have middleLeft : scale.Sorted (backwards.reverse ++ [last]) :=
          leftSorted.sublist (List.sublist_append_right _ _)
        have middleRight : scale.Sorted (first :: upward) :=
          rightSorted.sublist (List.sublist_append_left _ _)
        have le_unsettled : ∀ a ∈ backwards.reverse ++ [last], ∀ b ∈ unsettled.1.reverse,
            scale.place a ≤ scale.place b := fun a memberA b memberB =>
          (le_last a (List.mem_append_right _ memberA)).trans
            (last_le b (List.mem_reverse.mp memberB))
        split
        · exact sorts_between leftSorted rightSorted settled_le_right le_unsettled
            (sorts_fromLowest patience middleLeft middleRight first_over rightOver)
        · have sorts := sorts_fromLast patience middleLeft middleRight first_over rightOver
          rw [List.reverse_reverse, ← unsettledShape] at sorts
          have whole := sorts_between leftSorted rightSorted settled_le_right le_unsettled sorts
          simpa only [List.append_assoc] using whole

end ClassTidy.Sorting
