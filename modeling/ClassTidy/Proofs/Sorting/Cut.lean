import ClassTidy.Sorting.Cut
import Mathlib.Data.List.Basic

/-!
# Where a cut falls

A test need not say where in a list it starts to fail. It is enough that whatever passes is *low*,
whatever fails is *high*, and that low and high elements do not come in the wrong order: then every
way of cutting the list leaves low elements in front and high elements behind. An element may be
low and high at once, and about such elements the test may say anything.
-/

set_option autoImplicit false

namespace ClassTidy.Sorting

variable {α : Type} {test : α → Bool} {low high : α → Prop}

/-- A test that divides a list into low and high elements. -/
structure Divides (test : α → Bool) (low high : α → Prop) (items : List α) : Prop where
  low_of_pass : ∀ item ∈ items, test item = true → low item
  high_of_fail : ∀ item ∈ items, test item = false → high item
  low_before : items.Pairwise fun a b => low b → low a
  high_after : items.Pairwise fun a b => high a → high b

namespace Divides

theorem sublist {items some : List α} (divides : Divides test low high items)
    (sublist : some.Sublist items) : Divides test low high some where
  low_of_pass item member := divides.low_of_pass item (sublist.subset member)
  high_of_fail item member := divides.high_of_fail item (sublist.subset member)
  low_before := divides.low_before.sublist sublist
  high_after := divides.high_after.sublist sublist

theorem reverse {items : List α} (divides : Divides test low high items) :
    Divides (fun item => !test item) high low items.reverse where
  low_of_pass item member passes :=
    divides.high_of_fail item (List.mem_reverse.mp member) (by simpa using passes)
  high_of_fail item member fails :=
    divides.low_of_pass item (List.mem_reverse.mp member) (by simpa using fails)
  low_before := List.pairwise_reverse.mpr divides.high_after
  high_after := List.pairwise_reverse.mpr divides.low_before

theorem low_of_pass_after {before after : List α} {probe : α}
    (divides : Divides test low high (before ++ probe :: after)) (passes : test probe = true) :
    ∀ item ∈ before ++ [probe], low item := by
  have probeLow : low probe := divides.low_of_pass probe (by simp) passes
  intro item member
  rcases List.mem_append.mp member with earlier | last
  · exact (List.pairwise_append.mp divides.low_before).2.2 item earlier probe (by simp) probeLow
  · exact List.mem_singleton.mp last ▸ probeLow

theorem high_of_fail_before {before after : List α} {probe : α}
    (divides : Divides test low high (before ++ probe :: after)) (fails : test probe = false) :
    ∀ item ∈ probe :: after, high item := by
  have probeHigh : high probe := divides.high_of_fail probe (by simp) fails
  have later := (List.pairwise_append.mp divides.high_after).2.1
  intro item member
  rcases List.mem_cons.mp member with rfl | member
  · exact probeHigh
  · exact (List.pairwise_cons.mp later).1 item member probeHigh

end Divides

theorem bisect_divides {items : List α} (divides : Divides test low high items) :
    (∀ item ∈ (bisect test items).1, low item) ∧ ∀ item ∈ (bisect test items).2, high item := by
  fun_induction bisect test items with
  | case1 => simp
  | case2 items middle upper found lower passes cut ih =>
    have halves : items = lower ++ middle :: upper := by
      rw [← found]
      exact (List.take_append_drop _ _).symm
    rw [halves] at divides
    obtain ⟨cutLow, cutHigh⟩ := ih (divides.sublist (by simp))
    refine ⟨fun item member => ?_, cutHigh⟩
    rcases List.mem_append.mp member with inLower | inUpper
    · exact divides.low_of_pass_after passes item (List.mem_append_left _ inLower)
    rcases List.mem_cons.mp inUpper with rfl | inCut
    · exact divides.low_of_pass_after passes item (by simp)
    · exact cutLow item inCut
  | case3 items middle upper found lower fails cut ih =>
    have halves : items = lower ++ middle :: upper := by
      rw [← found]
      exact (List.take_append_drop _ _).symm
    rw [halves] at divides
    obtain ⟨cutLow, cutHigh⟩ := ih (divides.sublist (by simp))
    refine ⟨cutLow, fun item member => ?_⟩
    rcases List.mem_append.mp member with inCut | inUpper
    · exact cutHigh item inCut
    · exact divides.high_of_fail_before (by simpa using fails) item inUpper

/-- Nothing is known of the stretch between. -/
theorem leap_divides (gap : Nat) {items : List α} (divides : Divides test low high items) :
    (∀ item ∈ (leap test gap items).passed, low item) ∧
      ∀ item ∈ (leap test gap items).beyond, high item := by
  fun_induction leap test gap items with
  | case1 => simp
  | case2 gap items probe rest found passes next ih =>
    have halves : items = items.take gap ++ probe :: rest := by
      rw [← found]
      exact (List.take_append_drop _ _).symm
    rw [halves] at divides
    obtain ⟨passedLow, beyondHigh⟩ := ih (divides.sublist (by simp))
    refine ⟨fun item member => ?_, beyondHigh⟩
    rcases List.mem_append.mp member with inGap | further
    · exact divides.low_of_pass_after passes item (List.mem_append_left _ inGap)
    rcases List.mem_cons.mp further with rfl | inPassed
    · exact divides.low_of_pass_after passes item (by simp)
    · exact passedLow item inPassed
  | case3 gap items probe rest found fails =>
    have halves : items = items.take gap ++ probe :: rest := by
      rw [← found]
      exact (List.take_append_drop _ _).symm
    rw [halves] at divides
    exact ⟨by simp, divides.high_of_fail_before (by simpa using fails)⟩

theorem Divides.between {items : List α} (divides : Divides test low high items) (gap : Nat) :
    Divides test low high (leap test gap items).between := by
  apply divides.sublist
  calc (leap test gap items).between
    List.Sublist _ ((leap test gap items).between ++ (leap test gap items).beyond) :=
      List.sublist_append_left _ _
    List.Sublist _ ((leap test gap items).passed ++ _) := List.sublist_append_right _ _
    _ = items := leap_append test gap items

theorem gallop_divides {items : List α} (divides : Divides test low high items) :
    (∀ item ∈ (gallop test items).1, low item) ∧ ∀ item ∈ (gallop test items).2, high item := by
  unfold gallop
  split
  · simp
  case h_2 first rest =>
    have rest_divides : Divides test low high rest := divides.sublist (List.sublist_cons_self _ _)
    split
    case isTrue passes =>
      obtain ⟨passedLow, beyondHigh⟩ := leap_divides 0 rest_divides
      obtain ⟨cutLow, cutHigh⟩ := bisect_divides (rest_divides.between 0)
      have firstLow := divides.low_of_pass first (by simp) passes
      simp only [List.mem_cons, List.mem_append]
      constructor
      · rintro item (rfl | inPassed | inCut)
        · exact firstLow
        · exact passedLow item inPassed
        · exact cutLow item inCut
      · rintro item (inCut | inBeyond)
        · exact cutHigh item inCut
        · exact beyondHigh item inBeyond
    case isFalse fails =>
      have whole : Divides test low high ([] ++ first :: rest) := divides
      exact ⟨by simp, whole.high_of_fail_before (by simpa using fails)⟩

/-- The list is given from the end to the start, and so are both parts. -/
theorem gallopBack_divides {reversed : List α} (divides : Divides test low high reversed.reverse) :
    (∀ item ∈ (gallopBack test reversed).1, high item) ∧
      ∀ item ∈ (gallopBack test reversed).2, low item := by
  have backwards := divides.reverse
  rw [List.reverse_reverse] at backwards
  unfold gallopBack
  split
  · simp
  case h_2 last rest =>
    split
    case isTrue passes =>
      have whole : Divides (fun item => !test item) high low ([] ++ last :: rest) := backwards
      exact ⟨by simp, whole.high_of_fail_before (by simpa using passes)⟩
    case isFalse fails =>
      have rest_divides := backwards.sublist (List.sublist_cons_self last rest)
      obtain ⟨passedHigh, beyondLow⟩ := leap_divides 0 rest_divides
      have forwards := (rest_divides.between 0).reverse
      simp only [Bool.not_not] at forwards
      obtain ⟨cutLow, cutHigh⟩ := bisect_divides forwards
      have lastHigh := backwards.low_of_pass last (by simp) (by simpa using fails)
      simp only [List.mem_cons, List.mem_append, List.mem_reverse]
      constructor
      · rintro item (rfl | inPassed | inCut)
        · exact lastHigh
        · exact passedHigh item inPassed
        · exact cutHigh item inCut
      · rintro item (inCut | inBeyond)
        · exact cutLow item inCut
        · exact beyondLow item inBeyond

end ClassTidy.Sorting
