import ClassTidy.Text.Blank
import ClassTidy.Text.Line

/-!
# Line ends

Lines come out of a text as they stand between their ends. All line boundaries are blanks, though
not all blanks are boundaries.
-/

set_option autoImplicit false

namespace ClassTidy.Text

theorem unifyLineEnds_of_not_mem {text : Text} (absent : '\r' ∉ text) :
    text.unifyLineEnds = text := by
  fun_induction unifyLineEnds text with
  | case1 => rfl
  | case2 rest ih => exact (absent List.mem_cons_self).elim
  | case3 c rest _ ih =>
    rw [List.mem_cons, not_or] at absent
    rw [ih absent.2, if_neg (Ne.symm absent.1)]

theorem linesBy_append_end {ends : Char → Bool} {line : Text} (inside : ∀ c ∈ line, ends c = false)
    {last : Char} (isEnd : ends last = true) (rest : Text) :
    linesBy ends (line ++ last :: rest) = line :: linesBy ends rest := by
  induction line with
  | nil => rw [List.nil_append, linesBy, if_pos isEnd]
  | cons c line ih =>
    obtain ⟨here, later⟩ := List.forall_mem_cons.mp inside
    rw [List.cons_append, linesBy, ih later, if_neg (Bool.eq_false_iff.mp here)]

theorem linesBy_of_no_end {ends : Char → Bool} {line : Text} (ne_nil : line ≠ [])
    (inside : ∀ c ∈ line, ends c = false) : linesBy ends line = [line] := by
  induction line with
  | nil => exact (ne_nil rfl).elim
  | cons c rest ih =>
    obtain ⟨here, later⟩ := List.forall_mem_cons.mp inside
    rw [linesBy, if_neg (Bool.eq_false_iff.mp here)]
    cases rest with
    | nil => rfl
    | cons d rest => rw [ih (List.cons_ne_nil d rest) later]

theorem isBlank_of_isLineBoundary {c : Char} (boundary : isLineBoundary c = true) :
    isBlank c = true := by
  simp only [isLineBoundary, Bool.or_eq_true, beq_iff_eq, or_assoc] at boundary
  rcases boundary with rfl | rfl | rfl | rfl | rfl | rfl | rfl | rfl | rfl | rfl <;> decide

end ClassTidy.Text
