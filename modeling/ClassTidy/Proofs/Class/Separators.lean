import ClassTidy.Proofs.Class.Variants
import Mathlib.Order.Bounds.Basic

/-!
# Separators

A colon separates variants if no bracket is still open in front of it. The depth there is a count
that never falls below zero, so it is the most by which opening brackets outnumber closing ones in a
text that ends there: a closing bracket that closes nothing counts only for texts that begin in
front of it.
-/

set_option autoImplicit false

namespace ClassTidy

namespace ClassName

/-! ## The depth as an excess -/

theorem depthBehind_le_iff (depth bound : Nat) (text : Text) :
    depthBehind depth text ≤ bound ↔
      depth + text.count '[' ≤ bound + text.count ']' ∧
        ∀ tail, tail <:+ text → tail.count '[' ≤ bound + tail.count ']' := by
  induction text generalizing depth with
  | nil => simp
  | cons c rest ih =>
    have tails : (∀ tail, tail <:+ c :: rest → tail.count '[' ≤ bound + tail.count ']') ↔
        (c :: rest).count '[' ≤ bound + (c :: rest).count ']' ∧
          ∀ tail, tail <:+ rest → tail.count '[' ≤ bound + tail.count ']' := by
      simp only [List.suffix_cons_iff, forall_eq_or_imp]
    rw [depthBehind_cons, ih, tails, ← and_assoc]
    apply and_congr_left
    intro later
    have behind := later rest (List.suffix_refl rest)
    by_cases opening : c = '['
    · subst opening
      simp only [depthAfter, Char.reduceEq, ↓reduceIte, List.count_cons_self, ne_eq,
        not_false_eq_true, List.count_cons_of_ne]
      omega
    · by_cases closing : c = ']'
      · subst closing
        simp only [depthAfter, Char.reduceEq, ↓reduceIte, List.count_cons_self, ne_eq,
          not_false_eq_true, List.count_cons_of_ne]
        omega
      · simp only [depthAfter, opening, closing, ↓reduceIte, ne_eq, not_false_eq_true,
          List.count_cons_of_ne]
        omega

theorem closed_iff {text : Text} :
    Closed text ↔ ∀ tail, tail <:+ text → tail.count '[' ≤ tail.count ']' := by
  unfold Closed
  rw [← Nat.le_zero, depthBehind_le_iff]
  simp only [Nat.zero_add, and_iff_right_iff_imp]
  intro every
  exact every text (List.suffix_refl text)

/-! ## Unbracketed colons -/

/-- Whether every text that ends in front of an offset has at least as many closing brackets as
opening ones. -/
def Unbracketed (text : Text) (offset : Nat) : Prop :=
  ∀ start ≤ offset, (text.extract start offset).count '[' ≤ (text.extract start offset).count ']'

instance (text : Text) (offset : Nat) : Decidable (Unbracketed text offset) :=
  inferInstanceAs (Decidable (∀ start ≤ offset, _ ≤ _))

theorem closed_take_iff {text : Text} {offset : Nat} :
    Closed (text.take offset) ↔ Unbracketed text offset := by
  have parts (start : Nat) : (text.take offset).drop start = text.extract start offset :=
    List.drop_take ..
  rw [closed_iff]
  constructor
  · intro every start _
    rw [← parts]
    exact every _ (List.drop_suffix start _)
  · intro every tail ends
    have front : (text.take offset).length - tail.length ≤ offset := by
      rw [List.length_take]
      omega
    rw [List.suffix_iff_eq_drop.mp ends, parts]
    exact every _ front

/-! ## The colons that are reported -/

theorem separatorsFrom_cons (depth : Nat) (c : Char) (rest : Text) :
    separatorsFrom depth 0 (c :: rest) =
      (if separates depth c then [0] else []) ++
        (separatorsFrom (depthAfter depth c) 0 rest).map (1 + ·) := by
  have moved := separatorsFrom_add (depthAfter depth c) 0 rest 1
  simp only [separatorsFrom, Nat.zero_add, Nat.add_zero] at moved ⊢
  rw [moved]
  split <;> rfl

theorem mem_separatorsFrom_iff {depth offset : Nat} {text : Text} :
    offset ∈ separatorsFrom depth 0 text ↔
      text[offset]? = some ':' ∧ depthBehind depth (text.take offset) = 0 := by
  induction text generalizing depth offset with
  | nil => simp [separatorsFrom]
  | cons c rest ih =>
    rw [separatorsFrom_cons, List.mem_append]
    cases offset with
    | zero => simp [separates]
    | succ offset =>
      have later : offset + 1 ∈ (separatorsFrom (depthAfter depth c) 0 rest).map (1 + ·) ↔
          offset ∈ separatorsFrom (depthAfter depth c) 0 rest := by
        simp [Nat.add_comm 1]
      have notFirst : offset + 1 ∉ if separates depth c then [0] else [] := by
        split <;> simp
      rw [later, or_iff_right notFirst, ih, List.getElem?_cons_succ, List.take_succ_cons,
        depthBehind_cons]

theorem separatorsFrom_increasing (depth : Nat) (text : Text) :
    (separatorsFrom depth 0 text).Pairwise (· < ·) := by
  induction text generalizing depth with
  | nil => exact .nil
  | cons c rest ih =>
    have later := (ih (depthAfter depth c)).map (1 + ·) fun _ _ before =>
      Nat.add_lt_add_left before 1
    rw [separatorsFrom_cons, List.pairwise_append]
    refine ⟨?_, later, ?_⟩
    · split
      · exact List.pairwise_singleton _ _
      · exact .nil
    · intro first isFirst other isLater
      obtain ⟨place, -, rfl⟩ := List.mem_map.mp isLater
      split at isFirst
      · rw [List.mem_singleton.mp isFirst]
        omega
      · cases isFirst

theorem separators_increasing (name : ClassName) : (separators name).Pairwise (· < ·) :=
  separatorsFrom_increasing 0 name

theorem mem_separators_iff {name : ClassName} {offset : Nat} :
    offset ∈ separators name ↔ name[offset]? = some ':' ∧ Unbracketed name offset := by
  rw [← closed_take_iff]
  exact mem_separatorsFrom_iff

theorem base_cases (name : ClassName) :
    (∃ offset, IsGreatest {place | place ∈ separators name} offset ∧
        base name = name.drop (offset + 1)) ∨
      separators name = [] ∧ base name = name := by
  cases last : (separators name).getLast? with
  | none =>
    have none := List.getLast?_eq_none_iff.mp last
    exact .inr ⟨none, base_of_separators_nil none⟩
  | some offset =>
    obtain ⟨earlier, parts⟩ := List.getLast?_eq_some_iff.mp last
    have behind : base name = name.drop (offset + 1) := by
      unfold base
      rw [last]
    have increasing := separators_increasing name
    rw [parts, List.pairwise_append] at increasing
    refine .inl ⟨offset, ⟨parts ▸ List.mem_concat_self, ?_⟩, behind⟩
    intro place separates
    rcases List.mem_append.mp (parts ▸ separates) with before | only
    · exact Nat.le_of_lt (increasing.2.2 place before offset List.mem_cons_self)
    · exact Nat.le_of_eq (List.mem_singleton.mp only)

/-- The separators are the unbracketed colons, in order. The base name is what stands behind the
last of them, or the whole name if there is none. -/
theorem separators_are_unbracketed_colons (name : ClassName) :
    (∀ offset, offset ∈ separators name ↔ name[offset]? = some ':' ∧ Unbracketed name offset) ∧
      (separators name).Pairwise (· < ·) ∧
      ((∃ offset, IsGreatest {place | name[place]? = some ':' ∧ Unbracketed name place} offset ∧
          base name = name.drop (offset + 1)) ∨
        (∀ offset, ¬ (name[offset]? = some ':' ∧ Unbracketed name offset)) ∧ base name = name) := by
  refine ⟨fun _ => mem_separators_iff, separators_increasing name, ?_⟩
  simp only [← mem_separators_iff]
  rcases base_cases name with greatest | ⟨none, whole⟩
  · exact .inl greatest
  · exact .inr ⟨fun offset member => List.not_mem_nil (none ▸ member), whole⟩

example : Unbracketed "]]:flex".toList 2 ∧ ¬ Unbracketed "[[:flex".toList 2 := by decide

end ClassName

end ClassTidy
