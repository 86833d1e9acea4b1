import ClassTidy.Class.Category
import ClassTidy.Class.Order
import Mathlib.Data.List.Basic

/-!
# Variants

A variant whose brackets are closed can be put in front of any name: it adds itself and the variants
inside it, and changes neither the base name nor what depends on that alone. Every name is its base
name with such a variant in front, or its base name alone.
-/

set_option autoImplicit false

namespace ClassTidy

namespace ClassName

/-- The bracket depth behind a text that starts at a depth. -/
def depthBehind (depth : Nat) (text : Text) : Nat := text.foldl depthAfter depth

/-- Whether a text leaves no bracket open. -/
def Closed (text : Text) : Prop := depthBehind 0 text = 0

instance (text : Text) : Decidable (Closed text) := inferInstanceAs (Decidable (_ = _))

@[simp] theorem depthBehind_nil (depth : Nat) : depthBehind depth [] = depth := rfl

@[simp] theorem depthBehind_cons (depth : Nat) (c : Char) (rest : Text) :
    depthBehind depth (c :: rest) = depthBehind (depthAfter depth c) rest := rfl

/-! ## Where the separators are -/

theorem separatorsFrom_append (depth offset : Nat) (front back : Text) :
    separatorsFrom depth offset (front ++ back) =
      separatorsFrom depth offset front ++
        separatorsFrom (depthBehind depth front) (offset + front.length) back := by
  induction front generalizing depth offset with
  | nil => rfl
  | cons c rest ih =>
    simp only [List.cons_append, separatorsFrom, ih, depthBehind_cons, List.length_cons,
      Nat.add_assoc, Nat.add_comm 1]
    split <;> rfl

theorem separatorsFrom_add (depth offset : Nat) (text : Text) (distance : Nat) :
    separatorsFrom depth (distance + offset) text =
      (separatorsFrom depth offset text).map (distance + ·) := by
  induction text generalizing depth offset with
  | nil => rfl
  | cons c rest ih =>
    simp only [separatorsFrom, Nat.add_assoc, ih]
    split <;> simp

/-- Behind a closed variant the separators are those of what follows. -/
theorem separators_append {variant : Text} (closed : Closed variant) (name : Text) :
    separators (variant ++ ':' :: name) =
      separators variant ++
        variant.length :: (separators name).map (variant.length + 1 + ·) := by
  have colon : separatorsFrom 0 variant.length (':' :: name) =
      variant.length :: separatorsFrom 0 (variant.length + 1 + 0) name := rfl
  rw [separators, separatorsFrom_append, closed, Nat.zero_add, colon, separatorsFrom_add]
  rfl

/-- The text in front of the last separator is closed. -/
theorem exists_last_separator {depth offset : Nat} {text : Text}
    (found : separatorsFrom depth offset text ≠ []) :
    ∃ front back, text = front ++ ':' :: back ∧ depthBehind depth front = 0 ∧
      separators back = [] := by
  induction text generalizing depth offset with
  | nil => exact (found rfl).elim
  | cons c rest ih =>
    by_cases later : separatorsFrom (depthAfter depth c) (offset + 1) rest = []
    · have separates : separates depth c = true := by
        simpa [separatorsFrom, later] using found
      obtain ⟨rfl, rfl⟩ : c = ':' ∧ depth = 0 := by simpa [ClassName.separates] using separates
      have moved := separatorsFrom_add 0 0 rest (offset + 1)
      exact ⟨[], rest, rfl, rfl, List.map_eq_nil_iff.mp (moved.symm.trans later)⟩
    · obtain ⟨front, back, rfl, closed, last⟩ := ih later
      exact ⟨c :: front, back, rfl, closed, last⟩

theorem separators_cases (name : ClassName) :
    separators name = [] ∨
      ∃ front back, name = front ++ ':' :: back ∧ Closed front ∧ separators back = [] := by
  by_cases found : separators name = []
  · exact .inl found
  · exact .inr (exists_last_separator found)

/-! ## What a name is made of -/

theorem base_of_separators_nil {name : ClassName} (none : separators name = []) :
    base name = name := by
  rw [base, none]
  rfl

section

variable {variant : Text} (closed : Closed variant) (name : ClassName)
include closed

theorem variants_append :
    variants (variant ++ ':' :: name) = variants variant + 1 + variants name := by
  simp only [variants, separators_append closed, List.length_append, List.length_cons,
    List.length_map]
  omega

theorem base_append : base (variant ++ ':' :: name) = base name := by
  rw [base, base, separators_append closed]
  cases last : (separators name).getLast? with
  | none => simp [List.getLast?_eq_none_iff.mp last]
  | some offset =>
    rw [List.getLast?_append, List.getLast?_cons, List.getLast?_map, last]
    change (variant ++ ':' :: name).drop (variant.length + 1 + offset + 1) = name.drop (offset + 1)
    rw [Nat.add_assoc, Nat.add_assoc, List.drop_length_add_append, Nat.add_comm 1,
      List.drop_succ_cons]

theorem category_append : category (variant ++ ':' :: name) = category name := by
  rw [category, base_append closed, category]

theorem rank?_append (order : CanonicalOrder) :
    order.rank? (variant ++ ':' :: name) =
      (order.rank? name).map (· + (variants variant + 1) * order.members.length) := by
  rw [CanonicalOrder.rank?, CanonicalOrder.rank?, base_append closed, variants_append closed,
    Option.map_map]
  congr 1
  funext place
  rw [Function.comp_apply, Nat.add_mul _ (variants name)]
  omega

end

/-- A closed variant in front of a name adds itself and the variants inside it, and moves the rank
by as many whole lists. The base name stands at the end of a name, alone or behind a colon, and has
no variants left. -/
theorem closed_variants_compose :
    (∀ variant, Closed variant → ∀ name : ClassName,
      base (variant ++ ':' :: name) = base name ∧
      variants (variant ++ ':' :: name) = variants variant + 1 + variants name ∧
      category (variant ++ ':' :: name) = category name ∧
      ∀ order : CanonicalOrder, order.rank? (variant ++ ':' :: name) =
        (order.rank? name).map (· + (variants variant + 1) * order.members.length)) ∧
    ∀ name : ClassName, variants (base name) = 0 ∧ base (base name) = base name ∧
      base name <:+ name ∧ (0 < variants name → ':' :: base name <:+ name) := by
  refine ⟨fun variant closed name => ⟨base_append closed name, variants_append closed name,
    category_append closed name, rank?_append closed name⟩, fun name => ?_⟩
  rcases separators_cases name with none | ⟨front, back, rfl, closed, none⟩
  · have noVariants : variants name = 0 := List.length_eq_zero_iff.mpr none
    rw [base_of_separators_nil none]
    exact ⟨noVariants, base_of_separators_nil none, List.suffix_refl _, by omega⟩
  · have noVariants : variants back = 0 := List.length_eq_zero_iff.mpr none
    rw [base_append closed, base_of_separators_nil none]
    have behindColon : ':' :: back <:+ front ++ ':' :: back := List.suffix_append _ _
    exact ⟨noVariants, base_of_separators_nil none, (List.suffix_cons _ _).trans behindColon,
      fun _ => behindColon⟩

/-- The colon in brackets separates nothing. -/
theorem closed_variants_compose_bracketed :
    let variant : Text := ['a', ':', '[', ':', ']']
    let name : ClassName := ['b', ':', 'c']
    Closed variant ∧
      (base (variant ++ ':' :: name) = base name ∧
        variants (variant ++ ':' :: name) = variants variant + 1 + variants name ∧
        category (variant ++ ':' :: name) = category name ∧
        ∀ order : CanonicalOrder, order.rank? (variant ++ ':' :: name) =
          (order.rank? name).map (· + (variants variant + 1) * order.members.length)) ∧
      0 < variants name ∧ ':' :: base name <:+ name := by
  intro variant name
  have closed : Closed variant := by decide
  have someVariant : 0 < variants name := by decide
  exact ⟨closed, closed_variants_compose.1 variant closed name, someVariant,
    (closed_variants_compose.2 name).2.2.2 someVariant⟩

end ClassName

end ClassTidy
