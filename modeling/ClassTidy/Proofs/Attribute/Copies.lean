import ClassTidy.Attribute.Sort
import ClassTidy.Proofs.Class.Arrangement

/-!
# Copies

The walk through arranged classes takes note of known classes that stay, and drops what has a name
it took note of. Whether the known class with that name stayed itself does not matter: if it did
not, then another one before it did. So a class is dropped just when any known class of its name
stands before it, whatever its own rank is.
-/

set_option autoImplicit false

namespace ClassTidy

namespace Arrangement

/-- Whether a known class of the same name stands before the ranked class at an index. -/
def IsCopyAt (ordered : List Ranked) (index : Nat) : Prop :=
  ∃ place < index, ∃ earlier item, ordered[place]? = some earlier ∧ ordered[index]? = some item ∧
    earlier.name = item.name ∧ earlier.rank.isSome = true

/-- Whether names are those of the known classes among some ranked ones. -/
def Notes (seen : List ClassName) (before : List Ranked) : Prop :=
  ∀ name, name ∈ seen ↔ ∃ earlier ∈ before, earlier.name = name ∧ earlier.rank.isSome = true

theorem isCopyAt_length_iff {before rest : List Ranked} {item : Ranked} :
    IsCopyAt (before ++ item :: rest) before.length ↔
      ∃ earlier ∈ before, earlier.name = item.name ∧ earlier.rank.isSome = true := by
  have here : (before ++ item :: rest)[before.length]? = some item := by simp
  constructor
  · rintro ⟨place, bound, earlier, found, earlierFound, found_here, same, known⟩
    rw [List.getElem?_append_left bound] at earlierFound
    cases here.symm.trans found_here
    exact ⟨earlier, List.mem_of_getElem? earlierFound, same, known⟩
  · rintro ⟨earlier, member, same, known⟩
    obtain ⟨place, found⟩ := List.mem_iff_getElem?.mp member
    have bound : place < before.length := (List.getElem?_eq_some_iff.mp found).1
    refine ⟨place, bound, earlier, item, ?_, here, same, known⟩
    rwa [List.getElem?_append_left bound]

/-! ## One step of the walk -/

theorem notes_nil : Notes [] [] := by simp [Notes]

theorem Notes.copy {seen : List ClassName} {before : List Ranked} {item : Ranked}
    (notes : Notes seen before) (copy : item.name ∈ seen) : Notes seen (before ++ [item]) := by
  intro name
  constructor
  · intro noted
    obtain ⟨earlier, member, found⟩ := (notes name).mp noted
    exact ⟨earlier, List.mem_append_left _ member, found⟩
  · rintro ⟨earlier, member, same, known⟩
    rcases List.mem_append.mp member with isBefore | isItem
    · exact (notes name).mpr ⟨earlier, isBefore, same, known⟩
    · rw [List.mem_singleton.mp isItem] at same
      exact same ▸ copy

theorem Notes.new {seen : List ClassName} {before : List Ranked} (notes : Notes seen before)
    (item : Ranked) :
    Notes (if item.rank.isSome then item.name :: seen else seen) (before ++ [item]) := by
  intro name
  have split : (∃ earlier ∈ before ++ [item], earlier.name = name ∧ earlier.rank.isSome = true) ↔
      name ∈ seen ∨ item.name = name ∧ item.rank.isSome = true := by
    simp [notes name, or_and_right, exists_or]
  rw [split]
  cases item.rank.isSome with
  | true => simp [or_comm, eq_comm]
  | false => simp

/-! ## The whole walk -/

theorem mem_removed_iff {seen : List ClassName} {before : List Ranked} (notes : Notes seen before)
    (items : List Ranked) (index : Nat) :
    index ∈ (dropCopies seen before.length items).removed ↔
      before.length ≤ index ∧ IsCopyAt (before ++ items) index := by
  induction items generalizing seen before with
  | nil =>
    refine iff_of_false List.not_mem_nil ?_
    rintro ⟨bound, place, -, earlier, item, -, found, -⟩
    rw [List.append_nil, List.getElem?_eq_none bound] at found
    cases found
  | cons item rest ih =>
    have further {seen' : List ClassName} (notes' : Notes seen' (before ++ [item])) :
        index ∈ (dropCopies seen' (before.length + 1) rest).removed ↔
          before.length + 1 ≤ index ∧ IsCopyAt (before ++ item :: rest) index := by
      simpa using ih notes'
    have here : IsCopyAt (before ++ item :: rest) before.length ↔ item.name ∈ seen :=
      isCopyAt_length_iff.trans (notes item.name).symm
    rw [dropCopies, Nat.le_iff_lt_or_eq, or_and_right, ← Nat.succ_le_iff]
    split
    next copy =>
      have noted : item.name ∈ seen := List.contains_iff_mem.mp copy
      rw [List.mem_cons, further (notes.copy noted)]
      constructor
      · rintro (rfl | later)
        · exact .inr ⟨rfl, here.mpr noted⟩
        · exact .inl later
      · rintro (later | ⟨rfl, -⟩)
        · exact .inr later
        · exact .inl rfl
    next fresh =>
      rw [further (notes.new item)]
      refine (or_iff_left ?_).symm
      rintro ⟨rfl, isCopy⟩
      exact fresh (List.contains_iff_mem.mpr (here.mp isCopy))

/-- What stays are the names at all positions but the removed ones. -/
theorem dropCopies_classes_eq_filter (seen : List ClassName) (position : Nat)
    (items : List Ranked) :
    (dropCopies seen position items).classes =
      ((items.zipIdx position).filter fun entry =>
        !(dropCopies seen position items).removed.contains entry.2).map (·.1.name) := by
  fun_induction dropCopies seen position items with
  | case1 => rfl
  | case2 seen position item rest copy later ih =>
    have behind : (rest.zipIdx (position + 1)).filter
          (fun entry => !(position :: later.removed).contains entry.2) =
        (rest.zipIdx (position + 1)).filter fun entry => !later.removed.contains entry.2 := by
      refine List.filter_congr fun entry member => ?_
      have passed : position + 1 ≤ entry.2 := List.le_snd_of_mem_zipIdx member
      have other : (entry.2 == position) = false := beq_eq_false_iff_ne.mpr (by omega)
      rw [List.contains_cons, other, Bool.false_or]
    rw [List.zipIdx_cons, List.filter_cons_of_neg (by simp), behind]
    exact ih
  | case3 seen position item rest fresh seen' later ih =>
    have stays : position ∉ later.removed := by
      intro member
      have bounds := dropCopies_bounds seen' (position + 1) rest position member
      omega
    rw [List.zipIdx_cons, List.filter_cons_of_pos (by simpa using stays), List.map_cons]
    exact congrArg (item.name :: ·) ih

/-- Whether ranked classes in order lose just those that have a known class of the same name before
them. -/
structure DropsCopies (ordered : List Ranked) (result : Arrangement) : Prop where
  removed_iff : ∀ index, index ∈ result.removed ↔ IsCopyAt ordered index
  increasing : result.removed.Pairwise (· < ·)
  stay : result.classes =
    (ordered.zipIdx.filter fun entry => !result.removed.contains entry.2).map (·.1.name)
  first_stays : 0 ∉ result.removed
  sizes : result.classes.length + result.removed.length = ordered.length
  known_once : ∀ {index place : Nat} {item other : Ranked}, index ≠ place →
    ordered[index]? = some item → ordered[place]? = some other → item.name = other.name →
      item.rank.isSome = true → other.rank.isSome = true →
        index ∈ result.removed ∨ place ∈ result.removed
  unknown_stays : ∀ {index : Nat} {item : Ranked}, ordered[index]? = some item →
    item.rank = none → (∀ place < index, ∀ earlier, ordered[place]? = some earlier →
      earlier.rank.isSome = true → earlier.name ≠ item.name) → index ∉ result.removed

theorem dropCopies_dropsCopies (ordered : List Ranked) :
    DropsCopies ordered (dropCopies [] 0 ordered) := by
  have removed_iff (index : Nat) :
      index ∈ (dropCopies [] 0 ordered).removed ↔ IsCopyAt ordered index := by
    simpa using mem_removed_iff notes_nil ordered index
  constructor
  case removed_iff => exact removed_iff
  case increasing => exact dropCopies_increasing [] 0 ordered
  case stay => exact dropCopies_classes_eq_filter [] 0 ordered
  case first_stays =>
    rw [removed_iff]
    rintro ⟨place, bound, -⟩
    exact Nat.not_lt_zero place bound
  case sizes =>
    have sizes := (dropCopies_perm [] [] ordered).length_eq
    simpa using sizes
  case known_once =>
    intro index place item other different found otherFound same known otherKnown
    rw [removed_iff, removed_iff]
    rcases Nat.lt_or_gt_of_ne different with before | behind
    · exact .inr ⟨index, before, item, other, found, otherFound, same, known⟩
    · exact .inl ⟨place, behind, other, item, otherFound, found, same.symm, otherKnown⟩
  case unknown_stays =>
    intro index item found _ none_before
    rw [removed_iff]
    rintro ⟨place, bound, earlier, _, earlierFound, again, same, known⟩
    cases found.symm.trans again
    exact none_before place bound earlier earlierFound known same

end Arrangement

/-- Copies of known classes are dropped, and nothing else, unless copies are to be kept. -/
theorem Sorter.arrangement_dropsCopies (sorter : Sorter) (dropCopies : Bool)
    (classes : List ClassName) :
    (sorter.arrangement dropCopies classes).classes.length +
        (sorter.arrangement dropCopies classes).removed.length = (sorter.ranker classes).length ∧
      if dropCopies = true ∧ sorter.options.preserveCopies = false then
        Arrangement.DropsCopies (arrange sorter.ranker classes)
          (sorter.arrangement dropCopies classes)
      else sorter.arrangement dropCopies classes =
        ⟨(arrange sorter.ranker classes).map (·.name), []⟩ := by
  refine ⟨Arrangement.ofClasses_length _ _ _, ?_⟩
  rw [arrangement, Arrangement.ofClasses]
  cases dropCopies <;> cases sorter.options.preserveCopies
  case true.false => exact Arrangement.dropCopies_dropsCopies (arrange sorter.ranker classes)
  all_goals rfl

/-- An unknown class stays behind an unknown one of its name, and goes behind a known one. -/
example :
    let unknown : Ranked := ⟨['…'], none⟩
    Arrangement.dropCopies [] 0 [unknown, unknown, ⟨['…'], some (.int 1)⟩, unknown] =
      ⟨[['…'], ['…'], ['…']], [3]⟩ := by
  decide

end ClassTidy
