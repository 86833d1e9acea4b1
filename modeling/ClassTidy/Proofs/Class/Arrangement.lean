import ClassTidy.Proofs.Class.Standing

/-!
# What arranging does to a list of classes

Whatever the ranker answers, dropping copies parts the names in order into those that stay and
those that go. A ranker that goes by names alone can be said more about: arranging what was
arranged changes nothing, and an unknown empty class in front stays there without effect on the
others.
-/

set_option autoImplicit false

namespace ClassTidy

theorem arrange_perm (ranker : Ranker) (classes : List ClassName) :
    (arrange ranker classes).Perm (ranker classes) :=
  Sorting.adaptiveSort_perm _ _

namespace Arrangement

/-! ## Dropping copies -/

/-- The ranked classes that stay. -/
def kept (seen : List ClassName) : List Ranked → List Ranked
  | [] => []
  | item :: rest =>
    if seen.contains item.name then kept seen rest
    else item :: kept (if item.rank.isSome then item.name :: seen else seen) rest

theorem kept_sublist (seen : List ClassName) (items : List Ranked) :
    (kept seen items).Sublist items := by
  fun_induction kept seen items with
  | case1 => exact .slnil
  | case2 seen item rest copy ih => exact ih.cons item
  | case3 seen item rest new ih => exact ih.cons_cons item

theorem dropCopies_classes (seen : List ClassName) (position : Nat) (items : List Ranked) :
    (dropCopies seen position items).classes = (kept seen items).map (·.name) := by
  fun_induction dropCopies seen position items with
  | case1 => rfl
  | case2 seen position item rest copy later ih =>
    rw [kept, if_pos copy]
    exact ih
  | case3 seen position item rest new seen' later ih =>
    rw [kept, if_neg new, List.map_cons]
    exact congrArg (item.name :: ·) ih

/-- Among what stays there are no copies to drop. -/
theorem dropCopies_kept (seen : List ClassName) (position : Nat) (items : List Ranked) :
    dropCopies seen position (kept seen items) = ⟨(kept seen items).map (·.name), []⟩ := by
  fun_induction kept seen items generalizing position with
  | case1 => rfl
  | case2 seen item rest copy ih => exact ih position
  | case3 seen item rest new ih =>
    rw [dropCopies, if_neg new]
    simp only [ih (position + 1), List.map_cons]

theorem dropCopies_succ (seen : List ClassName) (position : Nat) (items : List Ranked) :
    dropCopies seen (position + 1) items =
      ⟨(dropCopies seen position items).classes,
        (dropCopies seen position items).removed.map (· + 1)⟩ := by
  induction items generalizing seen position with
  | nil => rfl
  | cons item rest ih =>
    rw [dropCopies, dropCopies]
    split
    · simp only [ih, List.map_cons]
    · simp only [ih]

theorem dropCopies_bounds (seen : List ClassName) (position : Nat) (items : List Ranked) :
    ∀ index ∈ (dropCopies seen position items).removed,
      position ≤ index ∧ index < position + items.length := by
  fun_induction dropCopies seen position items with
  | case1 => simp
  | case2 seen position item rest copy later ih =>
    intro index member
    rw [List.length_cons]
    rcases List.mem_cons.mp member with rfl | isLater
    · omega
    · have bounds := ih index isLater
      omega
  | case3 seen position item rest new seen' later ih =>
    intro index member
    rw [List.length_cons]
    have bounds := ih index member
    omega

theorem dropCopies_increasing (seen : List ClassName) (position : Nat) (items : List Ranked) :
    (dropCopies seen position items).removed.Pairwise (· < ·) := by
  fun_induction dropCopies seen position items with
  | case1 => exact .nil
  | case2 seen position item rest copy later ih =>
    refine List.pairwise_cons.mpr ⟨fun index member => ?_, ih⟩
    have bounds := dropCopies_bounds seen (position + 1) rest index member
    omega
  | case3 seen position item rest new seen' later ih => exact ih

/-- The names that stay and those at the positions that go make up all names. The names in front of
the position that is counted from do not matter. -/
theorem dropCopies_perm (seen before : List ClassName) (items : List Ranked) :
    ((dropCopies seen before.length items).classes ++
      (dropCopies seen before.length items).removed.map fun index =>
        (before ++ items.map (·.name)).getD index []).Perm (items.map (·.name)) := by
  induction items generalizing seen before with
  | nil => rfl
  | cons item rest ih =>
    have next := fun seen => ih seen (before ++ [item.name])
    simp only [List.length_append, List.length_singleton, List.append_assoc,
      List.singleton_append] at next
    rw [dropCopies]
    split
    · have here : (before ++ item.name :: rest.map (·.name)).getD before.length [] = item.name := by
        simp
      simp only [List.map_cons, here]
      exact List.perm_middle.trans ((next seen).cons item.name)
    · simp only [List.map_cons, List.cons_append]
      exact (next _).cons item.name

/-- A name is dropped only where it was seen before, or stays in front. -/
theorem dropCopies_dropped (seen before : List ClassName) (items : List Ranked) :
    ∀ index ∈ (dropCopies seen before.length items).removed,
      (before ++ items.map (·.name)).getD index [] ∈
        seen ++ (dropCopies seen before.length items).classes := by
  induction items generalizing seen before with
  | nil => simp [dropCopies]
  | cons item rest ih =>
    have next := fun seen => ih seen (before ++ [item.name])
    simp only [List.length_append, List.length_singleton, List.append_assoc,
      List.singleton_append] at next
    intro index member
    rw [dropCopies] at member ⊢
    split at member
    next copy =>
      rw [if_pos copy]
      rcases List.mem_cons.mp member with rfl | later
      · have here : (before ++ item.name :: rest.map (·.name)).getD before.length [] = item.name :=
          by simp
        rw [List.map_cons, here]
        exact List.mem_append_left _ (List.contains_iff_mem.mp copy)
      · exact next seen index later
    next new =>
      rw [if_neg new]
      have found := next _ index member
      rw [List.map_cons]
      rcases List.mem_append.mp found with known | kept
      · split at known
        next =>
          rcases List.mem_cons.mp known with same | seenBefore
          · rw [same]
            exact List.mem_append_right _ List.mem_cons_self
          · exact List.mem_append_left _ seenBefore
        next => exact List.mem_append_left _ known
      · exact List.mem_append_right _ (List.mem_cons_of_mem _ kept)

/-! ## Arranging with any ranker -/

section

variable (ranker : Ranker) (dropping : Bool) (classes : List ClassName)

theorem ofClasses_bounds : ∀ index ∈ (ofClasses ranker dropping classes).removed,
    0 < index ∧ index < (ranker classes).length := by
  intro index member
  have size := (arrange_perm ranker classes).length_eq
  cases dropping with
  | false => exact (List.not_mem_nil member).elim
  | true =>
    simp only [ofClasses, if_true] at member
    cases ordered : arrange ranker classes with
    | nil =>
      rw [ordered] at member
      exact (List.not_mem_nil member).elim
    | cons first rest =>
      rw [ordered, dropCopies, if_neg (by simp)] at member
      have bounds := dropCopies_bounds _ _ _ index member
      rw [ordered, List.length_cons] at size
      omega

theorem ofClasses_increasing :
    (ofClasses ranker dropping classes).removed.Pairwise (· < ·) := by
  cases dropping with
  | false => exact .nil
  | true => exact dropCopies_increasing _ _ _

/-- The names at the positions of dropped classes, among all names in order. -/
def droppedNames : List ClassName :=
  (ofClasses ranker dropping classes).removed.map fun index =>
    ((arrange ranker classes).map (·.name)).getD index []

theorem ofClasses_perm :
    ((ofClasses ranker dropping classes).classes ++ droppedNames ranker dropping classes).Perm
      ((ranker classes).map (·.name)) := by
  refine List.Perm.trans ?_ ((arrange_perm ranker classes).map _)
  cases dropping with
  | false => simp [ofClasses, droppedNames]
  | true => exact dropCopies_perm [] [] (arrange ranker classes)

theorem ofClasses_length :
    (ofClasses ranker dropping classes).classes.length +
      (ofClasses ranker dropping classes).removed.length = (ranker classes).length := by
  have sizes := (ofClasses_perm ranker dropping classes).length_eq
  simpa [droppedNames] using sizes

theorem ofClasses_ne_nil (answered : ranker classes ≠ []) :
    (ofClasses ranker dropping classes).classes ≠ [] := by
  have some_ordered : arrange ranker classes ≠ [] :=
    fun empty => answered (List.nil_perm.mp (empty ▸ arrange_perm ranker classes))
  cases ordered : arrange ranker classes with
  | nil => exact (some_ordered ordered).elim
  | cons first rest =>
    cases dropping with
    | false => simp [ofClasses, ordered]
    | true => simp [ofClasses, ordered, dropCopies]

/-- The first class in order has no copy in front of it, and stays. -/
theorem head?_ofClasses :
    (ofClasses ranker dropping classes).classes.head? =
      (arrange ranker classes).head?.map (·.name) := by
  rw [ofClasses]
  cases arrange ranker classes with
  | nil => cases dropping <;> rfl
  | cons first rest => cases dropping <;> rfl

theorem mem_of_mem_ofClasses {name : ClassName}
    (member : name ∈ (ofClasses ranker dropping classes).classes) :
    name ∈ (ranker classes).map (·.name) :=
  (ofClasses_perm ranker dropping classes).subset (List.mem_append_left _ member)

theorem droppedNames_subset :
    droppedNames ranker dropping classes ⊆ (ofClasses ranker dropping classes).classes := by
  intro name member
  obtain ⟨index, removed, rfl⟩ := List.mem_map.mp member
  cases dropping with
  | false => exact (List.not_mem_nil removed).elim
  | true => exact dropCopies_dropped [] [] (arrange ranker classes) index removed

end

end Arrangement

/-! ## Ranking by name -/

/-- Whether a ranker answers with the classes it is asked for, in any order. -/
def Ranker.IsFaithful (ranker : Ranker) : Prop :=
  ∀ classes, ((ranker classes).map (·.name)).Perm classes

/-- Ranks that depend on names alone, and are numbers. -/
structure Ranking where
  rank : ClassName → Option Number
  numeric : ∀ {name : ClassName} {number : Number}, rank name = some number → number.isNaN = false

namespace Ranking

variable (ranking : Ranking)

def ranked (name : ClassName) : Ranked := ⟨name, ranking.rank name⟩

def ranker : Ranker := fun classes => classes.map ranking.ranked

@[simp] theorem ranker_names (classes : List ClassName) :
    (ranking.ranker classes).map (·.name) = classes := by
  rw [ranker, List.map_map]
  exact List.map_id classes

@[simp] theorem ranker_length (classes : List ClassName) :
    (ranking.ranker classes).length = classes.length := by
  simp [ranker]

theorem ranker_isFaithful : ranking.ranker.IsFaithful := fun classes => by
  rw [ranker_names]

theorem arrange_sorts (classes : List ClassName) :
    Ranked.scale.Sorts (ranking.ranker classes) (arrange ranking.ranker classes) := by
  apply Sorting.adaptiveSort_sorts
  intro item member
  obtain ⟨name, -, rfl⟩ := List.mem_map.mp member
  exact fun number known => ranking.numeric known

theorem of_mem_arrange {classes : List ClassName} {item : Ranked}
    (member : item ∈ arrange ranking.ranker classes) :
    item.name ∈ classes ∧ ranking.ranked item.name = item := by
  obtain ⟨name, isClass, rfl⟩ := List.mem_map.mp ((arrange_perm _ _).subset member)
  exact ⟨isClass, rfl⟩

/-- Ranking the names of some of the arranged classes gives these classes back. -/
theorem ranker_names_of_sublist {classes : List ClassName} {some : List Ranked}
    (sublist : some.Sublist (arrange ranking.ranker classes)) :
    ranking.ranker (some.map (·.name)) = some := by
  have byName : ∀ item ∈ some, ranking.ranked item.name = item :=
    fun item member => (ranking.of_mem_arrange (sublist.subset member)).2
  rw [ranker, List.map_map]
  exact (List.map_congr_left byName).trans (List.map_id _)

/-- Arranging some of the arranged classes changes nothing. -/
theorem arrange_names_of_sublist {classes : List ClassName} {some : List Ranked}
    (sublist : some.Sublist (arrange ranking.ranker classes)) :
    arrange ranking.ranker (some.map (·.name)) = some := by
  rw [arrange, ranking.ranker_names_of_sublist sublist]
  exact Sorting.adaptiveSort_eq_self Ranked.scale_level
    ((ranking.arrange_sorts classes).sorted.sublist sublist)

/-- What was arranged stays as it is when it is arranged again, and has no copies to drop. -/
theorem ofClasses_ofClasses (dropping : Bool) (classes : List ClassName) :
    Arrangement.ofClasses ranking.ranker dropping
        (Arrangement.ofClasses ranking.ranker dropping classes).classes =
      ⟨(Arrangement.ofClasses ranking.ranker dropping classes).classes, []⟩ := by
  cases dropping with
  | false =>
    simp only [Arrangement.ofClasses, Bool.false_eq_true, if_false]
    rw [ranking.arrange_names_of_sublist (List.Sublist.refl _)]
  | true =>
    simp only [Arrangement.ofClasses, if_true, Arrangement.dropCopies_classes]
    rw [ranking.arrange_names_of_sublist (Arrangement.kept_sublist _ _)]
    exact Arrangement.dropCopies_kept _ _ _

theorem ranked_isNumeric (name : ClassName) : (ranking.ranked name).IsNumeric :=
  fun _ known => ranking.numeric known

theorem precedes_eq_false_iff (a b : ClassName) :
    (ranking.ranked a).precedes (ranking.ranked b) = false ↔
      (ranking.ranked b).standing ≤ (ranking.ranked a).standing := by
  rw [← Bool.not_eq_true,
    Ranked.precedes_iff (ranking.ranked_isNumeric a) (ranking.ranked_isNumeric b), not_lt]

/-- A class that no other one precedes stays in front of the others. -/
theorem arrange_cons_of_least {name : ClassName} {classes : List ClassName}
    (least : ∀ other ∈ classes,
      (ranking.ranked other).precedes (ranking.ranked name) = false) :
    arrange ranking.ranker (name :: classes) =
      ranking.ranked name :: arrange ranking.ranker classes := by
  have whole := ranking.arrange_sorts (name :: classes)
  have rest := ranking.arrange_sorts classes
  refine whole.sorted.eq_of_rearranges Ranked.scale_level ?_
    (whole.toRearranges.symm.trans (rest.toRearranges.cons _))
  refine Sorting.Scale.sorted_cons.mpr ⟨ranking.ranked_isNumeric name, rest.sorted, ?_⟩
  intro item member
  obtain ⟨isClass, ranked⟩ := ranking.of_mem_arrange member
  rw [← ranked]
  exact (ranking.precedes_eq_false_iff item.name name).mp (least item.name isClass)

/-- The first class comes out first just when no other one precedes it. -/
theorem head?_ofClasses_iff (dropping : Bool) (name : ClassName) (classes : List ClassName) :
    (Arrangement.ofClasses ranking.ranker dropping (name :: classes)).classes.head? = some name ↔
      ∀ other ∈ classes, (ranking.ranked other).precedes (ranking.ranked name) = false := by
  rw [Arrangement.head?_ofClasses]
  constructor
  · intro stays other member
    have sorts := ranking.arrange_sorts (name :: classes)
    obtain ⟨first, isFirst, sameName⟩ := Option.map_eq_some_iff.mp stays
    obtain ⟨rest, ordered⟩ := List.head?_eq_some_iff.mp isFirst
    rw [ordered] at sorts
    obtain ⟨chosen, -, rfl⟩ := List.mem_map.mp (sorts.mem_iff.mpr List.mem_cons_self)
    obtain rfl : chosen = name := sameName
    have placed : ranking.ranked other ∈ ranking.ranked chosen :: rest :=
      sorts.mem_iff.mp (List.mem_map_of_mem (List.mem_cons_of_mem _ member))
    rw [precedes_eq_false_iff]
    rcases List.mem_cons.mp placed with same | later
    · rw [same]
    · obtain ⟨-, -, first_le⟩ := Sorting.Scale.sorted_cons.mp sorts.sorted
      exact first_le _ later
  · intro least
    rw [ranking.arrange_cons_of_least least]
    rfl

section

variable {ranking : Ranking} (unnamed : ranking.rank [] = none)
include unnamed

/-- An unknown empty class in front of a list stays in front. -/
theorem arrange_nil_cons (classes : List ClassName) :
    arrange ranking.ranker ([] :: classes) = ⟨[], none⟩ :: arrange ranking.ranker classes := by
  have unknown : ranking.ranked [] = ⟨[], none⟩ := congrArg _ unnamed
  rw [← unknown]
  apply ranking.arrange_cons_of_least
  intro other _
  rw [precedes_eq_false_iff, unknown, Ranked.standing_of_unknown rfl rfl]
  exact Ranked.bottom_le_standing _

theorem ofClasses_nil_cons (dropping : Bool) (classes : List ClassName) :
    Arrangement.ofClasses ranking.ranker dropping ([] :: classes) =
      ⟨[] :: (Arrangement.ofClasses ranking.ranker dropping classes).classes,
        (Arrangement.ofClasses ranking.ranker dropping classes).removed.map (· + 1)⟩ := by
  simp only [Arrangement.ofClasses, arrange_nil_cons unnamed]
  cases dropping with
  | false => rfl
  | true =>
    simp only [if_true, Arrangement.dropCopies, List.contains_nil, Option.isSome_none,
      Bool.false_eq_true, if_false]
    rw [Arrangement.dropCopies_succ]

end

end Ranking

end ClassTidy
