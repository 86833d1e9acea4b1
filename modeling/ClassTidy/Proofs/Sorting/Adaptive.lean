import ClassTidy.Proofs.Sorting.Merge
import ClassTidy.Sorting.Adaptive

/-!
# Sorting on a scale

The whole sort goes up any scale that its comparison goes by, and keeps the order of the elements
at each level place. On a scale of a single place this says that every comparison, order or not,
gives a rearrangement of the list; on a scale whose places are all level it settles the result.
-/

set_option autoImplicit false

namespace ClassTidy.Sorting

variable {α : Type} {lt : α → α → Bool} {κ : Type} [LinearOrder κ] {scale : Scale lt κ}

/-! ## Runs -/

private theorem chain_pairwise (linked : α → α → Bool) (related : α → α → Prop)
    {valid : α → Prop}
    (link : ∀ {a b : α}, valid a → valid b → linked a b = true → related a b)
    (trans : ∀ {a b c : α}, related a b → related b c → related a c) {previous : α}
    {items : List α} (itemsValid : ∀ item ∈ previous :: items, valid item) :
    (previous :: (chain linked previous items).1).Pairwise related := by
  fun_induction chain linked previous items with
  | case1 => exact List.pairwise_singleton _ _
  | case2 previous item rest holds next ih =>
    obtain ⟨previousValid, restValid⟩ := List.forall_mem_cons.mp itemsValid
    have fromItem : (item :: next.1).Pairwise related := ih restValid
    have first : related previous item := link previousValid (restValid item (by simp)) holds
    refine List.pairwise_cons.mpr
      ⟨List.forall_mem_cons.mpr ⟨first, fun later member => ?_⟩, fromItem⟩
    exact trans first ((List.pairwise_cons.mp fromItem).1 later member)
  | case3 => exact List.pairwise_singleton _ _

/-- A run that goes down at every step has at most one element at each level place, so it may be
turned round. -/
theorem Scale.Rearranges.turn {items : List α}
    (falling : items.Pairwise fun a b => scale.Overtakes b a) :
    scale.Rearranges items items.reverse := by
  induction items with
  | nil => exact .refl _
  | cons first rest ih =>
    obtain ⟨overtakes, restFalling⟩ := List.pairwise_cons.mp falling
    have moved : scale.Rearranges ([first] ++ rest) (rest ++ [first]) :=
      .swap fun a memberA b memberB => List.mem_singleton.mp memberA ▸ overtakes b memberB
    rw [List.reverse_cons]
    exact moved.trans ((ih restFalling).append_right [first])

theorem nextRun_sorts {items : List α} (valid : ∀ item ∈ items, scale.valid item) :
    scale.Sorted (nextRun lt items).1 ∧
      scale.Rearranges items ((nextRun lt items).1 ++ (nextRun lt items).2) := by
  fun_cases nextRun lt items with
  | case1 => exact ⟨Scale.sorted_nil, .refl _⟩
  | case2 only => exact ⟨Scale.sorted_singleton (valid only (by simp)), .refl _⟩
  | case3 first second rest down run =>
    have falling := chain_pairwise (fun previous item => lt item previous)
      (fun a b => scale.Overtakes b a)
      (fun validA validB less => Scale.overtakes_of_lt validB validA less)
      (fun overtakes overtakes' => overtakes'.trans_le overtakes.1) valid
    simp only [chain, down, if_true] at falling
    have parts : (first :: second :: run.1) ++ run.2 = first :: second :: rest := by
      simp [run]
    have turned := (Scale.Rearranges.turn falling).append_right run.2
    refine ⟨⟨fun item member => valid item ?_, ?_⟩, parts ▸ turned⟩
    · rw [← parts]
      exact List.mem_append_left _ (List.mem_reverse.mp member)
    · exact List.pairwise_reverse.mpr (falling.imp fun overtakes => overtakes.1)
  | case4 first second rest notDown run =>
    have rising := chain_pairwise (fun previous item => !lt item previous)
      (fun a b => scale.place a ≤ scale.place b)
      (fun validA validB notLess => scale.le_of_not_lt validB validA (by simpa using notLess))
      (fun le le' => le.trans le') valid
    simp only [chain, notDown, Bool.not_false, if_true] at rising
    have parts : (first :: second :: run.1) ++ run.2 = first :: second :: rest := by
      simp [run]
    refine ⟨⟨fun item member => valid item ?_, rising⟩, parts ▸ .refl _⟩
    rw [← parts]
    exact List.mem_append_left _ member

theorem insert_sorts {run : List α} {item : α} (sorted : scale.Sorted run)
    (valid : scale.valid item) : scale.Sorts (run ++ [item]) (insert lt run item) := by
  obtain ⟨le_item, overtakes⟩ := bisect_divides (sorted.divides_not_gt valid)
  have parts := bisect_append (fun other => !lt item other) run
  have sorts := sorts_overtake _ (parts ▸ sorted) (Scale.sorted_singleton valid)
    (by simpa using le_item) (by simpa using overtakes)
  rwa [parts] at sorts

theorem foldl_insert_sorts {run items : List α} (sorted : scale.Sorted run)
    (valid : ∀ item ∈ items, scale.valid item) :
    scale.Sorts (run ++ items) (items.foldl (insert lt) run) := by
  induction items generalizing run with
  | nil => simpa using sorted.sorts
  | cons item rest ih =>
    obtain ⟨itemValid, restValid⟩ := List.forall_mem_cons.mp valid
    have inserted := insert_sorts sorted itemValid
    have sorts := ih inserted.sorted restValid
    refine .of_rearranges ?_ sorts
    simpa using inserted.toRearranges.append_right rest

/-! ## Runs that wait -/

/-- The elements of the runs that wait, which are given from the last to the first. -/
def Pending.elements : List (Pending α) → List α
  | [] => []
  | last :: others => elements others ++ last.run

def Scale.AllSorted (scale : Scale lt κ) (pending : List (Pending α)) : Prop :=
  ∀ waiting ∈ pending, scale.Sorted waiting.run

theorem Scale.allSorted_cons {waiting : Pending α} {pending : List (Pending α)} :
    scale.AllSorted (waiting :: pending) ↔ scale.Sorted waiting.run ∧ scale.AllSorted pending :=
  List.forall_mem_cons

theorem settle_sorts (power patience : Nat) {pending : List (Pending α)}
    (sorted : scale.AllSorted pending) :
    scale.AllSorted (settle lt power patience pending).1 ∧
      scale.Rearranges (Pending.elements pending)
        (Pending.elements (settle lt power patience pending).1) := by
  fun_induction settle lt power patience pending with
  | case1 patience last before others higher merged ih =>
    obtain ⟨lastSorted, beforeSorted, othersSorted⟩ :
        scale.Sorted last.run ∧ scale.Sorted before.run ∧ scale.AllSorted others := by
      simpa [Scale.allSorted_cons] using sorted
    have merges := mergeRuns_sorts patience beforeSorted lastSorted
    obtain ⟨allSorted, settles⟩ := ih (Scale.allSorted_cons.mpr ⟨merges.sorted, othersSorted⟩)
    refine ⟨allSorted, .trans ?_ settles⟩
    simpa [Pending.elements] using merges.toRearranges.append_left (Pending.elements others)
  | case2 => exact ⟨sorted, .refl _⟩
  | case3 => exact ⟨sorted, .refl _⟩

theorem mergeAll_sorts (patience : Nat) {pending : List (Pending α)}
    (sorted : scale.AllSorted pending) :
    scale.Sorts (Pending.elements pending) (mergeAll lt patience pending) := by
  fun_induction mergeAll lt patience pending with
  | case1 => exact Scale.sorted_nil.sorts
  | case2 patience only => exact (sorted only List.mem_cons_self).sorts
  | case3 patience last before =>
    exact mergeRuns_sorts patience (sorted before (by simp)) (sorted last (by simp))
  | case4 patience last before first others shorter merged ih =>
    obtain ⟨lastSorted, beforeSorted, firstSorted, othersSorted⟩ :
        scale.Sorted last.run ∧ scale.Sorted before.run ∧ scale.Sorted first.run ∧
          scale.AllSorted others := by
      simpa [Scale.allSorted_cons] using sorted
    have merges := mergeRuns_sorts patience firstSorted beforeSorted
    have allSorted : scale.AllSorted (last :: ⟨merged.1, first.power⟩ :: others) := by
      simpa [Scale.allSorted_cons] using ⟨lastSorted, merges.sorted, othersSorted⟩
    refine .of_rearranges ?_ (ih allSorted)
    have moved := merges.toRearranges.append_left (Pending.elements others)
    simpa [Pending.elements] using moved.append_right last.run
  | case5 patience last before first others notShorter merged ih =>
    obtain ⟨lastSorted, beforeSorted, firstSorted, othersSorted⟩ :
        scale.Sorted last.run ∧ scale.Sorted before.run ∧ scale.Sorted first.run ∧
          scale.AllSorted others := by
      simpa [Scale.allSorted_cons] using sorted
    have merges := mergeRuns_sorts patience beforeSorted lastSorted
    have allSorted : scale.AllSorted (⟨merged.1, before.power⟩ :: first :: others) := by
      simpa [Scale.allSorted_cons] using ⟨merges.sorted, firstSorted, othersSorted⟩
    refine .of_rearranges ?_ (ih allSorted)
    simpa [Pending.elements] using
      merges.toRearranges.append_left (Pending.elements others ++ first.run)

theorem closeLast_sorts (total nextLength patience : Nat) {pending : List (Pending α)}
    (sorted : scale.AllSorted pending) :
    scale.AllSorted (closeLast lt total nextLength patience pending).1 ∧
      scale.Rearranges (Pending.elements pending)
        (Pending.elements (closeLast lt total nextLength patience pending).1) := by
  unfold closeLast
  split
  · exact ⟨sorted, .refl _⟩
  case h_2 last others =>
    dsimp only
    generalize boundaryPower _ _ _ _ = power
    obtain ⟨allSorted, settles⟩ := settle_sorts power patience sorted
    split
    case h_1 ends => exact ⟨allSorted, settles⟩
    case h_2 last' others' ends =>
      rw [ends] at allSorted settles
      have parts := Scale.allSorted_cons.mp allSorted
      exact ⟨Scale.allSorted_cons.mpr parts, settles⟩

/-! ## The whole sort -/

theorem sortRuns_sorts (total least patience : Nat) {pending : List (Pending α)} {items : List α}
    (sorted : scale.AllSorted pending) (valid : ∀ item ∈ items, scale.valid item) :
    scale.Sorts (Pending.elements pending ++ items)
      (sortRuns lt total least patience pending items) := by
  fun_induction sortRuns lt total least patience pending items with
  | case1 patience pending => simpa using mergeAll_sorts patience sorted
  | case2 patience pending first rest natural wanted run closed ih =>
    obtain ⟨naturalSorted, cuts⟩ : scale.Sorted natural.1 ∧
        scale.Rearranges (first :: rest) (natural.1 ++ natural.2) := nextRun_sorts valid
    have followValid : ∀ item ∈ natural.2, scale.valid item := fun item member =>
      valid item (cuts.mem_iff.mpr (List.mem_append_right _ member))
    obtain ⟨closedSorted, closes⟩ := closeLast_sorts total run.length patience sorted
    have lengthened : scale.Sorts (natural.1 ++ natural.2.take wanted) run :=
      foldl_insert_sorts naturalSorted fun item member =>
        followValid item (List.mem_of_mem_take member)
    have sorts := ih (Scale.allSorted_cons.mpr ⟨lengthened.sorted, closedSorted⟩)
      fun item member => followValid item (List.mem_of_mem_drop member)
    refine .of_rearranges ?_ sorts
    calc scale.Rearranges (Pending.elements pending ++ first :: rest)
          (Pending.elements pending ++ (natural.1 ++ natural.2)) := cuts.append_left _
      _ = Pending.elements pending ++
          ((natural.1 ++ natural.2.take wanted) ++ natural.2.drop wanted) := by simp
      scale.Rearranges _ (Pending.elements closed.1 ++ (run ++ natural.2.drop wanted)) :=
        closes.append (lengthened.toRearranges.append_right _)
      _ = Pending.elements (⟨run, 0⟩ :: closed.1) ++ natural.2.drop wanted := by
        simp [Pending.elements]

/-- The result of a sort goes up every scale that the comparison goes by. -/
theorem adaptiveSort_sorts {items : List α} (valid : ∀ item ∈ items, scale.valid item) :
    scale.Sorts items (adaptiveSort lt items) := by
  have noneWaits : scale.AllSorted [] := by simp [Scale.AllSorted]
  exact sortRuns_sorts items.length _ initialPatience noneWaits valid

/-- The scale of a single place, which every comparison goes by. -/
def Scale.flat (lt : α → α → Bool) : Scale lt Unit where
  valid _ := True
  place _ := ()
  le_of_lt _ _ _ := le_refl _
  le_of_not_lt _ _ _ := le_refl _

/-- Whatever the comparison says, sorting loses nothing and adds nothing. -/
theorem adaptiveSort_perm (lt : α → α → Bool) (items : List α) :
    (adaptiveSort lt items).Perm items := by
  have sorts : (Scale.flat lt).Sorts items (adaptiveSort lt items) :=
    adaptiveSort_sorts fun _ _ => trivial
  exact sorts.perm.symm

/-- Where no place holds an element less than another one there, a list can be put in order in one
way only. -/
theorem Scale.Sorted.eq_of_rearranges (level : ∀ k, scale.Level k) {items items' : List α}
    (sorted : scale.Sorted items) (sorted' : scale.Sorted items')
    (rearranges : scale.Rearranges items items') : items = items' := by
  induction items generalizing items' with
  | nil => exact (List.nil_perm.mp rearranges.perm).symm
  | cons first rest ih =>
    cases items' with
    | nil => exact (List.not_mem_nil (rearranges.mem_iff.mp List.mem_cons_self)).elim
    | cons first' rest' =>
      obtain ⟨-, restSorted, first_le⟩ := Scale.sorted_cons.mp sorted
      obtain ⟨-, restSorted', first'_le⟩ := Scale.sorted_cons.mp sorted'
      have samePlace : scale.place first = scale.place first' := by
        apply le_antisymm
        · rcases List.mem_cons.mp (rearranges.mem_iff.mpr List.mem_cons_self) with rfl | later
          · exact le_refl _
          · exact first_le first' later
        · rcases List.mem_cons.mp (rearranges.mem_iff.mp List.mem_cons_self) with rfl | later
          · exact le_refl _
          · exact first'_le first later
      have sameStart := rearranges.level (scale.place first) (level _)
      rw [List.filter_cons_of_pos (by simp), List.filter_cons_of_pos (by simp [samePlace])]
        at sameStart
      obtain ⟨rfl, -⟩ := List.cons.inj sameStart
      have restRearranges : scale.Rearranges rest rest' := by
        refine ⟨rearranges.perm.cons_inv, fun k levelK => ?_⟩
        have whole := rearranges.level k levelK
        by_cases here : scale.place first = k
        · rw [List.filter_cons_of_pos (by simpa using here),
            List.filter_cons_of_pos (by simpa using here)] at whole
          exact (List.cons.inj whole).2
        · rwa [List.filter_cons_of_neg (by simpa using here),
            List.filter_cons_of_neg (by simpa using here)] at whole
      rw [ih restSorted restSorted' restRearranges]

/-- On a scale of level places sorting a sorted list changes nothing. -/
theorem adaptiveSort_eq_self (level : ∀ k, scale.Level k) {items : List α}
    (sorted : scale.Sorted items) : adaptiveSort lt items = items := by
  have sorts : scale.Sorts items (adaptiveSort lt items) := adaptiveSort_sorts sorted.valid
  exact (sorted.eq_of_rearranges level sorts.sorted sorts.toRearranges).symm

end ClassTidy.Sorting
