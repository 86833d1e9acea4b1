import ClassTidy.Proofs.Sorting.Cut
import Mathlib.Data.List.Basic
import Mathlib.Order.Lattice

/-!
# Comparisons on a scale

A comparison need not be an order for something to be said about sorting by it. It is enough that
the elements stand on a scale and that a lesser element never stands higher: then a sorted list
goes up the scale. Between elements at one place the comparison may answer as it likes. A place
where it never calls one element less than another is *level*, and elements at a level place keep
their order.
-/

set_option autoImplicit false

namespace ClassTidy.Sorting

/-- A scale that a comparison goes by, as far as valid elements are concerned. -/
structure Scale {α : Type} (lt : α → α → Bool) (κ : Type) [LinearOrder κ] where
  valid : α → Prop
  place : α → κ
  le_of_lt : ∀ {a b : α}, valid a → valid b → lt a b = true → place a ≤ place b
  le_of_not_lt : ∀ {a b : α}, valid a → valid b → lt a b = false → place b ≤ place a

namespace Scale

variable {α : Type} {lt : α → α → Bool} {κ : Type} [LinearOrder κ] (scale : Scale lt κ)

/-- Whether no element at a place is less than another one there. -/
def Level (k : κ) : Prop :=
  ∀ a b, scale.valid a → scale.valid b → scale.place a = k → scale.place b = k → lt a b = false

def Overtakes (a b : α) : Prop :=
  scale.place a ≤ scale.place b ∧ (scale.Level (scale.place a) → scale.place a < scale.place b)

structure Sorted (items : List α) : Prop where
  valid : ∀ item ∈ items, scale.valid item
  rising : items.Pairwise fun a b => scale.place a ≤ scale.place b

/-- A rearrangement that keeps the order of the elements at each level place. -/
structure Rearranges (before after : List α) : Prop where
  perm : before.Perm after
  level : ∀ k, scale.Level k →
    before.filter (scale.place · = k) = after.filter (scale.place · = k)

structure Sorts (before after : List α) : Prop extends scale.Rearranges before after where
  sorted : scale.Sorted after

variable {scale}

/-! ## Overtaking -/

theorem overtakes_of_lt {a b : α} (validA : scale.valid a) (validB : scale.valid b)
    (less : lt a b = true) : scale.Overtakes a b := by
  have le := scale.le_of_lt validA validB less
  refine ⟨le, fun level => lt_of_le_of_ne le fun same => ?_⟩
  have notLess := level a b validA validB rfl same.symm
  rw [less] at notLess
  cases notLess

theorem Overtakes.trans_le {a b c : α} (overtakes : scale.Overtakes a b)
    (le : scale.place b ≤ scale.place c) : scale.Overtakes a c :=
  ⟨overtakes.1.trans le, fun level => (overtakes.2 level).trans_le le⟩

theorem Overtakes.le_trans {a b c : α} (overtakes : scale.Overtakes b c)
    (le : scale.place a ≤ scale.place b) : scale.Overtakes a c := by
  refine ⟨le.trans overtakes.1, fun level => ?_⟩
  rcases lt_or_eq_of_le le with less | same
  · exact less.trans_le overtakes.1
  · rw [same] at level ⊢
    exact overtakes.2 level

/-! ## Sorted lists -/

theorem sorted_nil : scale.Sorted [] := ⟨by simp, .nil⟩

theorem sorted_singleton {item : α} (valid : scale.valid item) : scale.Sorted [item] :=
  ⟨by simpa using valid, List.pairwise_singleton _ _⟩

theorem sorted_append {front back : List α} :
    scale.Sorted (front ++ back) ↔ scale.Sorted front ∧ scale.Sorted back ∧
      ∀ a ∈ front, ∀ b ∈ back, scale.place a ≤ scale.place b := by
  constructor
  · rintro ⟨valid, rising⟩
    obtain ⟨frontRising, backRising, across⟩ := List.pairwise_append.mp rising
    exact ⟨⟨fun item member => valid item (List.mem_append_left _ member), frontRising⟩,
      ⟨fun item member => valid item (List.mem_append_right _ member), backRising⟩, across⟩
  · rintro ⟨⟨frontValid, frontRising⟩, ⟨backValid, backRising⟩, across⟩
    refine ⟨fun item member => ?_, List.pairwise_append.mpr ⟨frontRising, backRising, across⟩⟩
    rcases List.mem_append.mp member with inFront | inBack
    · exact frontValid item inFront
    · exact backValid item inBack

theorem sorted_cons {first : α} {rest : List α} :
    scale.Sorted (first :: rest) ↔ scale.valid first ∧ scale.Sorted rest ∧
      ∀ item ∈ rest, scale.place first ≤ scale.place item := by
  constructor
  · rintro ⟨valid, rising⟩
    obtain ⟨first_le, restRising⟩ := List.pairwise_cons.mp rising
    exact ⟨valid first List.mem_cons_self,
      ⟨fun item member => valid item (List.mem_cons_of_mem _ member), restRising⟩, first_le⟩
  · rintro ⟨firstValid, ⟨restValid, restRising⟩, first_le⟩
    exact ⟨List.forall_mem_cons.mpr ⟨firstValid, restValid⟩,
      List.pairwise_cons.mpr ⟨first_le, restRising⟩⟩

theorem Sorted.sublist {items some : List α} (sorted : scale.Sorted items)
    (sublist : some.Sublist items) : scale.Sorted some :=
  ⟨fun item member => sorted.valid item (sublist.subset member), sorted.rising.sublist sublist⟩

/-- A sorted list comes apart where a condition that holds low on the scale stops to hold. -/
theorem Sorted.filter_append {items : List α} (sorted : scale.Sorted items) {low : α → Bool}
    (closed : ∀ a ∈ items, ∀ b ∈ items, scale.place a ≤ scale.place b → low b = true →
      low a = true) :
    items.filter low ++ items.filter (fun item => !low item) = items := by
  induction items with
  | nil => rfl
  | cons first rest ih =>
    obtain ⟨-, restSorted, first_le⟩ := sorted_cons.mp sorted
    cases here : low first with
    | true =>
      have apart := ih restSorted fun a memberA b memberB =>
        closed a (List.mem_cons_of_mem _ memberA) b (List.mem_cons_of_mem _ memberB)
      rw [List.filter_cons_of_pos here, List.filter_cons_of_neg (by simp [here]),
        List.cons_append, apart]
    | false =>
      have high : ∀ item ∈ first :: rest, low item = false := by
        intro item member
        rcases List.mem_cons.mp member with rfl | later
        · exact here
        · rw [← Bool.not_eq_true]
          intro below
          have firstLow := closed first List.mem_cons_self item member (first_le item later) below
          rw [here] at firstLow
          cases firstLow
      rw [List.filter_eq_nil_iff.mpr fun item member => by simp [high item member],
        List.filter_eq_self.mpr fun item member => by simp [high item member], List.nil_append]

/-! ## Rearranging -/

namespace Rearranges

@[refl] theorem refl (items : List α) : scale.Rearranges items items := ⟨.refl _, fun _ _ => rfl⟩

@[symm] theorem symm {before after : List α} (rearranges : scale.Rearranges before after) :
    scale.Rearranges after before :=
  ⟨rearranges.perm.symm, fun k level => (rearranges.level k level).symm⟩

@[trans] theorem trans {before between after : List α} (first : scale.Rearranges before between)
    (second : scale.Rearranges between after) : scale.Rearranges before after :=
  ⟨first.perm.trans second.perm, fun k level => (first.level k level).trans (second.level k level)⟩

instance : Trans scale.Rearranges scale.Rearranges scale.Rearranges := ⟨trans⟩

/-- Lists that agree at each place, level or not, hold the same elements. -/
theorem of_filters {before after : List α}
    (same : ∀ k, before.filter (scale.place · = k) = after.filter (scale.place · = k)) :
    scale.Rearranges before after where
  perm := by
    classical
    refine List.perm_iff_count.mpr fun item => ?_
    have counted := congrArg (List.count item) (same (scale.place item))
    simpa only [List.count_filter, decide_true] using counted
  level k _ := same k

theorem append {before before' after after' : List α} (front : scale.Rearranges before after)
    (back : scale.Rearranges before' after') :
    scale.Rearranges (before ++ before') (after ++ after') where
  perm := front.perm.append back.perm
  level k level := by
    rw [List.filter_append, List.filter_append, front.level k level, back.level k level]

theorem append_left {before after : List α} (front : List α)
    (back : scale.Rearranges before after) :
    scale.Rearranges (front ++ before) (front ++ after) :=
  (refl front).append back

theorem append_right {before after : List α} (front : scale.Rearranges before after)
    (back : List α) : scale.Rearranges (before ++ back) (after ++ back) :=
  front.append (refl back)

theorem cons {before after : List α} (item : α) (back : scale.Rearranges before after) :
    scale.Rearranges (item :: before) (item :: after) :=
  append_left [item] back

theorem reverse {before after : List α} (rearranges : scale.Rearranges before after) :
    scale.Rearranges before.reverse after.reverse where
  perm := before.reverse_perm.trans (rearranges.perm.trans after.reverse_perm.symm)
  level k level := by
    rw [List.filter_reverse, List.filter_reverse, rearranges.level k level]

theorem swap {front back : List α}
    (overtakes : ∀ a ∈ front, ∀ b ∈ back, scale.Overtakes b a) :
    scale.Rearranges (front ++ back) (back ++ front) where
  perm := List.perm_append_comm
  level k level := by
    rw [List.filter_append, List.filter_append]
    have emptyOne : front.filter (scale.place · = k) = [] ∨
        back.filter (scale.place · = k) = [] := by
      simp only [List.filter_eq_nil_iff, decide_eq_true_eq]
      by_contra both
      push Not at both
      obtain ⟨⟨a, memberA, placeA⟩, b, memberB, placeB⟩ := both
      have less := (overtakes a memberA b memberB).2 (placeB ▸ level)
      exact less.ne (placeB.trans placeA.symm)
    rcases emptyOne with empty | empty <;> simp [empty]

theorem overtake {front back : List α} {item : α}
    (overtakes : ∀ a ∈ front, scale.Overtakes item a) :
    scale.Rearranges (front ++ item :: back) (item :: front ++ back) := by
  have moved : scale.Rearranges (front ++ [item]) ([item] ++ front) :=
    swap fun a memberA b memberB => List.mem_singleton.mp memberB ▸ overtakes a memberA
  simpa using moved.append_right back

/-- Between what comes first and what comes last, one stretch overtakes another one. -/
theorem exchange (first last : List α) {front back : List α}
    (overtakes : ∀ a ∈ front, ∀ b ∈ back, scale.Overtakes b a) :
    scale.Rearranges ((first ++ front) ++ (back ++ last)) (first ++ (back ++ (front ++ last))) := by
  have moved := ((swap overtakes).append_right last).append_left first
  simpa only [List.append_assoc] using moved

theorem mem_iff {before after : List α} (rearranges : scale.Rearranges before after) {item : α} :
    item ∈ before ↔ item ∈ after :=
  rearranges.perm.mem_iff

/-- Elements that all stand at one place keep their order. -/
theorem filter_eq (level : ∀ k, scale.Level k) {before after : List α}
    (rearranges : scale.Rearranges before after) {test : α → Bool}
    (together : ∀ a ∈ before, ∀ b ∈ before, test a = true → test b = true →
      scale.place a = scale.place b) :
    before.filter test = after.filter test := by
  by_cases met : ∃ a ∈ before, test a = true
  · obtain ⟨a, memberA, testA⟩ := met
    have there : ∀ b ∈ before, (test b && decide (scale.place b = scale.place a)) = test b := by
      intro b memberB
      cases testB : test b with
      | false => rfl
      | true => simpa using together b memberB a memberA testB testA
    have whole := congrArg (List.filter test) (rearranges.level (scale.place a) (level _))
    rwa [List.filter_filter, List.filter_filter, List.filter_congr there,
      List.filter_congr fun b memberB => there b (rearranges.mem_iff.mpr memberB)] at whole
  · have none : ∀ b ∈ before, ¬ test b = true := fun b member testB => met ⟨b, member, testB⟩
    rw [List.filter_eq_nil_iff.mpr none,
      List.filter_eq_nil_iff.mpr fun b member => none b (rearranges.mem_iff.mpr member)]

end Rearranges

/-! ## Sorting in parts -/

theorem Sorted.sorts {items : List α} (sorted : scale.Sorted items) : scale.Sorts items items :=
  ⟨.refl _, sorted⟩

namespace Sorts

theorem of_rearranges {before between after : List α} (first : scale.Rearranges before between)
    (then_sorts : scale.Sorts between after) : scale.Sorts before after :=
  ⟨first.trans then_sorts.toRearranges, then_sorts.sorted⟩

theorem append {front front' back back' : List α} (frontSorts : scale.Sorts front front')
    (backSorts : scale.Sorts back back')
    (le : ∀ a ∈ front, ∀ b ∈ back, scale.place a ≤ scale.place b) :
    scale.Sorts (front ++ back) (front' ++ back') := by
  refine ⟨frontSorts.toRearranges.append backSorts.toRearranges,
    sorted_append.mpr ⟨frontSorts.sorted, backSorts.sorted, ?_⟩⟩
  intro a memberA b memberB
  exact le a (frontSorts.mem_iff.mpr memberA) b (backSorts.mem_iff.mpr memberB)

theorem cons {first : α} {rest rest' : List α} (valid : scale.valid first)
    (le : ∀ item ∈ rest, scale.place first ≤ scale.place item)
    (restSorts : scale.Sorts rest rest') : scale.Sorts (first :: rest) (first :: rest') :=
  (sorted_singleton valid).sorts.append restSorts
    fun _ memberA b memberB => List.mem_singleton.mp memberA ▸ le b memberB

end Sorts

/-! ## Cutting a sorted list -/

theorem Sorted.divides_not_gt {items : List α} (sorted : scale.Sorted items) {item : α}
    (valid : scale.valid item) :
    Divides (fun other => !lt item other) (fun other => scale.place other ≤ scale.place item)
      (scale.Overtakes item) items where
  low_of_pass other member passes :=
    scale.le_of_not_lt valid (sorted.valid other member) (by simpa using passes)
  high_of_fail other member fails :=
    overtakes_of_lt valid (sorted.valid other member) (by simpa using fails)
  low_before := sorted.rising.imp fun le low => le.trans low
  high_after := sorted.rising.imp fun le high => high.trans_le le

theorem Sorted.divides_lt {items : List α} (sorted : scale.Sorted items) {item : α}
    (valid : scale.valid item) :
    Divides (fun other => lt other item) (scale.Overtakes · item)
      (fun other => scale.place item ≤ scale.place other) items where
  low_of_pass other member passes := overtakes_of_lt (sorted.valid other member) valid passes
  high_of_fail other member fails := scale.le_of_not_lt (sorted.valid other member) valid fails
  low_before := sorted.rising.imp fun le low => low.le_trans le
  high_after := sorted.rising.imp fun le high => high.trans le

end Scale

end ClassTidy.Sorting
