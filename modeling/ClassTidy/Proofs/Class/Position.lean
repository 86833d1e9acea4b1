import ClassTidy.Class.Order
import ClassTidy.Proofs.Config.Distinct

/-!
# Positions and ranks in a canonical order

The members of a list are numbered from zero in the order in which they are first met, and equal
ones get one number. The number of distinct members is above all of these numbers, so the rank of a
class tells both its variants and the position of its base name, and ranks compare as these two do.
-/

set_option autoImplicit false

namespace ClassTidy.CanonicalOrder

/-- The position of a value among the members. -/
def place? (order : CanonicalOrder) (value : Value) : Option Nat :=
  order.members.findIdx? (·.same value)

/-- The order in which values are first met. -/
def listed (values : List Value) : CanonicalOrder := ⟨Value.distinct values⟩

theorem ofValues?_eq_listed {values : List Value}
    (simple : ∀ value ∈ values, value.isCompound = false) :
    ofValues? values = some (listed values) := by
  have none_compound : values.any (·.isCompound) = false :=
    List.any_eq_false.mpr fun value member => by simp [simple value member]
  rw [ofValues?, none_compound]
  rfl

/-! ## Positions -/

section

variable {order : CanonicalOrder} {a b : Value} {place : Nat}

theorem place?_lt (placed : order.place? a = some place) : place < order.members.length :=
  (List.findIdx?_eq_some_iff_getElem.mp placed).1

theorem place?_congr (same : a.same b = true) : order.place? a = order.place? b := by
  simp only [place?, Value.same_congr same]

theorem same_of_place? (placedA : order.place? a = some place)
    (placedB : order.place? b = some place) : a.same b = true := by
  obtain ⟨_, sameA, -⟩ := List.findIdx?_eq_some_iff_getElem.mp placedA
  obtain ⟨_, sameB, -⟩ := List.findIdx?_eq_some_iff_getElem.mp placedB
  rwa [Value.same_comm, Value.same_congr sameA, Value.same_comm] at sameB

end

theorem place?_eq_none {values : List Value} {value : Value}
    (absent : ∀ other ∈ values, other.same value = false) : (listed values).place? value = none :=
  List.findIdx?_eq_none_iff.mpr fun other member =>
    absent other (Value.mem_of_mem_distinctFrom member)

section

variable {value : Value} (keyed : value.key?.isSome = true)
include keyed

theorem exists_place? {values : List Value} (member : value ∈ values) :
    ∃ place, (listed values).place? value = some place := by
  obtain ⟨other, isMember, same⟩ := Value.exists_same_of_mem [] member keyed
  rw [← Option.isSome_iff_exists, place?, List.findIdx?_isSome, List.any_eq_true]
  exact ⟨other, isMember, same⟩

/-- What follows a value in a list does not change its position. -/
theorem place?_append_of_mem {values : List Value} (member : value ∈ values) (more : List Value) :
    (listed (values ++ more)).place? value = (listed values).place? value := by
  obtain ⟨place, placed⟩ := exists_place? keyed member
  rw [place?, listed, Value.distinct_append, List.findIdx?_append]
  exact (congrArg (Option.or · _) placed).trans placed.symm

/-- A value that is first met behind others has as many positions in front of it as these take. -/
theorem place?_of_fresh {values : List Value}
    (fresh : ∀ other ∈ values, other.same value = false) (more : List Value) :
    (listed (values ++ value :: more)).place? value = some (listed values).members.length := by
  have notSeen : (Value.distinct values).any (·.same value) = false :=
    List.any_eq_false.mpr fun other member => by
      simp [fresh other (Value.mem_of_mem_distinctFrom member)]
  have nowhere : (Value.distinct values).findIdx? (·.same value) = none :=
    place?_eq_none fresh
  rw [place?, listed, Value.distinct_append, Value.distinctFrom, if_neg (by simp [notSeen]),
    List.findIdx?_append, nowhere, List.findIdx?_cons, Value.same_self keyed]
  simp [listed]

end

/-- Whether an order numbers the values of a list from zero, with one number for equal values, in
the order in which they are first met. -/
structure Numbers (order : CanonicalOrder) (values : List Value) : Prop where
  placed : ∀ value ∈ values, ∃ place < order.members.length, order.place? value = some place
  reached : ∀ place < order.members.length, ∃ value ∈ values, order.place? value = some place
  same_iff : ∀ a ∈ values, ∀ b ∈ values, order.place? a = order.place? b ↔ a.same b = true
  rising : ∀ a ∈ values, ∀ b ∈ values,
    values.findIdx (·.same a) < values.findIdx (·.same b) →
      ∃ place place', order.place? a = some place ∧ order.place? b = some place' ∧ place < place'

section

variable {values : List Value} (keyed : ∀ value ∈ values, value.key?.isSome = true)
include keyed

/-- Each position is that of the member there, since no member in front is equal to it. -/
theorem place?_getElem {place : Nat} (bound : place < (listed values).members.length) :
    (listed values).place? (listed values).members[place] = some place := by
  have member : (listed values).members[place] ∈ values :=
    Value.mem_of_mem_distinctFrom (List.getElem_mem bound)
  have apart : (listed values).members.Pairwise fun a b => a.same b = false :=
    Value.distinct_pairwise values
  refine List.findIdx?_eq_some_iff_getElem.mpr ⟨bound, Value.same_self (keyed _ member), ?_⟩
  intro earlier less
  simpa using List.pairwise_iff_getElem.mp apart earlier place (less.trans bound) bound less

theorem exists_place?_lt_place? {a b : Value} (member : b ∈ values)
    (first : values.findIdx (·.same a) < values.findIdx (·.same b)) :
    ∃ place place', (listed values).place? a = some place ∧
      (listed values).place? b = some place' ∧ place < place' := by
  have met : (values.find? (·.same b)).isSome = true :=
    List.find?_isSome.mpr ⟨b, member, Value.same_self (keyed b member)⟩
  obtain ⟨found, isFound⟩ := Option.isSome_iff_exists.mp met
  obtain ⟨sameB, before, after, rfl, others⟩ := List.find?_eq_some_iff_append.mp isFound
  have fresh : ∀ other ∈ before, other.same b = false := by simpa using others
  have here : (before ++ found :: after).findIdx (·.same b) = before.length := by
    rw [List.findIdx_append, if_neg, List.findIdx_cons, sameB]
    · exact Nat.zero_add _
    · rw [List.findIdx_lt_length]
      rintro ⟨other, isBefore, same⟩
      rw [fresh other isBefore] at same
      cases same
  rw [here, List.findIdx_append] at first
  split at first
  · next earlier =>
    obtain ⟨other, isBefore, sameA⟩ := List.findIdx_lt_length.mp earlier
    have keyedOther := keyed other (List.mem_append_left _ isBefore)
    obtain ⟨place, placed⟩ := exists_place? keyedOther isBefore
    refine ⟨place, (listed before).members.length, ?_, ?_, place?_lt placed⟩
    · rw [← place?_congr sameA, place?_append_of_mem keyedOther isBefore, placed]
    · have keyedFound := keyed found (List.mem_append_right _ List.mem_cons_self)
      rw [← place?_congr sameB]
      refine place?_of_fresh keyedFound (fun other isBefore => ?_) after
      rw [Value.same_congr sameB, fresh other isBefore]
  · omega

theorem listed_numbers : (listed values).Numbers values where
  placed value member := by
    obtain ⟨place, placed⟩ := exists_place? (keyed value member) member
    exact ⟨place, place?_lt placed, placed⟩
  reached place bound :=
    ⟨_, Value.mem_of_mem_distinctFrom (List.getElem_mem bound), place?_getElem keyed bound⟩
  same_iff a member b _ := by
    constructor
    · intro together
      obtain ⟨place, placed⟩ := exists_place? (keyed a member) member
      exact same_of_place? placed (together ▸ placed)
    · exact place?_congr
  rising _ _ _ member first := exists_place?_lt_place? keyed member first

end

/-! ## Ranks -/

section

variable {order : CanonicalOrder} {name : ClassName} {rank : Nat}

/-- The rank of a class tells the position of its base name and its variants apart. -/
theorem rank?_eq_some_iff :
    order.rank? name = some rank ↔
      order.position? name.base = some (rank % order.members.length) ∧
        rank / order.members.length = name.variants := by
  rw [rank?, Option.map_eq_some_iff]
  constructor
  · rintro ⟨place, placed, rfl⟩
    have bound : place < order.members.length := place?_lt placed
    rw [Nat.mul_add_mod_of_lt bound, Nat.mul_comm, Nat.mul_add_div (by omega),
      Nat.div_eq_of_lt bound]
    exact ⟨placed, rfl⟩
  · rintro ⟨placed, blocks⟩
    refine ⟨_, placed, ?_⟩
    rw [← blocks]
    exact Nat.div_add_mod' _ _

theorem rank?_eq_none_iff : order.rank? name = none ↔ order.position? name.base = none :=
  Option.map_eq_none_iff

end

theorem mul_add_lt_iff {size variants variants' place place' : Nat} (bound : place < size)
    (bound' : place' < size) :
    variants * size + place < variants' * size + place' ↔
      toLex (variants, place) < toLex (variants', place') := by
  rw [Prod.Lex.toLex_lt_toLex]
  rcases lt_trichotomy variants variants' with less | rfl | more
  · have block := Nat.mul_le_mul_right size (Nat.succ_le_of_lt less)
    rw [Nat.succ_mul] at block
    exact iff_of_true (by omega) (.inl less)
  · simp
  · have block := Nat.mul_le_mul_right size (Nat.succ_le_of_lt more)
    rw [Nat.succ_mul] at block
    refine iff_of_false (by omega) ?_
    rintro (less | ⟨rfl, -⟩)
    · exact less.asymm more
    · exact more.false

theorem rank_lt_rank_iff {order : CanonicalOrder} {name other : ClassName}
    {rank rank' place place' : Nat} (known : order.rank? name = some rank)
    (known' : order.rank? other = some rank') (placed : order.position? name.base = some place)
    (placed' : order.position? other.base = some place') :
    rank < rank' ↔ toLex (name.variants, place) < toLex (other.variants, place') := by
  rw [rank?, placed] at known
  rw [rank?, placed'] at known'
  cases known
  cases known'
  exact mul_add_lt_iff (place?_lt placed) (place?_lt placed')

/-- Whether the classes with a listed base name have ranks, made up of a position and a number of
variants, and no other ones have. The variants count first, then the positions. -/
structure RanksLexicographically (order : CanonicalOrder) (values : List Value) : Prop where
  listed : ∀ name : ClassName, .text name.base ∈ values → ∃ rank,
    order.rank? name = some rank ∧
      order.position? name.base = some (rank % order.members.length) ∧
      rank / order.members.length = name.variants
  unlisted : ∀ name : ClassName, .text name.base ∉ values → order.rank? name = none
  lt_iff : ∀ {name other : ClassName} {rank rank' place place' : Nat},
    order.rank? name = some rank → order.rank? other = some rank' →
    order.position? name.base = some place → order.position? other.base = some place' →
      (rank < rank' ↔ toLex (name.variants, place) < toLex (other.variants, place'))
  eq_iff : ∀ {name other : ClassName} {rank rank' place place' : Nat},
    order.rank? name = some rank → order.rank? other = some rank' →
    order.position? name.base = some place → order.position? other.base = some place' →
      (rank = rank' ↔ name.variants = other.variants ∧ place = place')
  lt_of_fewer : ∀ {name other : ClassName} {rank rank' : Nat},
    order.rank? name = some rank → order.rank? other = some rank' →
      name.variants < other.variants → rank < rank'

theorem listed_ranksLexicographically {values : List Value}
    (keyed : ∀ value ∈ values, value.key?.isSome = true) :
    (listed values).RanksLexicographically values where
  listed name member := by
    obtain ⟨place, placed⟩ := exists_place? (keyed _ member) member
    have known : (listed values).rank? name = some _ := congrArg (Option.map _) placed
    exact ⟨_, known, rank?_eq_some_iff.mp known⟩
  unlisted name absent := by
    refine rank?_eq_none_iff.mpr (place?_eq_none fun other member => ?_)
    rw [← Bool.not_eq_true, Value.same_text_iff]
    rintro rfl
    exact absent member
  lt_iff := rank_lt_rank_iff
  eq_iff {name other rank rank' place place'} known known' placed placed' := by
    constructor
    · rintro rfl
      obtain ⟨here, blocks⟩ := rank?_eq_some_iff.mp known
      obtain ⟨here', blocks'⟩ := rank?_eq_some_iff.mp known'
      rw [here] at placed
      rw [here'] at placed'
      exact ⟨blocks.symm.trans blocks', Option.some_inj.mp (placed.symm.trans placed')⟩
    · rintro ⟨sameVariants, rfl⟩
      rw [rank?, placed, sameVariants] at known
      rw [rank?, placed'] at known'
      exact Option.some_inj.mp (known.symm.trans known')
  lt_of_fewer {name other rank rank'} known known' fewer := by
    have placed := (rank?_eq_some_iff.mp known).1
    have placed' := (rank?_eq_some_iff.mp known').1
    exact (rank_lt_rank_iff known known' placed placed').mpr
      (Prod.Lex.toLex_lt_toLex.mpr (.inl fewer))

theorem ofValues?_ranksLexicographically {values : List Value}
    (simple : ∀ value ∈ values, value.isCompound = false)
    (notNaN : ∀ value ∈ values, value.isNaN = false) :
    ∃ order, ofValues? values = some order ∧ order.Numbers values ∧
      order.RanksLexicographically values := by
  have keyed : ∀ value ∈ values, value.key?.isSome = true := fun value member =>
    Value.key?_isSome_iff.mpr ⟨simple value member, notNaN value member⟩
  exact ⟨listed values, ofValues?_eq_listed simple, listed_numbers keyed,
    listed_ranksLexicographically keyed⟩

/-- Of these six values four are distinct: a true truth value is equal to one. -/
theorem ofValues?_ranksLexicographically_mixed :
    let values := [.number (.int 1), .text ['a'], .bool true, .text ['b'], .text ['a'], .null]
    ((∀ value ∈ values, value.isCompound = false) ∧ ∀ value ∈ values, value.isNaN = false) ∧
      ∃ order, ofValues? values = some order ∧ order.Numbers values ∧
        order.RanksLexicographically values :=
  ⟨⟨by decide, by decide⟩, ofValues?_ranksLexicographically (by decide) (by decide)⟩

end ClassTidy.CanonicalOrder
