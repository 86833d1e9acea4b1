import ClassTidy.Config.Value
import ClassTidy.Proofs.Class.Standing
import Mathlib.Data.List.Induction

/-!
# Distinct values

Values that are equal to themselves have a key, and are equal just when they have the same one. The
distinct values of a list are then one for each key in it: a value is kept where its key is met
first, whatever follows in the list.
-/

set_option autoImplicit false

namespace ClassTidy.Value

/-- What a value is compared by. -/
inductive Key where
  | null
  | text (value : Text)
  | place (place : Place)

def key? : Value → Option Key
  | null => some .null
  | text value => some (.text value)
  | bool value => (Number.int (if value then 1 else 0)).place?.map .place
  | number value => value.place?.map .place
  | _ => none

theorem same_iff {a b : Value} : a.same b = true ↔ ∃ key, a.key? = some key ∧ b.key? = some key := by
  have numbers (m n : Number) :
      m.same n = true ↔ ∃ place, m.place? = some place ∧ n.place? = some place := by
    rw [Number.same]
    cases m.place? with
    | none => simp
    | some p => cases n.place? <;> simp [eq_comm (a := p)]
  cases a <;> cases b <;> simp [same, key?, number?, numbers]
  case text.text => exact eq_comm

theorem key?_isSome_iff {value : Value} :
    value.key?.isSome = true ↔ value.isCompound = false ∧ value.isNaN = false := by
  cases value with
  | number value =>
    have placed : value.place?.isSome = !value.isNaN := by
      cases isNaN : value.isNaN with
      | true => rw [Number.place?_eq_none_iff.mpr isNaN]; rfl
      | false =>
        rw [← Bool.not_eq_true, ← Number.place?_eq_none_iff] at isNaN
        exact Option.isSome_iff_ne_none.mpr isNaN
    cases value <;> simpa [key?, isCompound, isNaN, Number.isNaN] using placed
  | _ => simp [key?, isCompound, isNaN, Number.place?]

theorem same_self {value : Value} (keyed : value.key?.isSome = true) : value.same value = true := by
  obtain ⟨key, found⟩ := Option.isSome_iff_exists.mp keyed
  exact same_iff.mpr ⟨key, found, found⟩

theorem same_comm {a b : Value} : a.same b = b.same a := by
  rw [Bool.eq_iff_iff, same_iff, same_iff]
  exact exists_congr fun _ => and_comm

theorem same_congr {a b : Value} (same : a.same b = true) (other : Value) :
    other.same a = other.same b := by
  obtain ⟨key, keyA, keyB⟩ := same_iff.mp same
  rw [Bool.eq_iff_iff, same_iff, same_iff, keyA, keyB]

theorem same_text_iff {value : Value} {text : Text} :
    value.same (.text text) = true ↔ value = .text text := by
  cases value <;> simp [same, number?]

/-! ## The distinct values of a list -/

theorem mem_of_mem_distinctFrom {value : Value} {seen values : List Value}
    (member : value ∈ distinctFrom seen values) : value ∈ values := by
  induction values generalizing seen with
  | nil => exact member
  | cons first rest ih =>
    rw [distinctFrom] at member
    split at member
    · exact List.mem_cons_of_mem _ (ih member)
    · rcases List.mem_cons.mp member with rfl | later
      · exact List.mem_cons_self
      · exact List.mem_cons_of_mem _ (ih later)

theorem any_isCompound_distinct {values : List Value}
    (simple : values.any (·.isCompound) = false) : (distinct values).any (·.isCompound) = false := by
  simp only [List.any_eq_false] at simple ⊢
  exact fun value member => simple value (mem_of_mem_distinctFrom member)

theorem distinctFrom_append (seen values more : List Value) :
    distinctFrom seen (values ++ more) =
      distinctFrom seen values ++ distinctFrom (seen ++ distinctFrom seen values) more := by
  induction values generalizing seen with
  | nil => simp [distinctFrom]
  | cons value rest ih =>
    rw [List.cons_append, distinctFrom, distinctFrom]
    split
    · exact ih seen
    · rw [ih, List.cons_append, List.append_assoc, List.singleton_append]

theorem distinct_append (values more : List Value) :
    distinct (values ++ more) = distinct values ++ distinctFrom (distinct values) more :=
  distinctFrom_append [] values more

/-- No value that stays is equal to one seen before, or to one that stays in front of it. -/
theorem seen_append_distinctFrom_pairwise {seen : List Value} (values : List Value)
    (apart : seen.Pairwise fun a b => a.same b = false) :
    (seen ++ distinctFrom seen values).Pairwise fun a b => a.same b = false := by
  induction values generalizing seen with
  | nil => simpa [distinctFrom] using apart
  | cons value rest ih =>
    rw [distinctFrom]
    split
    · exact ih apart
    · next fresh =>
      have further : (seen ++ [value]).Pairwise fun a b => a.same b = false := by
        refine List.pairwise_append.mpr ⟨apart, List.pairwise_singleton _ _, ?_⟩
        intro a member b isValue
        rw [List.mem_singleton.mp isValue]
        rw [List.any_eq_true, not_exists] at fresh
        exact Bool.eq_false_iff.mpr fun same => fresh a ⟨member, same⟩
      simpa using ih further

theorem distinct_pairwise (values : List Value) :
    (distinct values).Pairwise fun a b => a.same b = false :=
  seen_append_distinctFrom_pairwise values .nil

/-- Values of which none is equal to an earlier one all stay. -/
theorem distinctFrom_eq_self {seen values : List Value}
    (apart : (seen ++ values).Pairwise fun a b => a.same b = false) :
    distinctFrom seen values = values := by
  induction values generalizing seen with
  | nil => rfl
  | cons value rest ih =>
    have fresh : seen.any (·.same value) = false :=
      List.any_eq_false.mpr fun other member => by
        simp [(List.pairwise_append.mp apart).2.2 other member value List.mem_cons_self]
    rw [distinctFrom, if_neg (by simp [fresh]), ih (by simpa using apart)]

theorem distinct_distinct (values : List Value) : distinct (distinct values) = distinct values :=
  distinctFrom_eq_self (distinct_pairwise values)

theorem exists_same_of_mem (seen : List Value) {values : List Value} {value : Value}
    (member : value ∈ values) (keyed : value.key?.isSome = true) :
    ∃ other ∈ seen ++ distinctFrom seen values, other.same value = true := by
  induction values generalizing seen with
  | nil => cases member
  | cons first rest ih =>
    rw [distinctFrom]
    rcases List.mem_cons.mp member with rfl | later
    · split
      next known =>
        obtain ⟨other, isSeen, same⟩ := List.any_eq_true.mp known
        exact ⟨other, List.mem_append_left _ isSeen, same⟩
      next => exact ⟨value, List.mem_append_right _ List.mem_cons_self, same_self keyed⟩
    · split
      next => exact ih seen later
      next => simpa using ih (seen ++ [first]) later

/-- Values equal to ones seen before leave no trace. -/
theorem distinctFrom_filter {seen : List Value} {repeated : Value → Bool} (values : List Value)
    (known : ∀ value, repeated value = true → seen.any (·.same value) = true) :
    distinctFrom seen (values.filter fun value => !repeated value) = distinctFrom seen values := by
  induction values generalizing seen with
  | nil => rfl
  | cons value rest ih =>
    rw [List.filter_cons, distinctFrom]
    split
    next kept =>
      rw [distinctFrom]
      split
      · exact ih known
      · refine congrArg (value :: ·) (ih fun other again => ?_)
        rw [List.any_append, known other again, Bool.true_or]
    next dropped =>
      rw [if_pos (known value (by simpa using dropped))]
      exact ih known

/-- Dropping repeats before others does not matter, where all that is dropped first is known. -/
theorem distinctFrom_distinctFrom {seen earlier : List Value} (values : List Value)
    (known : ∀ value, earlier.any (·.same value) = true → seen.any (·.same value) = true) :
    distinctFrom seen (distinctFrom earlier values) = distinctFrom seen values := by
  induction values generalizing seen earlier with
  | nil => rfl
  | cons value rest ih =>
    rw [distinctFrom, distinctFrom]
    split
    next repeated =>
      rw [if_pos (known value repeated)]
      exact ih known
    next =>
      rw [distinctFrom]
      split
      next isSeen =>
        refine ih fun other again => ?_
        rw [List.any_append, Bool.or_eq_true] at again
        rcases again with before | here
        · exact known other before
        · have same : value.same other = true := by simpa using here
          simpa only [same_congr same] using isSeen
      next =>
        refine congrArg (value :: ·) (ih fun other again => ?_)
        rw [List.any_append, Bool.or_eq_true] at again ⊢
        exact again.imp_left (known other)

theorem distinct_distinct_append (values more : List Value) :
    distinct (distinct values ++ more) = distinct (values ++ more) := by
  rw [distinct_append, distinct_append, distinct_distinct]

theorem distinct_append_distinct (values more : List Value) :
    distinct (values ++ distinct more) = distinct (values ++ more) := by
  have later : distinctFrom (distinct values) (distinct more) = distinctFrom (distinct values) more :=
    distinctFrom_distinctFrom more nofun
  rw [distinct_append, distinct_append, later]

/-- Values that are all equal to some known ones add nothing. -/
theorem distinctFrom_eq_nil {seen values : List Value}
    (known : ∀ value ∈ values, seen.any (·.same value) = true) : distinctFrom seen values = [] := by
  induction values with
  | nil => rfl
  | cons value rest ih =>
    obtain ⟨here, later⟩ := List.forall_mem_cons.mp known
    rw [distinctFrom, if_pos here, ih later]

/-! ## Repeats -/

/-- The values of a list that are equal to no earlier one. -/
def withoutRepeats (values : List Value) : List Value :=
  (values.zipIdx.filter fun entry => !(values.take entry.2).any (·.same entry.1)).map Prod.fst

theorem withoutRepeats_concat (values : List Value) (value : Value) :
    withoutRepeats (values ++ [value]) =
      withoutRepeats values ++ if values.any (·.same value) then [] else [value] := by
  have earlier : ∀ entry ∈ values.zipIdx, (values ++ [value]).take entry.2 = values.take entry.2 := by
    intro entry member
    have bound := List.snd_lt_of_mem_zipIdx member
    exact List.take_append_of_le_length (by omega)
  have same : values.zipIdx.filter
        (fun entry => !((values ++ [value]).take entry.2).any (·.same entry.1)) =
      values.zipIdx.filter fun entry => !(values.take entry.2).any (·.same entry.1) :=
    List.filter_congr fun entry member => by rw [earlier entry member]
  have whole : (values ++ [value]).take values.length = values := List.take_left ..
  simp only [withoutRepeats, List.zipIdx_append, List.zipIdx_singleton, Nat.zero_add,
    List.filter_append, List.map_append, same, List.filter_cons, whole]
  split
  next fresh =>
    rw [if_neg (by simpa using fresh)]
    rfl
  next known =>
    rw [if_pos (by simpa using known)]
    rfl

/-- A value is equal to one of a list just when it is equal to one that stays. -/
theorem any_same_distinct (values : List Value) (value : Value) :
    (distinct values).any (·.same value) = values.any (·.same value) := by
  rw [Bool.eq_iff_iff, List.any_eq_true, List.any_eq_true]
  constructor
  · intro ⟨other, stays, same⟩
    exact ⟨other, mem_of_mem_distinctFrom stays, same⟩
  · intro ⟨other, member, same⟩
    obtain ⟨key, keyed, -⟩ := same_iff.mp same
    obtain ⟨first, stays, alike⟩ := exists_same_of_mem [] member (by rw [keyed]; rfl)
    exact ⟨first, stays, (same_congr same first).symm.trans alike⟩

theorem distinct_eq_withoutRepeats (values : List Value) :
    distinct values = withoutRepeats values := by
  induction values using List.reverseRecOn with
  | nil => rfl
  | append_singleton values value ih =>
    rw [distinct_append, withoutRepeats_concat, ← ih, ← any_same_distinct values value]
    rfl

end ClassTidy.Value
