import ClassTidy.Class.Group
import Mathlib.Data.List.Chain

/-!
# Groups of neighbours

The groups of a list are its longest stretches of classes of one category, in order, and no other
groups are. So the groups of two lists, one behind the other, are those of each list except where
the two meet.
-/

set_option autoImplicit false

namespace ClassTidy.Group

/-- Whether groups make up a list of classes, and are stretches of one category that no neighbour
could be added to. -/
structure Divides (groups : List Group) (classes : List ClassName) : Prop where
  whole : groups.flatMap (·.classes) = classes
  some_class : ∀ group ∈ groups, group.classes ≠ []
  uniform : ∀ group ∈ groups, ∀ name ∈ group.classes, name.category = group.category
  longest : groups.IsChain fun group next => group.category ≠ next.category

theorem divides_nil : Divides [] [] where
  whole := rfl
  some_class := List.forall_mem_nil _
  uniform := List.forall_mem_nil _
  longest := .nil

/-- A class in front either joins the first group or is one of its own. -/
theorem Divides.cons {groups : List Group} {classes : List ClassName}
    (divides : Divides groups classes) (name : ClassName) :
    Divides (Group.cons name groups) (name :: classes) := by
  obtain ⟨whole, some_class, uniform, longest⟩ := divides
  cases groups with
  | nil =>
    subst whole
    exact ⟨rfl, by simp [Group.cons], by simp [Group.cons], .singleton _⟩
  | cons group others =>
    obtain ⟨-, others_some⟩ := List.forall_mem_cons.mp some_class
    obtain ⟨groupUniform, othersUniform⟩ := List.forall_mem_cons.mp uniform
    rw [Group.cons]
    split
    next same =>
      obtain ⟨ends, othersLongest⟩ := List.isChain_cons.mp longest
      constructor
      · simpa using whole
      · exact List.forall_mem_cons.mpr ⟨List.cons_ne_nil _ _, others_some⟩
      · exact List.forall_mem_cons.mpr
          ⟨List.forall_mem_cons.mpr ⟨same.symm, groupUniform⟩, othersUniform⟩
      · exact List.isChain_cons.mpr ⟨ends, othersLongest⟩
    next other =>
      constructor
      · simpa using whole
      · exact List.forall_mem_cons.mpr ⟨List.cons_ne_nil _ _, some_class⟩
      · exact List.forall_mem_cons.mpr ⟨by simp, uniform⟩
      · exact List.isChain_cons_cons.mpr ⟨Ne.symm other, longest⟩

theorem ofClasses_divides (classes : List ClassName) : Divides (ofClasses classes) classes := by
  induction classes with
  | nil => exact divides_nil
  | cons name rest ih => exact ih.cons name

theorem Divides.mem_of_mem {groups : List Group} {classes : List ClassName}
    (divides : Divides groups classes) {group : Group} (isGroup : group ∈ groups)
    {name : ClassName} (member : name ∈ group.classes) : name ∈ classes :=
  divides.whole ▸ List.mem_flatMap.mpr ⟨group, isGroup, member⟩

/-! ## Only one division -/

/-- The groups of a list with a class in front are those of the rest with the class added. -/
theorem Divides.exists_cons {groups : List Group} {name : ClassName} {rest : List ClassName}
    (divides : Divides groups (name :: rest)) :
    ∃ others, Divides others rest ∧ groups = Group.cons name others := by
  obtain ⟨whole, some_class, uniform, longest⟩ := divides
  cases groups with
  | nil => cases whole
  | cons group others =>
    obtain ⟨category, classes⟩ := group
    obtain ⟨someHere, othersSome⟩ := List.forall_mem_cons.mp some_class
    obtain ⟨groupUniform, othersUniform⟩ := List.forall_mem_cons.mp uniform
    obtain ⟨ends, othersLongest⟩ := List.isChain_cons.mp longest
    cases classes with
    | nil => exact absurd rfl someHere
    | cons first more =>
      obtain ⟨rfl, restWhole⟩ := List.cons_eq_cons.mp whole
      obtain ⟨rfl, moreUniform⟩ := List.forall_mem_cons.mp groupUniform
      cases more with
      | nil =>
        refine ⟨others, ⟨restWhole, othersSome, othersUniform, othersLongest⟩, ?_⟩
        cases others with
        | nil => rfl
        | cons next later =>
          have apart : next.category ≠ first.category := Ne.symm (ends next rfl)
          simp only [Group.cons, if_neg apart]
      | cons second more =>
        refine ⟨⟨first.category, second :: more⟩ :: others, ⟨restWhole, ?_, ?_, ?_⟩, ?_⟩
        · exact List.forall_mem_cons.mpr ⟨List.cons_ne_nil _ _, othersSome⟩
        · exact List.forall_mem_cons.mpr ⟨moreUniform, othersUniform⟩
        · exact List.isChain_cons.mpr ⟨ends, othersLongest⟩
        · simp only [Group.cons, if_true]

theorem Divides.eq_ofClasses {groups : List Group} {classes : List ClassName}
    (divides : Divides groups classes) : groups = ofClasses classes := by
  induction classes generalizing groups with
  | nil =>
    cases groups with
    | nil => rfl
    | cons group others =>
      have noClass := (List.append_eq_nil_iff.mp divides.whole).1
      exact absurd noClass (divides.some_class group List.mem_cons_self)
  | cons name rest ih =>
    obtain ⟨others, othersDivide, rfl⟩ := divides.exists_cons
    rw [ih othersDivide]
    rfl

theorem divides_iff {groups : List Group} {classes : List ClassName} :
    Divides groups classes ↔ groups = ofClasses classes := by
  constructor
  · exact Divides.eq_ofClasses
  · rintro rfl
    exact ofClasses_divides classes

/-! ## Groups behind groups -/

/-- Groups with further ones behind them. The two that meet become one if they are of one
category. -/
def fuse (front back : List Group) : List Group :=
  match front.getLast?, back with
  | some last, next :: others =>
    if last.category = next.category then
      front.dropLast ++ ⟨last.category, last.classes ++ next.classes⟩ :: others
    else front ++ back
  | _, _ => front ++ back

@[simp] theorem nil_fuse (back : List Group) : fuse [] back = back := rfl

@[simp] theorem fuse_nil (front : List Group) : fuse front [] = front := by
  cases last : front.getLast? <;> simp [fuse, last]

theorem fuse_concat_cons (init others : List Group) (last next : Group) :
    fuse (init ++ [last]) (next :: others) =
      if last.category = next.category then
        init ++ ⟨last.category, last.classes ++ next.classes⟩ :: others
      else init ++ [last] ++ next :: others := by
  simp only [fuse, List.getLast?_concat, List.dropLast_concat]

theorem Divides.append {front back : List Group} {classes further : List ClassName}
    (divides : Divides front classes) (behind : Divides back further)
    (apart : ∀ last ∈ front.getLast?, ∀ next ∈ back.head?, last.category ≠ next.category) :
    Divides (front ++ back) (classes ++ further) where
  whole := by rw [List.flatMap_append, divides.whole, behind.whole]
  some_class := List.forall_mem_append.mpr ⟨divides.some_class, behind.some_class⟩
  uniform := List.forall_mem_append.mpr ⟨divides.uniform, behind.uniform⟩
  longest := List.isChain_append.mpr ⟨divides.longest, behind.longest, apart⟩

/-- Groups of one category that meet become one. -/
theorem Divides.join {init others : List Group} {last next : Group}
    {classes further : List ClassName} (divides : Divides (init ++ [last]) classes)
    (behind : Divides (next :: others) further) (same : last.category = next.category) :
    Divides (init ++ ⟨last.category, last.classes ++ next.classes⟩ :: others)
      (classes ++ further) := by
  obtain ⟨initSome, lastSome⟩ := List.forall_mem_append.mp divides.some_class
  obtain ⟨initUniform, lastUniform⟩ := List.forall_mem_append.mp divides.uniform
  obtain ⟨initLongest, -, apart⟩ := List.isChain_append.mp divides.longest
  obtain ⟨-, othersSome⟩ := List.forall_mem_cons.mp behind.some_class
  obtain ⟨nextUniform, othersUniform⟩ := List.forall_mem_cons.mp behind.uniform
  obtain ⟨ends, othersLongest⟩ := List.isChain_cons.mp behind.longest
  constructor
  · rw [← divides.whole, ← behind.whole]
    simp
  · refine List.forall_mem_append.mpr ⟨initSome, List.forall_mem_cons.mpr ⟨?_, othersSome⟩⟩
    exact List.append_ne_nil_of_left_ne_nil (lastSome last List.mem_cons_self) _
  · refine List.forall_mem_append.mpr ⟨initUniform, List.forall_mem_cons.mpr ⟨?_, othersUniform⟩⟩
    refine List.forall_mem_append.mpr ⟨lastUniform last List.mem_cons_self, ?_⟩
    exact fun name member => (nextUniform name member).trans same.symm
  · refine List.isChain_append.mpr ⟨initLongest, List.isChain_cons.mpr ⟨?_, othersLongest⟩, ?_⟩
    · exact fun group first => same ▸ ends group first
    · intro group isLast joined isJoined
      cases isJoined
      exact apart group isLast last rfl

theorem Divides.fuse {front back : List Group} {classes further : List ClassName}
    (divides : Divides front classes) (behind : Divides back further) :
    Divides (fuse front back) (classes ++ further) := by
  rcases List.eq_nil_or_concat' front with rfl | ⟨init, last, rfl⟩
  · simpa using divides.append behind nofun
  · cases back with
    | nil => simpa using divides.append behind fun _ _ => nofun
    | cons next others =>
      rw [fuse_concat_cons]
      split
      next same => exact divides.join behind same
      next other =>
        refine divides.append behind ?_
        intro group isLast joined isNext
        rw [List.getLast?_concat] at isLast
        cases isLast
        cases isNext
        exact other

/-- The groups of a list are its only division into stretches that no neighbour could be added to.
Those of two lists, one behind the other, are the groups of each, and only the two that meet can
become one. -/
theorem ofClasses_only_and_fuse :
    (∀ (groups : List Group) (classes : List ClassName),
      Divides groups classes ↔ groups = ofClasses classes) ∧
      ∀ classes further : List ClassName,
        ofClasses (classes ++ further) = Group.fuse (ofClasses classes) (ofClasses further) := by
  constructor
  · exact fun groups classes => divides_iff
  · intro classes further
    have divides := (ofClasses_divides classes).fuse (ofClasses_divides further)
    exact divides.eq_ofClasses.symm

end ClassTidy.Group
