import ClassTidy.Class.Category
import Mathlib.Data.List.Basic
import Mathlib.Data.List.Pairwise

/-!
# Rules of categories

A base name has one category at most, so that the order of the rules does not matter, unless it
starts with `content-`, which stands in two rules. The reason is that the words and the starts of
the rules tell names apart: apart from this one start, none of them begins another one of a
different category.
-/

set_option autoImplicit false

namespace ClassTidy

/-! ## Texts that begin each other -/

/-- Whether two texts agree as far as both go. The codes of the characters are compared, as many
rules are compared pair by pair. -/
def Text.agree : Text → Text → Bool
  | c :: rest, d :: further => if c.toNat = d.toNat then agree rest further else false
  | _, _ => true

theorem Text.agree_iff {text other : Text} :
    text.agree other = true ↔ text <+: other ∨ other <+: text := by
  induction text generalizing other with
  | nil => simp [Text.agree]
  | cons c rest ih =>
    cases other with
    | nil => simp [Text.agree]
    | cons d further =>
      by_cases same : c = d
      · simp [Text.agree, same, ih]
      · simp [Text.agree, Char.toNat_inj, same, Ne.symm same]

namespace Rule

/-! ## What two rules can both accept -/

/-- The words of a rule, each with the line feed that may follow, and its starts. -/
def texts (rule : Rule) : List Text :=
  (rule.words.map fun word => word.toList ++ ['\n']) ++ rule.starts.map String.toList

def isApartFrom (rule other : Rule) : Bool :=
  rule.texts.all fun text => other.texts.all fun further => !text.agree further

theorem accepts_iff {rule : Rule} {base : Text} :
    rule.accepts base = true ↔
      (∃ word ∈ rule.words, base = word.toList ∨ base = word.toList ++ ['\n']) ∨
        ∃ start ∈ rule.starts, start.toList <+: base := by
  simp [accepts, isWord, List.isPrefixOf_iff_prefix]

theorem exists_text_of_accepts {rule : Rule} {base : Text} (accepted : rule.accepts base = true) :
    ∃ text ∈ rule.texts, text <+: base ++ ['\n'] := by
  rcases accepts_iff.mp accepted with ⟨word, isWord, same⟩ | ⟨start, isStart, starts⟩
  · refine ⟨word.toList ++ ['\n'], ?_, ?_⟩
    · exact List.mem_append_left _ (List.mem_map_of_mem isWord)
    · rcases same with rfl | rfl
      · exact List.prefix_refl _
      · exact List.prefix_append _ _
  · refine ⟨start.toList, ?_, starts.trans (List.prefix_append _ _)⟩
    exact List.mem_append_right _ (List.mem_map_of_mem isStart)

theorem isApartFrom_iff {rule other : Rule} :
    rule.isApartFrom other = true ↔
      ∀ text ∈ rule.texts, ∀ further ∈ other.texts, ¬ (text <+: further ∨ further <+: text) := by
  simp [isApartFrom, ← Text.agree_iff]

theorem isApartFrom_comm {rule other : Rule} (apart : rule.isApartFrom other = true) :
    other.isApartFrom rule = true := by
  rw [isApartFrom_iff] at apart ⊢
  intro text member further isFurther either
  exact apart further isFurther text member either.symm

/-- Whatever two rules accept begins with a text of each, so that one of these begins the other. -/
theorem not_isApartFrom {rule other : Rule} {base : Text} (accepted : rule.accepts base = true)
    (also : other.accepts base = true) : rule.isApartFrom other = false := by
  obtain ⟨text, member, begins⟩ := exists_text_of_accepts accepted
  obtain ⟨further, isFurther, furtherBegins⟩ := exists_text_of_accepts also
  rw [← Bool.not_eq_true, isApartFrom_iff]
  intro apart
  exact apart text member further isFurther (List.prefix_or_prefix_of_prefix begins furtherBegins)

/-! ## The start in two rules -/

/-- A rule without one of its starts. -/
def without (start : String) (rule : Rule) : Rule :=
  { rule with starts := rule.starts.filter (· ≠ start) }

theorem accepts_cases {rule : Rule} {base : Text} (start : String)
    (accepted : rule.accepts base = true) :
    start ∈ rule.starts ∧ start.toList <+: base ∨ (rule.without start).accepts base = true := by
  rcases accepts_iff.mp accepted with word | ⟨other, isStart, starts⟩
  · exact .inr (accepts_iff.mpr (.inl word))
  · by_cases same : other = start
    · exact .inl (same ▸ ⟨isStart, starts⟩)
    · refine .inr (accepts_iff.mpr (.inr ⟨other, ?_, starts⟩))
      exact List.mem_filter.mpr ⟨isStart, by simpa using same⟩

/-- The start that stands in rules of two categories. -/
def sharedStart : String := "content-"

def sharedRule : Rule where
  category := .other
  starts := [sharedStart]

/-- The rules with the shared start made a rule of its own. -/
def separated : List Rule := sharedRule :: rules.map (without sharedStart)

def IsToldFrom (rule other : Rule) : Prop :=
  rule.category = other.category ∨ rule.isApartFrom other = true

instance (rule other : Rule) : Decidable (rule.IsToldFrom other) :=
  inferInstanceAs (Decidable (_ ∨ _))

instance : Std.Symm IsToldFrom where
  symm _ _ told := told.imp Eq.symm isApartFrom_comm

theorem separated_pairwise_told : separated.Pairwise IsToldFrom := by
  decide +kernel

theorem category_eq_of_separated {rule other : Rule} {base : Text} (isRule : rule ∈ separated)
    (isOther : other ∈ separated) (accepted : rule.accepts base = true)
    (also : other.accepts base = true) : rule.category = other.category := by
  have told : rule.IsToldFrom other :=
    separated_pairwise_told.forall_of_forall (fun _ _ => .inl rfl) isRule isOther
  rcases told with same | apart
  · exact same
  · rw [not_isApartFrom accepted also] at apart
    cases apart

theorem shared_categories :
    (rules.filter fun rule => sharedStart ∈ rule.starts).map (·.category) =
      [.flexGrid, .typography] := by
  decide +kernel

theorem category_ne_other : ∀ rule ∈ rules, rule.category ≠ .other := by
  decide

theorem without_mem_separated {rule : Rule} (isRule : rule ∈ rules) :
    rule.without sharedStart ∈ separated :=
  List.mem_cons_of_mem _ (List.mem_map_of_mem isRule)

theorem category_eq_of_accepts {rule other : Rule} {base : Text}
    (unshared : ¬ sharedStart.toList <+: base) (isRule : rule ∈ rules) (isOther : other ∈ rules)
    (accepted : rule.accepts base = true) (also : other.accepts base = true) :
    rule.category = other.category := by
  rcases accepts_cases sharedStart accepted with ⟨-, shared⟩ | accepted
  · exact absurd shared unshared
  rcases accepts_cases sharedStart also with ⟨-, shared⟩ | also
  · exact absurd shared unshared
  have same : (rule.without sharedStart).category = (other.without sharedStart).category :=
    category_eq_of_separated (without_mem_separated isRule) (without_mem_separated isOther)
      accepted also
  exact same

theorem sharedStart_mem_of_accepts {rule : Rule} {base : Text}
    (shared : sharedStart.toList <+: base) (isRule : rule ∈ rules)
    (accepted : rule.accepts base = true) : sharedStart ∈ rule.starts := by
  rcases accepts_cases sharedStart accepted with ⟨starts, -⟩ | accepted
  · exact starts
  · have alone : sharedRule.accepts base = true :=
      accepts_iff.mpr (.inr ⟨sharedStart, List.mem_cons_self, shared⟩)
    exact absurd (category_eq_of_separated (without_mem_separated isRule) List.mem_cons_self
      accepted alone) (category_ne_other rule isRule)

theorem exists_category_iff {base : Text} (shared : sharedStart.toList <+: base)
    (category : Category) :
    (∃ rule ∈ rules, rule.accepts base = true ∧ rule.category = category) ↔
      category = .flexGrid ∨ category = .typography := by
  have listed : category ∈ (rules.filter fun rule => sharedStart ∈ rule.starts).map (·.category) ↔
      category = .flexGrid ∨ category = .typography := by
    rw [shared_categories]
    simp
  rw [← listed, List.mem_map]
  constructor
  · intro ⟨rule, isRule, accepted, isCategory⟩
    have starts := sharedStart_mem_of_accepts shared isRule accepted
    exact ⟨rule, List.mem_filter.mpr ⟨isRule, by simpa using starts⟩, isCategory⟩
  · intro ⟨rule, member, isCategory⟩
    obtain ⟨isRule, starts⟩ := List.mem_filter.mp member
    refine ⟨rule, isRule, ?_, isCategory⟩
    exact accepts_iff.mpr (.inr ⟨sharedStart, by simpa using starts, shared⟩)

end Rule

/-! ## The category of a name -/

theorem categoryBy_cases (table : List Rule) (base : Text) :
    (∃ rule ∈ table, rule.accepts base = true ∧ categoryBy table base = rule.category) ∨
      (∀ rule ∈ table, rule.accepts base = false) ∧ categoryBy table base = .other := by
  unfold categoryBy
  cases found : table.find? (·.accepts base) with
  | none =>
    refine .inr ⟨?_, rfl⟩
    simpa using found
  | some rule =>
    have accepted : rule.accepts base = true := by simpa using List.find?_some found
    exact .inl ⟨rule, List.mem_of_find?_eq_some found, accepted, rfl⟩

/-- Rules that agree on a base name can be tried in any order. -/
theorem categoryBy_perm {table reordered : List Rule} {base : Text}
    (agree : ∀ rule ∈ table, ∀ other ∈ table, rule.accepts base = true →
      other.accepts base = true → rule.category = other.category)
    (same : reordered.Perm table) : categoryBy reordered base = categoryBy table base := by
  rcases categoryBy_cases reordered base with ⟨rule, isRule, accepted, first⟩ | ⟨refused, first⟩
  · rcases categoryBy_cases table base with ⟨other, isOther, also, second⟩ | ⟨refused, -⟩
    · rw [first, second]
      exact agree rule (same.mem_iff.mp isRule) other isOther accepted also
    · rw [refused rule (same.mem_iff.mp isRule)] at accepted
      cases accepted
  · rcases categoryBy_cases table base with ⟨other, isOther, also, -⟩ | ⟨-, second⟩
    · rw [refused other (same.mem_iff.mpr isOther)] at also
      cases also
    · rw [first, second]

theorem category_eq_other_iff (name : ClassName) :
    name.category = .other ↔ ∀ rule ∈ rules, rule.accepts name.base = false := by
  unfold ClassName.category
  rcases categoryBy_cases rules name.base with ⟨rule, isRule, accepted, found⟩ | ⟨refused, found⟩
  · rw [found]
    refine iff_of_false (Rule.category_ne_other rule isRule) ?_
    intro refused
    rw [refused rule isRule] at accepted
    cases accepted
  · exact iff_of_true found refused

/-- All rules that accept a base name are of one category, so that they can be tried in any order,
unless the name has the shared start. Then they are of two. -/
theorem rules_unambiguous_unless_shared :
    (∀ base : Text,
      (¬ Rule.sharedStart.toList <+: base → ∀ rule ∈ rules, ∀ other ∈ rules,
        rule.accepts base = true → other.accepts base = true → rule.category = other.category) ∧
      (Rule.sharedStart.toList <+: base → ∀ category,
        (∃ rule ∈ rules, rule.accepts base = true ∧ rule.category = category) ↔
          category = .flexGrid ∨ category = .typography)) ∧
    ∀ name : ClassName,
      (¬ Rule.sharedStart.toList <+: name.base → ∀ reordered : List Rule, reordered.Perm rules →
        categoryBy reordered name.base = name.category) ∧
      (name.category = .other ↔ ∀ rule ∈ rules, rule.accepts name.base = false) := by
  refine ⟨fun base => ⟨?_, Rule.exists_category_iff⟩, fun name => ⟨?_, category_eq_other_iff name⟩⟩
  · intro unshared rule isRule other isOther
    exact Rule.category_eq_of_accepts unshared isRule isOther
  · intro unshared reordered same
    refine categoryBy_perm ?_ same
    intro rule isRule other isOther
    exact Rule.category_eq_of_accepts unshared isRule isOther

theorem rules_unambiguous_unless_shared_grid :
    let name : ClassName := "md:grid\n".toList
    let center : Text := "content-center".toList
    let display : Rule := rules.head (by decide)
    (¬ Rule.sharedStart.toList <+: name.base ∧ display ∈ rules ∧
        display.accepts name.base = true ∧
        ∀ other ∈ rules, other.accepts name.base = true → .layoutDisplay = other.category) ∧
      (Rule.sharedStart.toList <+: center ∧
        ∃ rule ∈ rules, rule.accepts center = true ∧ rule.category = .typography) ∧
      rules.reverse.Perm rules ∧ categoryBy rules.reverse name.base = name.category ∧
      (name.category = .other ↔ ∀ rule ∈ rules, rule.accepts name.base = false) := by
  intro name center display
  have unshared : ¬ Rule.sharedStart.toList <+: name.base := by decide +kernel
  have accepted : display.accepts name.base = true := by decide +kernel
  have shared : Rule.sharedStart.toList <+: center := by decide +kernel
  have isRule : display ∈ rules := List.head_mem _
  have same : rules.reverse.Perm rules := List.reverse_perm rules
  obtain ⟨ofBase, ofName⟩ := rules_unambiguous_unless_shared
  refine ⟨⟨unshared, isRule, accepted, ?_⟩, ⟨shared, ?_⟩, same, ?_, (ofName name).2⟩
  · exact fun other isOther => (ofBase name.base).1 unshared display isRule other isOther accepted
  · exact ((ofBase center).2 shared .typography).mpr (.inr rfl)
  · exact (ofName name).1 unshared rules.reverse same

end ClassTidy
