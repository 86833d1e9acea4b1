import Mathlib.Data.List.Basic

/-!
# Steps that may fail
-/

set_option autoImplicit false

namespace ClassTidy

variable {α β ε : Type}

theorem bind_eq_ok {first : Except ε α} {next : α → Except ε β} {result : β} :
    (first >>= next) = .ok result ↔ ∃ value, first = .ok value ∧ next value = .ok result := by
  cases first <;> simp [bind, Except.bind]

theorem bind_eq_error {first : Except ε α} {next : α → Except ε β} {fault : ε} :
    (first >>= next) = .error fault ↔
      first = .error fault ∨ ∃ value, first = .ok value ∧ next value = .error fault := by
  cases first <;> simp [bind, Except.bind]

theorem map_eq_ok {first : Except ε α} {f : α → β} {result : β} :
    f <$> first = .ok result ↔ ∃ value, first = .ok value ∧ f value = result := by
  cases first <;> simp [Functor.map, Except.map]

theorem map_eq_error {first : Except ε α} {f : α → β} {fault : ε} :
    f <$> first = .error fault ↔ first = .error fault := by
  cases first <;> simp [Functor.map, Except.map]

theorem toOption_eq_some {outcome : Except ε α} {result : α} :
    outcome.toOption = some result ↔ outcome = .ok result := by
  cases outcome <;> simp [Except.toOption]

theorem exists_of_mem_mapM {f : α → Except ε β} {items : List α} {results : List β}
    (accepted : items.mapM f = .ok results) :
    ∀ result ∈ results, ∃ item ∈ items, f item = .ok result := by
  induction items generalizing results with
  | nil =>
    cases accepted
    exact List.forall_mem_nil _
  | cons item rest ih =>
    rw [List.mapM_cons] at accepted
    obtain ⟨first, itemAccepted, continued⟩ := bind_eq_ok.mp accepted
    obtain ⟨later, restAccepted, same⟩ := bind_eq_ok.mp continued
    cases same
    intro result member
    rcases List.mem_cons.mp member with rfl | behind
    · exact ⟨item, List.mem_cons_self, itemAccepted⟩
    · obtain ⟨source, present, found⟩ := ih restAccepted result behind
      exact ⟨source, List.mem_cons_of_mem _ present, found⟩

/-! ## Two steps -/

/-- Whether two steps fail with the same fault, or have results that are related. -/
def StepsAlike (related : α → β → Prop) (first : Except ε α) (second : Except ε β) : Prop :=
  (∃ fault, first = .error fault ∧ second = .error fault) ∨
    ∃ value other, first = .ok value ∧ second = .ok other ∧ related value other

namespace StepsAlike

variable {γ : Type} {related : α → β → Prop} {first : Except ε α} {second : Except ε β}

theorem of_eq {outcome : Except ε α} {related : α → α → Prop}
    (self : ∀ value, outcome = .ok value → related value value) : StepsAlike related outcome outcome := by
  cases outcome with
  | error fault => exact .inl ⟨fault, rfl, rfl⟩
  | ok value => exact .inr ⟨value, value, rfl, rfl, self value rfl⟩

theorem mono {closer : α → β → Prop} (alike : StepsAlike closer first second)
    (weaken : ∀ value other, closer value other → related value other) :
    StepsAlike related first second := by
  rcases alike with failed | ⟨value, other, found, foundOther, close⟩
  · exact .inl failed
  · exact .inr ⟨value, other, found, foundOther, weaken value other close⟩

/-- Steps that go on alike come to the same. -/
theorem bind_eq {next : α → Except ε γ} {next' : β → Except ε γ}
    (alike : StepsAlike related first second)
    (same : ∀ value other, related value other → next value = next' other) :
    (first >>= next) = second >>= next' := by
  rcases alike with ⟨fault, rfl, rfl⟩ | ⟨value, other, rfl, rfl, close⟩
  · rfl
  · exact same value other close

end StepsAlike

/-! ## Kinds of faults -/

/-- Whether a step fails with faults of some kind only, if it does. -/
def FailsOnly (kind : ε → Bool) (outcome : Except ε α) : Prop :=
  ∀ fault, outcome = .error fault → kind fault = true

instance (kind : ε → Bool) (outcome : Except ε α) : Decidable (FailsOnly kind outcome) :=
  match outcome with
  | .ok _ => .isTrue nofun
  | .error fault => decidable_of_iff (kind fault = true)
      ⟨fun isKind _ same => Except.error.inj same ▸ isKind, fun every => every fault rfl⟩

theorem failsOnly_ok (kind : ε → Bool) (value : α) : FailsOnly kind (.ok value) := nofun

theorem failsOnly_error {kind : ε → Bool} {fault : ε} :
    FailsOnly kind (.error fault : Except ε α) ↔ kind fault = true := by
  constructor
  · exact fun every => every fault rfl
  · rintro isKind _ ⟨⟩
    exact isKind

theorem failsOnly_bind {kind : ε → Bool} {first : Except ε α} {next : α → Except ε β} :
    FailsOnly kind (first >>= next) ↔
      FailsOnly kind first ∧ ∀ value, first = .ok value → FailsOnly kind (next value) := by
  cases first <;> simp [bind, Except.bind, FailsOnly]

end ClassTidy
