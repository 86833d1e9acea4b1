import ClassTidy.CommandLine.Setup
import ClassTidy.Proofs.Steps

/-!
# What a run is set up with

A run is set up just when everything it is set up with can be read. What else could halt it does
not matter then.
-/

set_option autoImplicit false

namespace ClassTidy

theorem Arguments.halting_eq_ok {α : Type} {arguments : Arguments} {outcome : Except Fault α}
    {result : α} : arguments.halting outcome = .ok result ↔ outcome = .ok result := by
  cases outcome <;> simp [halting]

theorem Arguments.orderNames_eq_ok {arguments : Arguments} {source : Source} {config : Mapping}
    {names : List Text} :
    arguments.orderNames source config = .ok names ↔
      ∃ named, arguments.orderFile? config = .ok named ∧
        match named with
        | none => names = []
        | some named => OrderFile.read source named = .ok names := by
  rw [orderNames, bind_eq_ok]
  refine exists_congr fun named => and_congr halting_eq_ok ?_
  cases named with
  | none =>
    constructor
    · rintro ⟨⟩
      rfl
    · rintro rfl
      rfl
  | some named =>
    dsimp only
    constructor
    · intro found
      split at found
      · split at found <;> cases found
      · exact halting_eq_ok.mp found
    · intro read
      rw [read]
      rfl

namespace Setup

theorem order_eq_ok {members : List Value} {order : CanonicalOrder} :
    Setup.order members = .ok order ↔ CanonicalOrder.ofValues? members = some order := by
  rw [Setup.order]
  cases CanonicalOrder.ofValues? members <;> simp

theorem ofConfig_eq_ok {source : Source} {arguments : Arguments} {config : Mapping}
    {setup : Setup} :
    ofConfig source arguments config = .ok setup ↔
      ∃ members names options order treatment,
        config.orderMembers = .ok members ∧ arguments.orderNames source config = .ok names ∧
        Options.ofConfig config = .ok options ∧
        CanonicalOrder.ofValues? (members ++ names.map Value.text) = some order ∧
        Treatment.ofConfig config = .ok treatment ∧
        setup = {
          sorter := ⟨order.ranker, arguments.overrideOptions options⟩
          treatment := arguments.overrideTreatment treatment
          notices := if (members ++ names.map Value.text).isEmpty then [.noOrder] else [] } := by
  constructor
  · intro accepted
    obtain ⟨members, listed, accepted⟩ := bind_eq_ok.mp accepted
    obtain ⟨names, named, accepted⟩ := bind_eq_ok.mp accepted
    obtain ⟨options, optionsRead, accepted⟩ := bind_eq_ok.mp accepted
    obtain ⟨order, built, accepted⟩ := bind_eq_ok.mp accepted
    obtain ⟨treatment, treatmentRead, accepted⟩ := bind_eq_ok.mp accepted
    cases accepted
    exact ⟨members, names, options, order, treatment, Arguments.halting_eq_ok.mp listed, named,
      Arguments.halting_eq_ok.mp optionsRead, order_eq_ok.mp (Arguments.halting_eq_ok.mp built),
      Arguments.halting_eq_ok.mp treatmentRead, rfl⟩
  · rintro ⟨members, names, options, order, treatment, listed, named, optionsRead, built,
      treatmentRead, rfl⟩
    refine bind_eq_ok.mpr ⟨members, Arguments.halting_eq_ok.mpr listed, ?_⟩
    refine bind_eq_ok.mpr ⟨names, named, ?_⟩
    refine bind_eq_ok.mpr ⟨options, Arguments.halting_eq_ok.mpr optionsRead, ?_⟩
    refine bind_eq_ok.mpr ⟨order, Arguments.halting_eq_ok.mpr (order_eq_ok.mpr built), ?_⟩
    exact bind_eq_ok.mpr ⟨treatment, Arguments.halting_eq_ok.mpr treatmentRead, rfl⟩

theorem read_eq_ok {reader : DocumentReader} {source : Source} {arguments : Arguments}
    {setup : Setup} :
    read reader source arguments = .ok setup ↔
      ∃ loaded inner, LoadedConfig.read reader source arguments.config = .ok loaded ∧
        ofConfig source arguments loaded.config = .ok inner ∧
        setup = { inner with notices := loaded.notices ++ inner.notices } := by
  constructor
  · intro accepted
    obtain ⟨loaded, isLoaded, accepted⟩ := bind_eq_ok.mp accepted
    obtain ⟨inner, isInner, accepted⟩ := bind_eq_ok.mp accepted
    cases accepted
    exact ⟨loaded, inner, Arguments.halting_eq_ok.mp isLoaded, isInner, rfl⟩
  · rintro ⟨loaded, inner, isLoaded, isInner, rfl⟩
    refine bind_eq_ok.mpr ⟨loaded, Arguments.halting_eq_ok.mpr isLoaded, ?_⟩
    exact bind_eq_ok.mpr ⟨inner, isInner, rfl⟩

end Setup

end ClassTidy
