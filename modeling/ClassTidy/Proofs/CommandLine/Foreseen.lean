import ClassTidy.CommandLine.Report
import ClassTidy.Proofs.CommandLine.Setup
import ClassTidy.Proofs.Config.Equality
import ClassTidy.Proofs.Config.Settings
import ClassTidy.Proofs.Yaml.Document

/-!
# Foreseen outcomes

A run ends with a report or halts with words for what is wrong, unless a value in the configuration
cannot take the place it has there. What goes wrong first decides: an order file that cannot be read
halts the run with words even if the least number of classes is no number.
-/

set_option autoImplicit false

namespace ClassTidy

/-- Whether the tool has words of its own for a halt. -/
def Halt.isForeseen : Halt → Bool
  | unforeseen _ => false
  | _ => true

namespace Arguments

theorem failsOnly_halting {α : Type} {arguments : Arguments} {outcome : Except Fault α} :
    FailsOnly Halt.isForeseen (arguments.halting outcome) ↔ FailsOnly Fault.isReported outcome := by
  cases outcome with
  | ok value => exact iff_of_true (failsOnly_ok _ _) (failsOnly_ok _ _)
  | error fault =>
    rw [halting, failsOnly_error, failsOnly_error, Halt.ofFault]
    cases fault.isReported <;> rfl

end Arguments

/-! ## Settings -/

theorem Mapping.failsOnly_subsection (name : Section) (config : Mapping) :
    FailsOnly Fault.isReported (config.subsection name) := by
  unfold Mapping.subsection
  split
  · exact failsOnly_ok _ _
  · split
    · split
      · exact failsOnly_ok _ _
      · exact failsOnly_error.mpr rfl
    · exact failsOnly_ok _ _

theorem Value.failsOnly_toCount {value : Value} :
    FailsOnly Fault.isReported value.toCount ↔ value.fitsCount = true := by
  cases value with
  | number value =>
    cases value with
    | int value => exact iff_of_true (failsOnly_ok _ _) rfl
    | float value =>
      rw [Value.toCount, Value.fitsCount]
      cases value.isNaN with
      | true => exact iff_of_true (failsOnly_error.mpr rfl) rfl
      | false =>
        cases value.isInfinite with
        | true => exact failsOnly_error
        | false => exact iff_of_true (failsOnly_ok _ _) rfl
  | text value =>
    refine iff_of_true ?_ rfl
    rw [Value.toCount]
    split
    · exact failsOnly_ok _ _
    · exact failsOnly_error.mpr rfl
    · exact failsOnly_error.mpr rfl
  | bool value => exact iff_of_true (failsOnly_ok _ _) rfl
  | _ => exact failsOnly_error

theorem Options.failsOnly_ofConfig {config : Mapping} :
    FailsOnly Fault.isReported (Options.ofConfig config) ↔ config.LeastFits := by
  rw [Options.ofConfig, failsOnly_bind, and_iff_right (config.failsOnly_subsection .options)]
  constructor
  · intro every options held least isLeast
    have counted := every options (Mapping.subsection_of_mapping held)
    rw [Option.mem_def.mp isLeast] at counted
    exact Value.failsOnly_toCount.mp (failsOnly_bind.mp counted).1
  · intro fits options found
    cases held : options.get? "multiline_min_class_count".toList with
    | none => exact failsOnly_ok _ _
    | some least =>
      rcases Mapping.subsection_eq_ok found with rfl | isOptions
      · cases held
      · have counts := Value.failsOnly_toCount.mpr (fits options isOptions least held)
        exact failsOnly_bind.mpr ⟨counts, fun _ _ => failsOnly_ok _ _⟩

theorem Spacing.failsOnly_ofValue (value : Option Value) :
    FailsOnly Fault.isReported (Spacing.ofValue value) := by
  unfold Spacing.ofValue
  split
  all_goals first
    | exact failsOnly_ok _ _
    | exact failsOnly_error.mpr rfl

theorem Treatment.failsOnly_ofConfig (config : Mapping) :
    FailsOnly Fault.isReported (Treatment.ofConfig config) := by
  rw [Treatment.ofConfig, failsOnly_bind]
  refine ⟨config.failsOnly_subsection .sorting, fun sorting _ => ?_⟩
  rw [failsOnly_bind]
  exact ⟨Spacing.failsOnly_ofValue _, fun _ _ => failsOnly_ok _ _⟩

/-! ## Orders -/

theorem failsOnly_unless_truthy {α ε : Type} {kind : ε → Bool} {value : Value} {fault : ε}
    (unkind : kind fault = false) (otherwise : α) :
    FailsOnly kind (if value.isTruthy then .error fault else .ok otherwise) ↔
      (!value.isTruthy) = true := by
  cases value.isTruthy with
  | true => exact failsOnly_error.trans (iff_of_false (Bool.eq_false_iff.mp unkind) nofun)
  | false => exact iff_of_true (failsOnly_ok _ _) rfl

theorem Mapping.orderMembers_fault {config : Mapping} {fault : Fault}
    (refused : config.orderMembers = .error fault) : ∃ value, fault = .notAnOrder value := by
  rw [Mapping.orderMembers_eq] at refused
  split at refused
  case h_4 =>
    split at refused <;> cases refused
    exact ⟨_, rfl⟩
  all_goals cases refused

theorem Mapping.failsOnly_orderMembers {config : Mapping} (simple : ∀ members,
      config.get? classOrderKey = some (.list members) → members.any (·.isCompound) = false) :
    FailsOnly Fault.isReported config.orderMembers ↔ config.OrderFits := by
  rw [Mapping.orderMembers_eq, Mapping.OrderFits]
  cases held : config.get? classOrderKey with
  | none => exact iff_of_true (failsOnly_ok _ _) (by simp)
  | some order =>
    simp only [Option.mem_def, Option.some.injEq, forall_eq']
    cases order with
    | list members =>
      refine iff_of_true (failsOnly_ok _ _) ?_
      rw [Value.fitsOrder, simple members held]
      rfl
    | text characters => exact iff_of_true (failsOnly_ok _ _) rfl
    | mapping entries => exact iff_of_true (failsOnly_ok _ _) rfl
    | _ => exact failsOnly_unless_truthy rfl _

namespace Arguments

theorem failsOnly_orderFile? {arguments : Arguments} {config : Mapping} :
    FailsOnly Fault.isReported (arguments.orderFile? config) ↔
      (arguments.orderFile = none → config.OrderFileFits) := by
  rw [orderFile?, Mapping.OrderFileFits]
  cases arguments.orderFile with
  | some named => exact iff_of_true (failsOnly_ok _ _) (by simp)
  | none =>
    simp only [forall_const]
    cases config.get? "class_order_file".toList with
    | none => exact iff_of_true (failsOnly_ok _ _) (by simp)
    | some value =>
      simp only [Option.mem_def, Option.some.injEq, forall_eq']
      cases value with
      | text named => exact iff_of_true (failsOnly_ok _ _) rfl
      | _ => exact failsOnly_unless_truthy rfl _

theorem text_fault {source : Source} {path : Text} {fault : Fault}
    (refused : source.text path = .error fault) :
    (∃ shown reading, fault = .file shown reading) ∨ fault.isReported = true := by
  unfold Source.text at refused
  split at refused
  · cases refused
    exact .inl ⟨_, _, rfl⟩
  · split at refused <;> cases refused
    exact .inr rfl

theorem failsOnly_orderNames {arguments : Arguments} {source : Source} {config : Mapping} :
    FailsOnly Halt.isForeseen (arguments.orderNames source config) ↔
      (arguments.orderFile = none → config.OrderFileFits) := by
  rw [orderNames, failsOnly_bind, failsOnly_halting, failsOnly_orderFile?, and_iff_left]
  rintro (_ | named) -
  · exact failsOnly_ok _ _
  · dsimp only
    split
    · split
      · next same =>
        subst same
        exact failsOnly_halting.mpr (failsOnly_error.mpr rfl)
      · exact failsOnly_error.mpr rfl
    · next notAFile =>
      apply failsOnly_halting.mpr
      intro fault refused
      rcases text_fault (map_eq_error.mp refused) with ⟨shown, reading, rfl⟩ | isReported
      · exact (notAFile shown reading refused).elim
      · exact isReported

/-- The name of an order file is told from the document alone. -/
theorem orderNames_config (arguments : Arguments) (source : Source) {entries config : Mapping}
    (distinct : Value.DistinctKeys (.mapping entries))
    (layered : Mapping.layer defaultConfig entries = .ok config) :
    arguments.orderNames source config = arguments.orderNames source entries := by
  have same : arguments.orderFile? config = arguments.orderFile? entries := by
    rw [orderFile?, orderFile?, LoadedConfig.get?_config_orderFile distinct layered]
    cases entries.get? "class_order_file".toList <;> rfl
  rw [orderNames, orderNames, same]

end Arguments

/-! ## Runs -/

namespace Setup

theorem failsOnly_order {members : List Value} (simple : members.any (·.isCompound) = false) :
    FailsOnly Fault.isReported (order members) := by
  rw [order, CanonicalOrder.ofValues?, simple]
  exact failsOnly_ok _ _

/-- What is left to do in setting up a run, once the members of the order are read. -/
def ofMembers (source : Source) (arguments : Arguments) (config : Mapping) (members : List Value) :
    Except Halt Setup := do
  let names ← arguments.orderNames source config
  let members := members ++ names.map Value.text
  let options ← arguments.halting (Options.ofConfig config)
  let order ← arguments.halting (order members)
  let treatment ← arguments.halting (Treatment.ofConfig config)
  return {
    sorter := ⟨order.ranker, arguments.overrideOptions options⟩
    treatment := arguments.overrideTreatment treatment
    notices := if members.isEmpty then [.noOrder] else [] }

theorem ofConfig_eq (source : Source) (arguments : Arguments) (config : Mapping) :
    ofConfig source arguments config =
      arguments.halting config.orderMembers >>= ofMembers source arguments config := rfl

theorem failsOnly_ofMembers {source : Source} {arguments : Arguments} {config : Mapping}
    {members : List Value} (simple : members.any (·.isCompound) = false) :
    FailsOnly Halt.isForeseen (ofMembers source arguments config members) ↔
      (arguments.orderFile = none → config.OrderFileFits) ∧
        ∀ names, arguments.orderNames source config = .ok names → config.LeastFits := by
  rw [ofMembers, failsOnly_bind, Arguments.failsOnly_orderNames]
  apply and_congr_right
  intro _
  apply forall₂_congr
  intro names _
  have namesSimple : (members ++ names.map Value.text).any (·.isCompound) = false := by
    rw [List.any_append, simple]
    exact Value.any_map_text names id
  rw [failsOnly_bind, Arguments.failsOnly_halting, Options.failsOnly_ofConfig, and_iff_left]
  intro options _
  rw [failsOnly_bind, Arguments.failsOnly_halting, and_iff_right (failsOnly_order namesSimple)]
  intro order _
  rw [failsOnly_bind, Arguments.failsOnly_halting]
  exact ⟨Treatment.failsOnly_ofConfig config, fun _ _ => failsOnly_ok _ _⟩

theorem failsOnly_ofConfig {source : Source} {arguments : Arguments} {config : Mapping}
    (simple : ∀ members, config.get? classOrderKey = some (.list members) →
      members.any (·.isCompound) = false) :
    FailsOnly Halt.isForeseen (ofConfig source arguments config) ↔
      config.OrderFits ∧ (arguments.orderFile = none → config.OrderFileFits) ∧
        ∀ names, arguments.orderNames source config = .ok names → config.LeastFits := by
  rw [ofConfig_eq, failsOnly_bind, Arguments.failsOnly_halting,
    Mapping.failsOnly_orderMembers simple]
  apply and_congr_right
  intro fits
  cases found : config.orderMembers with
  | error fault =>
    have isReported := (Mapping.failsOnly_orderMembers simple).mpr fits fault found
    obtain ⟨value, rfl⟩ := Mapping.orderMembers_fault found
    cases isReported
  | ok members =>
    have continued := @failsOnly_ofMembers source arguments config members
      (Mapping.any_orderMembers simple found)
    constructor
    · intro every
      exact continued.mp (every members rfl)
    · rintro holds _ ⟨⟩
      exact continued.mpr holds

section

variable {reader : DocumentReader} {source : Source} {arguments : Arguments}

theorem failsOnly_read_of_ok {loaded : LoadedConfig}
    (found : LoadedConfig.read reader source arguments.config = .ok loaded) :
    FailsOnly Halt.isForeseen (read reader source arguments) ↔
      FailsOnly Halt.isForeseen (ofConfig source arguments loaded.config) := by
  have continued : read reader source arguments = (do
      let setup ← ofConfig source arguments loaded.config
      return { setup with notices := loaded.notices ++ setup.notices }) := by
    rw [read, found]
    rfl
  rw [continued, failsOnly_bind]
  exact and_iff_left fun _ _ => failsOnly_ok _ _

theorem failsOnly_read_of_error {fault : Fault}
    (refused : LoadedConfig.read reader source arguments.config = .error fault) :
    FailsOnly Halt.isForeseen (read reader source arguments) ↔ fault.isReported = true := by
  have halted : read reader source arguments = arguments.halting (.error fault) := by
    rw [read, refused]
    rfl
  rw [halted, Arguments.failsOnly_halting, failsOnly_error]

/-- Whether setting up a run is foreseen, told from the document in the configuration file. -/
theorem failsOnly_read (lawful : reader.Lawful) :
    FailsOnly Halt.isForeseen (read reader source arguments) ↔
      match LoadedConfig.documentEntries reader source arguments.config with
      | .error fault => fault.isReported = true
      | .ok entries =>
        entries.OrderFits ∧ (arguments.orderFile = none → entries.OrderFileFits) ∧
          ∀ names, arguments.orderNames source entries = .ok names → entries.LeastFits := by
  have config := LoadedConfig.config_read reader source arguments.config
  split
  · next fault refused =>
    rw [refused] at config
    exact failsOnly_read_of_error (map_eq_error.mp config)
  · next entries found =>
    have distinct := LoadedConfig.documentEntries_distinctKeys lawful found
    rw [found] at config
    change _ = Mapping.layer defaultConfig entries at config
    cases layered : Mapping.layer defaultConfig entries with
    | error fault =>
      rw [layered] at config
      rw [failsOnly_read_of_error (map_eq_error.mp config), Mapping.layer_fault _ layered]
      refine iff_of_false nofun ?_
      rintro ⟨fits, -⟩
      obtain ⟨result, laid⟩ := LoadedConfig.exists_layer_of_orderFits distinct fits
      rw [layered] at laid
      cases laid
    | ok result =>
      rw [layered] at config
      obtain ⟨loaded, loadedFound, rfl⟩ := map_eq_ok.mp config
      have simple := fun members =>
        @LoadedConfig.any_isCompound_config entries _ distinct layered members
      rw [failsOnly_read_of_ok loadedFound, failsOnly_ofConfig simple,
        LoadedConfig.orderFits_iff distinct layered,
        LoadedConfig.orderFileFits_iff distinct layered,
        LoadedConfig.leastFits_iff distinct layered,
        arguments.orderNames_config source distinct layered]

end

end Setup

namespace Report

/-- A run is foreseen unless the document cannot be read for a reason that is not reported, or has a
value that cannot be a canonical order, the name of an order file that is not named otherwise, or
the least number of classes, with nothing wrong before that is looked at. -/
theorem failsOnly_ofCommandLine_iff {reader : DocumentReader} (lawful : reader.Lawful)
    {commandLine : List Text} {arguments : Arguments}
    (given : Arguments.read commandLine = .ok arguments) (source : Source) (input : Text) :
    FailsOnly Halt.isForeseen (ofCommandLine reader source commandLine input) ↔
      match LoadedConfig.documentEntries reader source arguments.config with
      | .error fault => fault.isReported = true
      | .ok entries =>
        entries.OrderFits ∧ (arguments.orderFile = none → entries.OrderFileFits) ∧
          ∀ names, arguments.orderNames source entries = .ok names → entries.LeastFits := by
  have run : ofCommandLine reader source commandLine input =
      ofArguments reader source arguments input := by
    rw [ofCommandLine, given]
  rw [run, ofArguments, failsOnly_bind, Setup.failsOnly_read lawful]
  exact and_iff_left fun _ _ => failsOnly_ok _ _

/-- A canonical order may be a single text. -/
theorem foreseen_text_order :
    let source := (Folder.ofFiles
      [("config.yml".toList, "class_order: b".toUTF8.toList)]).source
    let commandLine := ["--config".toList, "config.yml".toList, "b a".toList]
    FailsOnly Halt.isForeseen (ofCommandLine Yaml.reader source commandLine []) := by
  intro source commandLine
  have given : Arguments.read commandLine =
      .ok { classes := ["b a".toList], config := some "config.yml".toList } := by
    decide
  apply (failsOnly_ofCommandLine_iff Yaml.reader_lawful given source []).mpr
  have document : LoadedConfig.documentEntries Yaml.reader source (some "config.yml".toList) =
      .ok [("class_order".toList, .text ['b'])] := by
    apply toOption_eq_some.mp
    decide +kernel
  rw [document]
  refine ⟨?_, nofun, nofun⟩
  rintro order ⟨⟩
  rfl

/-- A list in a canonical order halts the run without words. -/
theorem nested_order_unforeseen :
    let source := (Folder.ofFiles
      [("config.yml".toList, "class_order:\n- [nested]\n".toUTF8.toList)]).source
    let commandLine := ["--config".toList, "config.yml".toList, "b a".toList]
    Arguments.read commandLine =
        .ok { classes := ["b a".toList], config := some "config.yml".toList } ∧
      (source "config.yml".toList).isOk = true ∧
      ¬ FailsOnly Halt.isForeseen (ofCommandLine Yaml.reader source commandLine []) := by
  decide +kernel

end Report

end ClassTidy
