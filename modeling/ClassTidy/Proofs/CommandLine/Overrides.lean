import ClassTidy.Proofs.CommandLine.Inputs
import ClassTidy.Proofs.CommandLine.LongerOrder
import ClassTidy.Proofs.Config.Equality

/-!
# Flags and settings

What a flag says about sorting can be said in the configuration instead. A flag joins the settings
after the configuration has been laid over the defaults and read; a setting goes through both. With
either, and any number of them, a run writes the same results.
-/

set_option autoImplicit false

namespace ClassTidy

theorem Section.key_ne {name other : Section} (differ : name ≠ other) :
    name.key.toList ≠ other.key.toList := by
  cases name <;> cases other <;> first | exact absurd rfl differ | decide

/-- The entries of a section. One that is absent or no mapping has none. -/
def Mapping.sectionEntries (name : Section) (config : Mapping) : Mapping :=
  match config.get? name.key.toList with
  | some (.mapping entries) => entries
  | _ => []

theorem Mapping.sectionEntries_of_subsection {name : Section} {config entries : Mapping}
    (found : config.subsection name = .ok entries) : config.sectionEntries name = entries := by
  rw [subsection] at found
  rw [sectionEntries]
  split at found
  next absent =>
    rw [absent]
    exact Except.ok.inj found
  next value held =>
    rw [held]
    split at found
    · split at found
      · exact Except.ok.inj found
      · cases found
    next untrue =>
      cases value with
      | mapping entries =>
        rw [← Except.ok.inj found]
        exact List.isEmpty_iff.mp (by simpa [Value.isTruthy] using untrue)
      | _ => exact Except.ok.inj found

/-! ## Overrides -/

/-- What can be said by a flag or by a setting. -/
inductive Override where
  | preserveSpacing
  | multiline
  | multilineLeast (least : Int)
  | keepFirst
  | keepLast
  | keepCopies
  deriving DecidableEq

namespace Override

def give (arguments : Arguments) : Override → Arguments
  | preserveSpacing => arguments.give .preserveSpacing
  | multiline => arguments.give .multiline
  | multilineLeast least => { arguments with multilineLeast := some least }
  | keepFirst => arguments.give .keepFirst
  | keepLast => arguments.give .keepLast
  | keepCopies => arguments.give .keepCopies

def place : Override → Section
  | preserveSpacing => .options
  | multiline => .options
  | multilineLeast _ => .options
  | keepFirst => .sorting
  | keepLast => .sorting
  | keepCopies => .sorting

def key : Override → String
  | preserveSpacing => "preserve_whitespace"
  | multiline => "multiline_classes"
  | multilineLeast _ => "multiline_min_class_count"
  | keepFirst => "ignore_first"
  | keepLast => "ignore_last"
  | keepCopies => "remove_duplicates"

def value : Override → Value
  | multilineLeast least => .number (.int least)
  | keepCopies => .bool false
  | _ => .bool true

/-- Set a key in a section of a configuration, which is made if need be. All other keys are kept. -/
def settle (config : Mapping) (override : Override) : Mapping :=
  config.put override.place.key.toList
    (.mapping ((config.sectionEntries override.place).put override.key.toList override.value))

end Override

/-! ## Settings -/

/-- All that a configuration says about sorting, apart from the order. -/
structure Settings where
  options : Options
  treatment : Treatment

namespace Settings

structure IsOf (settings : Settings) (config : Mapping) : Prop where
  options : Options.ofConfig config = .ok settings.options
  treatment : Treatment.ofConfig config = .ok settings.treatment

def set (settings : Settings) : Override → Settings
  | .preserveSpacing => { settings with options.preserveSpacing := true }
  | .multiline => { settings with options.multiline := true }
  | .multilineLeast least => { settings with options.multilineLeast := least }
  | .keepFirst => { settings with treatment.keepFirst := true }
  | .keepLast => { settings with treatment.keepLast := true }
  | .keepCopies => { settings with treatment.dropCopies := false }

end Settings

def Arguments.overrideSettings (arguments : Arguments) (settings : Settings) : Settings where
  options := arguments.overrideOptions settings.options
  treatment := arguments.overrideTreatment settings.treatment

/-! ## One override -/

section

variable {config entries : Mapping} {override : Override}

theorem get?_settle_of_ne {key : Text} (other : override.place.key.toList ≠ key) :
    (override.settle config).get? key = config.get? key := by
  rw [Override.settle, Mapping.get?_put, if_neg other]

theorem subsection_settle (found : config.subsection override.place = .ok entries) :
    (override.settle config).subsection override.place =
      .ok (entries.put override.key.toList override.value) := by
  apply Mapping.subsection_of_mapping
  rw [Override.settle, Mapping.get?_put, if_pos rfl, Mapping.sectionEntries_of_subsection found]

theorem subsection_settle_of_ne {name : Section} (other : override.place ≠ name) :
    (override.settle config).subsection name = config.subsection name := by
  rw [Mapping.subsection, Mapping.subsection, get?_settle_of_ne (Section.key_ne other)]

end

theorem get?_put_toList (key other : String) (value : Value) (entries : Mapping) :
    (entries.put key.toList value).get? other.toList =
      if key = other then some value else entries.get? other.toList := by
  rw [Mapping.get?_put]
  exact if_congr String.toList_inj rfl rfl

theorem isTruthy_put (key other : String) (otherwise : Bool) (value : Value) (entries : Mapping) :
    (entries.put key.toList value).isTruthy other otherwise =
      if key = other then value.isTruthy else entries.isTruthy other otherwise := by
  rw [Mapping.isTruthy, get?_put_toList]
  by_cases same : key = other
  · rw [if_pos same, if_pos same]
  · rw [if_neg same, if_neg same]
    rfl

section

variable {entries : Mapping} {settings : Settings} {override : Override}

theorem Options.ofSection_put (found : Options.ofSection entries = .ok settings.options)
    (isOption : override.place = .options) :
    Options.ofSection (entries.put override.key.toList override.value) =
      .ok (settings.set override).options := by
  obtain ⟨least, counted, same⟩ := map_eq_ok.mp found
  cases override with
  | multilineLeast other =>
    simp only [ofSection, Override.key, isTruthy_put, get?_put_toList, Settings.set,
      String.reduceEq, ↓reduceIte, ← same]
    rfl
  | keepFirst | keepLast | keepCopies => cases isOption
  | _ =>
    simp only [ofSection, Override.key, isTruthy_put, get?_put_toList, Settings.set,
      String.reduceEq, ↓reduceIte, counted, ← same]
    rfl

theorem Treatment.ofSection_put (found : Treatment.ofSection entries = .ok settings.treatment)
    (isSorting : override.place = .sorting) :
    Treatment.ofSection (entries.put override.key.toList override.value) =
      .ok (settings.set override).treatment := by
  obtain ⟨spacing, isSpacing, same⟩ := map_eq_ok.mp found
  cases override with
  | preserveSpacing | multiline | multilineLeast _ => cases isSorting
  | _ =>
    simp only [ofSection, Override.key, isTruthy_put, get?_put_toList, Settings.set,
      String.reduceEq, ↓reduceIte, isSpacing, ← same]
    rfl

end

/-- A setting changes what is read from a configuration in the one place that is meant. -/
theorem Settings.IsOf.settle {settings : Settings} {config : Mapping}
    (isOf : settings.IsOf config) (override : Override) :
    (settings.set override).IsOf (override.settle config) := by
  obtain ⟨optionsRead, treatmentRead⟩ := isOf
  cases isPlace : override.place with
  | options =>
    have other : override.place ≠ .sorting := by rw [isPlace]; nofun
    rw [Options.ofConfig_eq] at optionsRead
    obtain ⟨entries, found, read⟩ := bind_eq_ok.mp optionsRead
    rw [← isPlace] at found
    constructor
    · rw [Options.ofConfig_eq, ← isPlace, subsection_settle found]
      exact Options.ofSection_put read isPlace
    · have same : (settings.set override).treatment = settings.treatment := by
        cases override <;> first | rfl | cases isPlace
      rw [Treatment.ofConfig_eq, subsection_settle_of_ne other, ← Treatment.ofConfig_eq, same]
      exact treatmentRead
  | sorting =>
    have other : override.place ≠ .options := by rw [isPlace]; nofun
    rw [Treatment.ofConfig_eq] at treatmentRead
    obtain ⟨entries, found, read⟩ := bind_eq_ok.mp treatmentRead
    rw [← isPlace] at found
    constructor
    · have same : (settings.set override).options = settings.options := by
        cases override <;> first | rfl | cases isPlace
      rw [Options.ofConfig_eq, subsection_settle_of_ne other, ← Options.ofConfig_eq, same]
      exact optionsRead
    · rw [Treatment.ofConfig_eq, ← isPlace, subsection_settle found]
      exact Treatment.ofSection_put read isPlace

theorem overrideSettings_give (arguments : Arguments) (override : Override) (settings : Settings) :
    (override.give arguments).overrideSettings settings =
      (arguments.overrideSettings settings).set override := by
  cases override <;> rfl

/-- What is set holds over the configuration, unless the arguments have another least number. -/
theorem overrideSettings_set {arguments : Arguments} (absent : arguments.multilineLeast = none)
    (settings : Settings) (override : Override) :
    arguments.overrideSettings (settings.set override) =
      (arguments.overrideSettings settings).set override := by
  cases override <;>
    simp [Arguments.overrideSettings, Arguments.overrideOptions, Arguments.overrideTreatment,
      Settings.set, absent]

/-! ## Any number of overrides -/

theorem overrideSettings_foldl_give (overrides : List Override) (arguments : Arguments)
    (settings : Settings) :
    (overrides.foldl Override.give arguments).overrideSettings settings =
      overrides.foldl Settings.set (arguments.overrideSettings settings) := by
  induction overrides generalizing arguments with
  | nil => rfl
  | cons override rest ih => rw [List.foldl_cons, ih, overrideSettings_give, List.foldl_cons]

theorem overrideSettings_foldl_set {arguments : Arguments}
    (absent : arguments.multilineLeast = none) (overrides : List Override)
    (settings : Settings) :
    arguments.overrideSettings (overrides.foldl Settings.set settings) =
      overrides.foldl Settings.set (arguments.overrideSettings settings) := by
  induction overrides generalizing settings with
  | nil => rfl
  | cons override rest ih =>
    rw [List.foldl_cons, ih, overrideSettings_set absent, List.foldl_cons]

theorem Settings.IsOf.foldl_settle {settings : Settings} {config : Mapping}
    (isOf : settings.IsOf config) (overrides : List Override) :
    (overrides.foldl Settings.set settings).IsOf (overrides.foldl Override.settle config) := by
  induction overrides generalizing settings config with
  | nil => exact isOf
  | cons override rest ih => exact ih (isOf.settle override)

theorem get?_foldl_settle (overrides : List Override) (config : Mapping) {key : Text}
    (other : ∀ name : Section, name.key.toList ≠ key) :
    (overrides.foldl Override.settle config).get? key = config.get? key := by
  induction overrides generalizing config with
  | nil => rfl
  | cons override rest ih => rw [List.foldl_cons, ih, get?_settle_of_ne (other override.place)]

/-- What the flags leave as it is in the arguments. -/
structure Arguments.SameBut (arguments given : Arguments) : Prop where
  classes : given.classes = arguments.classes
  orderFile : given.orderFile = arguments.orderFile
  config : given.config = arguments.config

theorem sameBut_foldl_give (overrides : List Override) (arguments : Arguments) :
    arguments.SameBut (overrides.foldl Override.give arguments) := by
  induction overrides generalizing arguments with
  | nil => exact ⟨rfl, rfl, rfl⟩
  | cons override rest ih =>
    have later := ih (override.give arguments)
    cases override <;> exact ⟨later.classes, later.orderFile, later.config⟩

/-! ## Setting up a run -/

namespace LoadedConfig

theorem settings_isOf_iff {entries config : Mapping} {settings : Settings}
    (distinct : Value.DistinctKeys (.mapping entries))
    (layered : Mapping.layer defaultConfig entries = .ok config) :
    settings.IsOf config ↔ settings.IsOf entries := by
  have sameOptions := Options.ofConfig_layer distinct layered
  have sameTreatment := Treatment.ofConfig_layer distinct layered
  constructor
  · rintro ⟨options, treatment⟩
    exact ⟨sameOptions.trans options, sameTreatment.trans treatment⟩
  · rintro ⟨options, treatment⟩
    exact ⟨sameOptions.symm.trans options, sameTreatment.symm.trans treatment⟩

end LoadedConfig

/-- The order that a run sorts by and the settings that its arguments override, told from the
entries of the document. -/
structure Setup.Told (source : Source) (arguments : Arguments) (entries : Mapping)
    (order : CanonicalOrder) (settings : Settings) : Prop where
  order : ∃ config members names, Mapping.layer defaultConfig entries = .ok config ∧
    config.orderMembers = .ok members ∧ arguments.orderNames source entries = .ok names ∧
    CanonicalOrder.ofValues? (members ++ names.map Value.text) = some order
  settings : settings.IsOf entries

namespace Setup

variable {source : Source} {arguments : Arguments} {entries : Mapping}

section

variable {reader : DocumentReader} (lawful : reader.Lawful)
  (document : LoadedConfig.documentEntries reader source arguments.config = .ok entries)
include lawful document

theorem exists_told {setup : Setup} (found : read reader source arguments = .ok setup) :
    ∃ order settings, Told source arguments entries order settings := by
  have distinct := LoadedConfig.documentEntries_distinctKeys lawful document
  obtain ⟨loaded, inner, isLoaded, isInner, -⟩ := read_eq_ok.mp found
  obtain ⟨_, isDocument, layered⟩ := LoadedConfig.exists_read_iff.mp ⟨loaded, isLoaded, rfl⟩
  cases document.symm.trans isDocument
  obtain ⟨members, names, options, order, treatment, listed, named, optionsRead, built,
    treatmentRead, -⟩ := ofConfig_eq_ok.mp isInner
  rw [arguments.orderNames_config source distinct layered] at named
  refine ⟨order, ⟨options, treatment⟩,
    ⟨loaded.config, members, names, layered, listed, named, built⟩, ?_⟩
  exact (LoadedConfig.settings_isOf_iff distinct layered).mp ⟨optionsRead, treatmentRead⟩

theorem Told.exists_read_eq {order : CanonicalOrder} {settings : Settings}
    (told : Told source arguments entries order settings) :
    ∃ notices, read reader source arguments = .ok {
      sorter := ⟨order.ranker, (arguments.overrideSettings settings).options⟩
      treatment := (arguments.overrideSettings settings).treatment
      notices := notices } := by
  obtain ⟨⟨config, members, names, layered, listed, named, built⟩, isOf⟩ := told
  have distinct := LoadedConfig.documentEntries_distinctKeys lawful document
  obtain ⟨optionsRead, treatmentRead⟩ :=
    (LoadedConfig.settings_isOf_iff distinct layered).mpr isOf
  obtain ⟨loaded, isLoaded, rfl⟩ :=
    LoadedConfig.exists_read_iff.mpr ⟨entries, document, layered⟩
  rw [← arguments.orderNames_config source distinct layered] at named
  have setsUp := ofConfig_eq_ok.mpr ⟨members, names, settings.options, order, settings.treatment,
    listed, named, optionsRead, built, treatmentRead, rfl⟩
  exact ⟨_, read_eq_ok.mpr ⟨loaded, _, isLoaded, setsUp, rfl⟩⟩

end

/-- Of the arguments only the name of an order file counts before they override the settings. -/
theorem Told.ofSameBut {other : Arguments} {order : CanonicalOrder} {settings : Settings}
    (told : Told source arguments entries order settings)
    (sameFile : other.orderFile = arguments.orderFile) :
    Told source other entries order settings := by
  obtain ⟨⟨config, members, names, layered, listed, named, built⟩, isOf⟩ := told
  refine ⟨⟨config, members, names, layered, listed, ?_, built⟩, isOf⟩
  rw [Arguments.orderNames_eq_ok, Arguments.orderFile?] at named ⊢
  rw [sameFile]
  exact named

theorem Told.foldl_settle {order : CanonicalOrder} {settings : Settings}
    (told : Told source arguments entries order settings)
    (distinct : Value.DistinctKeys (.mapping entries)) (overrides : List Override)
    (distinctThen : Value.DistinctKeys (.mapping (overrides.foldl Override.settle entries))) :
    Told source arguments (overrides.foldl Override.settle entries) order
      (overrides.foldl Settings.set settings) := by
  obtain ⟨⟨config, members, names, layered, listed, named, built⟩, isOf⟩ := told
  have sameOrder : (overrides.foldl Override.settle entries).get? classOrderKey =
      entries.get? classOrderKey :=
    get?_foldl_settle overrides entries fun name => by cases name <;> decide
  have sameFile : (overrides.foldl Override.settle entries).get? "class_order_file".toList =
      entries.get? "class_order_file".toList :=
    get?_foldl_settle overrides entries fun name => by cases name <;> decide
  obtain ⟨other, otherLayered⟩ := (LoadedConfig.exists_layer_default_iff distinctThen).mpr
    (sameOrder ▸ (LoadedConfig.exists_layer_default_iff distinct).mp ⟨config, layered⟩)
  refine ⟨⟨other, members, names, otherLayered, ?_, ?_, built⟩, isOf.foldl_settle overrides⟩
  · have sameInConfig : other.get? classOrderKey = config.get? classOrderKey := by
      exact Mapping.get?_layer_congr distinctThen.entries.1 distinct.entries.1 sameOrder
        otherLayered layered
    rw [Mapping.orderMembers_eq, sameInConfig, ← Mapping.orderMembers_eq, listed]
  · rw [Arguments.orderNames_eq_ok, Arguments.orderFile?] at named ⊢
    rw [sameFile]
    exact named

end Setup

/-! ## Runs -/

namespace Report

/-- What a run writes, told by the order and the settings that the document comes to. -/
theorem exists_ofCommandLine {reader : DocumentReader} (lawful : reader.Lawful) {source : Source}
    {commandLine : List Text} {arguments : Arguments} {entries : Mapping} {order : CanonicalOrder}
    {settings : Settings} (given : Arguments.read commandLine = .ok arguments)
    (document : LoadedConfig.documentEntries reader source arguments.config = .ok entries)
    (told : Setup.Told source arguments entries order settings) (input : Text) :
    ∃ report, ofCommandLine reader source commandLine input = .ok report ∧
      report.output = (arguments.attributes input).flatMap fun text =>
        Sorter.sort ⟨order.ranker, (arguments.overrideSettings settings).options⟩
          (arguments.overrideSettings settings).treatment text ++ ['\n'] := by
  obtain ⟨notices, isSetup⟩ := told.exists_read_eq lawful document
  rw [ofCommandLine, given]
  exact ⟨_, bind_eq_ok.mpr ⟨_, isSetup, rfl⟩, rfl⟩

/-- A run with flags, and one with the settings for them in its configuration, write the same
results if a run with neither succeeds: each attribute sorted by the settings of the document, with
those that the flags stand for set. The arguments are the same otherwise, and so are the classes or
the input. A section to set a key in may be absent or null before. -/
theorem ofCommandLine_overrides {reader : DocumentReader} (lawful : reader.Lawful)
    {source : Source} {plain flagged changed : List Text} {arguments : Arguments}
    {other : Option Text} {entries : Mapping} {input : Text} (overrides : List Override)
    (isPlain : Arguments.read plain = .ok arguments)
    (unsaid : arguments.multilineLeast = none)
    (isFlagged : Arguments.read flagged = .ok (overrides.foldl Override.give arguments))
    (isChanged : Arguments.read changed = .ok { arguments with config := other })
    (document : LoadedConfig.documentEntries reader source arguments.config = .ok entries)
    (changedDocument : LoadedConfig.documentEntries reader source other =
      .ok (overrides.foldl Override.settle entries))
    (succeeds : (ofCommandLine reader source plain input).isOk = true) :
    ∃ order settings withFlags withSettings, settings.IsOf entries ∧
      ofCommandLine reader source flagged input = .ok withFlags ∧
      ofCommandLine reader source changed input = .ok withSettings ∧
      withFlags.output = withSettings.output ∧
      withSettings.output = (arguments.attributes input).flatMap fun text =>
        let inForce := overrides.foldl Settings.set (arguments.overrideSettings settings)
        Sorter.sort ⟨CanonicalOrder.ranker order, inForce.options⟩ inForce.treatment text ++
          ['\n'] := by
  have kept := sameBut_foldl_give overrides arguments
  obtain ⟨order, settings, told⟩ : ∃ order settings,
      Setup.Told source arguments entries order settings := by
    rw [ofCommandLine, isPlain] at succeeds
    cases found : Setup.read reader source arguments with
    | ok setup => exact Setup.exists_told lawful document found
    | error halt =>
      simp only [ofArguments, found] at succeeds
      cases succeeds
  have toldChanged : Setup.Told source { arguments with config := other }
      (overrides.foldl Override.settle entries) order (overrides.foldl Settings.set settings) :=
    (told.foldl_settle (LoadedConfig.documentEntries_distinctKeys lawful document) overrides
      (LoadedConfig.documentEntries_distinctKeys lawful changedDocument)).ofSameBut rfl
  obtain ⟨withFlags, flaggedRun, flaggedOutput⟩ := exists_ofCommandLine lawful isFlagged
    (kept.config ▸ document) (told.ofSameBut kept.orderFile) input
  obtain ⟨withSettings, changedRun, changedOutput⟩ := exists_ofCommandLine lawful isChanged
    changedDocument toldChanged input
  have flaggedSettings : (overrides.foldl Override.give arguments).overrideSettings settings =
      overrides.foldl Settings.set (arguments.overrideSettings settings) :=
    overrideSettings_foldl_give overrides arguments settings
  have changedSettings : Arguments.overrideSettings { arguments with config := other }
      (overrides.foldl Settings.set settings) =
        overrides.foldl Settings.set (arguments.overrideSettings settings) :=
    overrideSettings_foldl_set unsaid overrides settings
  rw [flaggedSettings, Arguments.attributes, kept.classes] at flaggedOutput
  rw [changedSettings] at changedOutput
  exact ⟨order, settings, withFlags, withSettings, told.settings, flaggedRun, changedRun,
    flaggedOutput.trans changedOutput.symm, changedOutput⟩

/-- The section for sorting is null before, and the one for options is absent. -/
theorem ofCommandLine_overrides_sections :
    let source := (Folder.ofFiles
      [("config.yml".toList, "sorting:\nclass_order: ab\n".toUTF8.toList),
       ("changed.yml".toList, ("sorting: \x7bremove_duplicates: no\x7d\nclass_order: ab\n" ++
          "options: \x7bmultiline_min_class_count: 2\x7d\n").toUTF8.toList)]).source
    let plain := ["--config".toList, "config.yml".toList, "b a b".toList]
    let flagged := ["--multiline-min=2".toList, "--keep-duplicates".toList] ++ plain
    let changed := ["--config".toList, "changed.yml".toList, "b a b".toList]
    ∃ withFlags withSettings, ofCommandLine Yaml.reader source flagged [] = .ok withFlags ∧
      ofCommandLine Yaml.reader source changed [] = .ok withSettings ∧
      withFlags.output = withSettings.output := by
  intro source plain flagged changed
  have document : LoadedConfig.documentEntries Yaml.reader source (some "config.yml".toList) =
      .ok [("sorting".toList, .null), ("class_order".toList, .text "ab".toList)] := by
    apply toOption_eq_some.mp
    decide +kernel
  have changedDocument :
      LoadedConfig.documentEntries Yaml.reader source (some "changed.yml".toList) =
        .ok ([.keepCopies, .multilineLeast 2].foldl Override.settle
          [("sorting".toList, .null), ("class_order".toList, .text "ab".toList)]) := by
    apply toOption_eq_some.mp
    decide +kernel
  have isPlain : Arguments.read plain =
      .ok { classes := ["b a b".toList], config := some "config.yml".toList } := by
    decide
  have isFlagged : Arguments.read flagged =
      .ok ([.keepCopies, .multilineLeast 2].foldl Override.give
        { classes := ["b a b".toList], config := some "config.yml".toList }) := by
    decide
  have isChanged : Arguments.read changed =
      .ok { classes := ["b a b".toList], config := some "changed.yml".toList } := by
    decide
  have succeeds : (ofCommandLine Yaml.reader source plain []).isOk = true := by decide +kernel
  obtain ⟨-, -, withFlags, withSettings, -, flaggedRun, changedRun, same, -⟩ :=
    ofCommandLine_overrides Yaml.reader_lawful [.keepCopies, .multilineLeast 2] isPlain rfl
      isFlagged isChanged document changedDocument succeeds
  exact ⟨withFlags, withSettings, flaggedRun, changedRun, same⟩

end Report

end ClassTidy
