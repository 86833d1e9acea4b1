import ClassTidy.Attribute.Sort
import ClassTidy.Class.Order
import ClassTidy.CommandLine.Arguments
import ClassTidy.Config.Loaded
import ClassTidy.Config.OrderFile

/-!
# Setting up a run

What a run needs to sort attributes comes from the configuration, from an order file and from the
arguments. The arguments take precedence. Whatever is wrong halts the run, and most faults are
reported as faults of the configuration.
-/

set_option autoImplicit false

namespace ClassTidy

inductive Halt where
  | refused (refusal : Refusal)
  /-- The order file, named in these words, cannot be read. -/
  | unreadableOrder (named : Text) (path : Text) (fault : FileFault)
  /-- A fault that is reported as one of this configuration. -/
  | invalidConfig (config : Option Text) (fault : Fault)
  | unforeseen (fault : Fault)

/-- Whether a fault is reported as one of the configuration. Not foreseen are a configuration file
that is there and cannot be read, a document that is nested too deeply, a number out of range, a
count without a whole part, and an order, a member of an order or the name of an order file of the
wrong kind. -/
def Fault.isReported : Fault → Bool
  | .file _ fault => fault = .badName
  | .encoding _ => true
  | .malformed => true
  | .tooDeep => false
  | .noCodePoint => true
  | .outOfRange => false
  | .noDigits _ => true
  | .notAMapping _ => true
  | .notASection _ _ => true
  | .notASpacing _ => true
  | .notANumeral _ => true
  | .longNumeral _ => true
  | .notANumber => true
  | .infinite => false
  | .notACount _ => false
  | .compoundMember => false
  | .notAnOrder _ => false
  | .notAPath _ => false

namespace Halt

def ofFault (config : Option Text) (fault : Fault) : Halt :=
  if fault.isReported then invalidConfig config fault else unforeseen fault

def configMessage (config : Option Text) (reason : String) : String :=
  let named := match config with
    | none => "None"
    | some path => String.ofList path
  "Invalid config " ++ named ++ ": " ++ reason

def orderMessage (named path : Text) (fault : FileFault) : String :=
  "Cannot read class order file " ++ String.ofList named ++ ": " ++ fault.message path

/-- The words for a halt. A refusal needs none of its own. -/
def message : Halt → String
  | refused _ => ""
  | unreadableOrder named path fault => orderMessage named path fault
  | invalidConfig config fault => configMessage config fault.message
  | unforeseen fault => fault.message

end Halt

namespace Arguments

def halting {α : Type} (arguments : Arguments) : Except Fault α → Except Halt α
  | .ok result => .ok result
  | .error fault => .error (.ofFault arguments.config fault)

def overrideOptions (arguments : Arguments) (options : Options) : Options :=
  { options with
    preserveSpacing := arguments.preserveSpacing || options.preserveSpacing
    multiline := arguments.multiline || options.multiline
    multilineLeast := arguments.multilineLeast.getD options.multilineLeast }

def overrideTreatment (arguments : Arguments) (treatment : Treatment) : Treatment :=
  { treatment with
    keepFirst := arguments.keepFirst || treatment.keepFirst
    keepLast := arguments.keepLast || treatment.keepLast
    dropCopies := !arguments.keepCopies && treatment.dropCopies }

/-- The name of the order file: what the arguments name, or else the configuration. -/
def orderFile? (arguments : Arguments) (config : Mapping) : Except Fault (Option Text) :=
  match arguments.orderFile with
  | some named => .ok (some named)
  | none =>
    match config.get? "class_order_file".toList with
    | none => .ok none
    | some (.text named) => .ok (if named.isEmpty then none else some named)
    | some value => if value.isTruthy then .error (.notAPath value) else .ok none

def orderNames (arguments : Arguments) (source : Source) (config : Mapping) :
    Except Halt (List Text) := do
  match ← arguments.halting (arguments.orderFile? config) with
  | none => return []
  | some named =>
    match OrderFile.read source named with
    | .error (.file path fault) =>
      if fault = .badName then arguments.halting (.error (.file path fault))
      else .error (.unreadableOrder named path fault)
    | result => arguments.halting result

/-- The path of the order file in its plain form, if one is to be read. -/
def orderPath? (arguments : Arguments) (reader : DocumentReader) (source : Source) : Option Text :=
  match LoadedConfig.read reader source arguments.config with
  | .error _ => none
  | .ok loaded =>
    match arguments.orderFile? loaded.config with
    | .ok named => named.map Path.plain
    | .error _ => none

end Arguments

/-- All that a run needs to sort attributes, with what is to be said about it. -/
structure Setup where
  sorter : Sorter
  treatment : Treatment
  notices : List Notice

namespace Setup

def order (members : List Value) : Except Fault CanonicalOrder :=
  match CanonicalOrder.ofValues? members with
  | some order => .ok order
  | none => .error .compoundMember

def ofConfig (source : Source) (arguments : Arguments) (config : Mapping) : Except Halt Setup := do
  let members ← arguments.halting config.orderMembers
  let names ← arguments.orderNames source config
  let members := members ++ names.map Value.text
  let options ← arguments.halting (Options.ofConfig config)
  let order ← arguments.halting (order members)
  let treatment ← arguments.halting (Treatment.ofConfig config)
  return {
    sorter := ⟨order.ranker, arguments.overrideOptions options⟩
    treatment := arguments.overrideTreatment treatment
    notices := if members.isEmpty then [.noOrder] else [] }

def read (reader : DocumentReader) (source : Source) (arguments : Arguments) :
    Except Halt Setup := do
  let loaded ← arguments.halting (LoadedConfig.read reader source arguments.config)
  let setup ← ofConfig source arguments loaded.config
  return { setup with notices := loaded.notices ++ setup.notices }

end Setup

end ClassTidy
