import ClassTidy.CommandLine.Setup

/-!
# Running the tool

A run sorts each attribute of the command line, or each line of its input if there is none, and
writes the results in the same order.
-/

set_option autoImplicit false

namespace ClassTidy

/-- What a run that does not halt writes: its results, and the lines for its notices. -/
structure Report where
  output : Text
  diagnostics : String

/-- The attributes to sort: those on the command line, or else the lines of the input. -/
def Arguments.attributes (arguments : Arguments) (input : Text) : List Text :=
  if arguments.classes.isEmpty then input.unifyLineEnds.feedLines else arguments.classes

namespace Setup

def output (setup : Setup) (attributes : List Text) : Text :=
  attributes.flatMap fun text => setup.sorter.sort setup.treatment text ++ ['\n']

/-- The notices about some attributes, behind those about the setup. -/
def allNotices (setup : Setup) (attributes : List Text) : List Notice :=
  setup.notices ++ (attributes.filter (·.isTemplate)).map .templateSkipped

end Setup

namespace Report

def ofSetup (setup : Setup) (verbose : Bool) (attributes : List Text) : Report where
  output := setup.output attributes
  diagnostics := Notice.report verbose (setup.allNotices attributes)

def ofArguments (reader : DocumentReader) (source : Source) (arguments : Arguments)
    (input : Text) : Except Halt Report := do
  let setup ← Setup.read reader source arguments
  return ofSetup setup arguments.verbose (arguments.attributes input)

def ofCommandLine (reader : DocumentReader) (source : Source) (commandLine : List Text)
    (input : Text) : Except Halt Report :=
  match Arguments.read commandLine with
  | .error refusal => .error (.refused refusal)
  | .ok arguments => ofArguments reader source arguments input

end Report

end ClassTidy
