import ClassTidy.CommandLine.Arguments

/-!
# Help

How the tool is used, in short and at length.
-/

set_option autoImplicit false

namespace ClassTidy

def Arguments.usageLine : String := "usage: class-tidy [options] [class text ...]\n"

def Choice.description : Choice → String
  | .help => "show this help"
  | .setting .config => "read this configuration file"
  | .setting .orderFile => "read class names in canonical order from this file, one on a line"
  | .flag .keepFirst => "leave the first class in place"
  | .flag .keepLast => "leave the last class in place"
  | .flag .keepCopies => "keep repeated classes"
  | .flag .preserveSpacing => "keep all white space as it is"
  | .flag .multiline => "break long attributes into a line for each category"
  | .setting .multilineLeast => "the least number of classes in a long attribute"
  | .flag .verbose => "say what is done"

def Choice.shown (name : String) : Choice → String
  | .help => "-h, " ++ name
  | .flag _ => name
  | .setting _ => name ++ " VALUE"

/-- The help on all options. Without class texts the lines of the input are sorted. -/
def Arguments.helpText : String :=
  Arguments.usageLine ++ "\nSort each class text, or else each line of the input.\n\n" ++
    String.join (Choice.names.map fun named =>
      "  " ++ named.2.shown named.1 ++ "\n      " ++ named.2.description ++ "\n")

end ClassTidy
