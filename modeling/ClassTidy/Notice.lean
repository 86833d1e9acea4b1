import ClassTidy.Text.Quoted

/-!
# Notices

What the tool has to say while it works, and the lines in which it says so.
-/

set_option autoImplicit false

namespace ClassTidy

inductive Severity where
  | debug
  | info
  | warning
  deriving DecidableEq

inductive Notice where
  | configMissing (path : Text)
  /-- The configuration file at this path is laid over the defaults. -/
  | configMerged (path : Text)
  | noOrder
  | templateSkipped (text : Text)
  deriving DecidableEq

namespace Notice

def severity : Notice → Severity
  | configMissing _ => .warning
  | configMerged _ => .info
  | noOrder => .warning
  | templateSkipped _ => .debug

/-- The line for a notice: its severity, the part of the tool it comes from, and the words. -/
def line : Notice → String
  | configMissing path =>
    "WARNING class_sort.load_config: Config file " ++ String.ofList path ++
      " not found. Using defaults.\n"
  | configMerged path =>
    "INFO class_sort.load_config: Merging config from " ++ String.ofList path ++ "\n"
  | noOrder =>
    "WARNING class_sort.sort_cli: No class order configured; every class ranks as unknown.\n"
  | templateSkipped text =>
    "DEBUG class_sort.sort_classes: Skipping templated class string: " ++
      String.ofList text.quoted ++ "\n"

/-- The lines of the notices to show: all of them, or the warnings alone. -/
def report (verbose : Bool) (notices : List Notice) : String :=
  String.join ((notices.filter fun notice => verbose || notice.severity == .warning).map line)

end Notice

end ClassTidy
