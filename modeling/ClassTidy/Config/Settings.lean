import ClassTidy.Attribute.Settings
import ClassTidy.Config.Fault
import ClassTidy.Number.Numeral

/-!
# Reading settings from a configuration
-/

set_option autoImplicit false

namespace ClassTidy

def defaultConfig : Mapping :=
  [("sorting".toList, .mapping
     [("ignore_first".toList, .bool false),
      ("ignore_last".toList, .bool false),
      ("remove_duplicates".toList, .bool true),
      ("collapse_whitespace".toList, .mapping
        [("start".toList, .bool true), ("end".toList, .bool true)])]),
   ("options".toList, .mapping
     [("preserve_whitespace".toList, .bool false),
      ("preserve_duplicates".toList, .bool false),
      ("multiline_classes".toList, .bool false),
      ("multiline_min_class_count".toList, .number (.int 5))]),
   ("class_order".toList, .list []),
   ("class_order_file".toList, .null)]

namespace Mapping

/-- Whether the value of a key counts as true; `otherwise` if there is no such key. -/
def isTruthy (key : String) (otherwise : Bool) (mapping : Mapping) : Bool :=
  match get? key.toList mapping with
  | some value => value.isTruthy
  | none => otherwise

/-- A section of a configuration. A section that is absent, or does not count as true, is empty. -/
def subsection (name : Section) (config : Mapping) : Except Fault Mapping :=
  match get? name.key.toList config with
  | none => .ok []
  | some value =>
    if value.isTruthy then
      match value with
      | .mapping entries => .ok entries
      | other => .error (.notASection name other)
    else .ok []

end Mapping

/-- A whole number from a value: a number without its fraction, one or zero for a truth value, and
what the numeral says for a text. -/
def Value.toCount : Value → Except Fault Int
  | .bool value => .ok (if value then 1 else 0)
  | .number (.int value) => .ok value
  | .number (.float value) =>
    if value.isNaN then .error .notANumber
    else if value.isInfinite then .error .infinite
    else .ok value.truncate
  | .text value =>
    match Numeral.read value with
    | .ok count => .ok count
    | .error .malformed => .error (.notANumeral value)
    | .error (.tooLong digits) => .error (.longNumeral digits)
  | value => .error (.notACount value)

def Options.ofConfig (config : Mapping) : Except Fault Options := do
  let options ← config.subsection .options
  let least ←
    match options.get? "multiline_min_class_count".toList with
    | some value => value.toCount
    | none => .ok 5
  return {
    preserveSpacing := options.isTruthy "preserve_whitespace" false
    preserveCopies := options.isTruthy "preserve_duplicates" false
    multiline := options.isTruthy "multiline_classes" false
    multilineLeast := least }

def Spacing.ofValue : Option Value → Except Fault Spacing
  | none => .ok (.collapsed true true)
  | some .null => .ok (.collapsed true true)
  | some (.bool false) => .ok .verbatim
  | some (.bool true) => .ok (.collapsed true true)
  | some (.mapping entries) =>
    .ok (.collapsed (Mapping.isTruthy "start" true entries) (Mapping.isTruthy "end" true entries))
  | some other => .error (.notASpacing other)

def Treatment.ofConfig (config : Mapping) : Except Fault Treatment := do
  let sorting ← config.subsection .sorting
  let spacing ← Spacing.ofValue (sorting.get? "collapse_whitespace".toList)
  return {
    keepFirst := sorting.isTruthy "ignore_first" false
    keepLast := sorting.isTruthy "ignore_last" false
    dropCopies := sorting.isTruthy "remove_duplicates" true
    spacing := spacing }

/-- The members of the canonical order in a configuration: the parts of its value. A value that
does not count as true has none. -/
def Mapping.orderMembers (config : Mapping) : Except Fault (List Value) :=
  match config.get? "class_order".toList with
  | some (.list items) => .ok items
  | some (.text characters) => .ok (characters.map fun c => .text [c])
  | some (.mapping entries) => .ok (entries.map fun entry => .text entry.1)
  | some value => if value.isTruthy then .error (.notAnOrder value) else .ok []
  | none => .ok []

end ClassTidy
