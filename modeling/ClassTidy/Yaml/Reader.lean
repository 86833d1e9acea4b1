import ClassTidy.Config.Loaded
import ClassTidy.Yaml.Document

/-!
# Configuration documents

The documents of the tool are written in a part of YAML. Every NaN in a document is one and the same
member. It equals nothing, yet of several in a canonical order only the first counts.
-/

set_option autoImplicit false

namespace ClassTidy.Yaml

/-- The values of a list with only the first NaN. -/
def withOneNaN : List Value → List Value
  | [] => []
  | value :: rest =>
    if value.isNaN then value :: rest.filter fun other => !other.isNaN
    else value :: withOneNaN rest

/-- An entry of a document, with one NaN in a canonical order at most. -/
def settledEntry (entry : Text × Value) : Text × Value :=
  match entry with
  | (key, .list members) =>
    (key, .list (if key = classOrderKey then withOneNaN members else members))
  | entry => entry

def settled : Value → Value
  | .mapping entries => .mapping (entries.map settledEntry)
  | value => value

def reader : DocumentReader := fun text => settled <$> read text

end ClassTidy.Yaml
