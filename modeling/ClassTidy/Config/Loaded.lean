import ClassTidy.Config.Layer
import ClassTidy.Config.Settings
import ClassTidy.Files.Source
import ClassTidy.Notice

/-!
# Loading a configuration

The document in a configuration file is laid over the default configuration. Without a file the
defaults hold. How a document is written is left open: whatever finds its value can be used.
-/

set_option autoImplicit false

namespace ClassTidy

/-- What finds the value that the text of a document stands for, or refuses it. No setting has a key
that is no text, so a reader may spell such keys out. -/
abbrev DocumentReader := Text → Except Fault Value

structure LoadedConfig where
  config : Mapping
  notices : List Notice

namespace LoadedConfig

/-- The mapping in a document. A document that does not count as true is an empty mapping. -/
def mapping (path : Text) (document : Value) : Except Fault Mapping :=
  if document.isTruthy then
    match document with
    | .mapping entries => .ok entries
    | _ => .error (.notAMapping path)
  else .ok []

def ofDocument (path : Text) (document : Value) : Except Fault LoadedConfig := do
  return ⟨← Mapping.layer defaultConfig (← mapping path document), [.configMerged path]⟩

/-- The configuration at a path. The defaults hold without a path, and if nothing is there. -/
def read (reader : DocumentReader) (source : Source) (path : Option Text) :
    Except Fault LoadedConfig :=
  match path with
  | none => .ok ⟨defaultConfig, []⟩
  | some [] => .ok ⟨defaultConfig, []⟩
  | some path =>
    match source.text path with
    | .ok text => reader text >>= ofDocument (Path.plain path)
    | .error (.file shown fault) =>
      if fault.isAbsence then .ok ⟨defaultConfig, [.configMissing shown]⟩
      else .error (.file shown fault)
    | .error fault => .error fault

end LoadedConfig

end ClassTidy
