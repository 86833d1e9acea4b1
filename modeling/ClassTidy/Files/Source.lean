import ClassTidy.Config.Fault
import ClassTidy.Files.Path
import ClassTidy.Text.Line

/-!
# Sources of files

The tool reads files through a source, which is a disk or a folder that is held in memory.
-/

set_option autoImplicit false

namespace ClassTidy

/-- What gives the octets of the file at a path in its plain form. -/
abbrev Source := Text → Except FileFault (List UInt8)

/-- What was found at some paths, as a source. Nothing is at any other path. -/
def Source.ofReadings (readings : List (Text × Except FileFault (List UInt8))) : Source := fun path =>
  (readings.lookup path).getD (.error .missing)

def longestPart : Nat := 255

def longestPath : Nat := 4095

def Text.isLongerThan (limit : Nat) (name : Text) : Bool :=
  limit < (String.ofList name).utf8ByteSize

/-- A folder held in memory: files by their paths, relative to the folder. -/
structure Folder where
  files : List (List Text × List UInt8)

namespace Folder

def ofFiles (files : List (Text × List UInt8)) : Folder :=
  ⟨files.map fun file => (Path.parts file.1, file.2)⟩

/-- Follow the parts of a path from a place in the folder, or from outside of it, where there are
only other folders. A file has no parts, and a part that is two dots leads one folder up. -/
def follow (folder : Folder) : Option (List Text) → List Text → Except FileFault (List UInt8)
  | _, [] => .error .isAFolder
  | none, part :: rest =>
    if part = ['.', '.'] then follow folder none rest
    else .error (if part.isLongerThan longestPart then .nameTooLong else .missing)
  | some here, part :: rest =>
    if part = ['.', '.'] then
      follow folder (if here.isEmpty then none else some here.dropLast) rest
    else if part.isLongerThan longestPart then .error .nameTooLong
    else
      let here := here ++ [part]
      match folder.files.find? (·.1 == here) with
      | some file => if rest.isEmpty then .ok file.2 else .error .notAFolder
      | none =>
        if folder.files.any fun file => here.isPrefixOf file.1 then follow folder (some here) rest
        else .error .missing

def source (folder : Folder) : Source := fun path =>
  if path.contains '\x00' then .error .badName
  else if path.isLongerThan longestPath then .error .nameTooLong
  else follow folder (if Path.root path = [] then some [] else none) (Path.parts path)

end Folder

/-- The text of the file at a path: UTF-8, with its line ends unified. -/
def Source.text (source : Source) (path : Text) : Except Fault Text :=
  match source (Path.plain path) with
  | .error fault => .error (.file (Path.plain path) fault)
  | .ok octets =>
    match Utf8.decode octets with
    | .error fault => .error (.encoding fault)
    | .ok text => .ok text.unifyLineEnds

/-- Whether a reading shows that nothing is at the path. -/
def FileFault.isAbsence : FileFault → Bool
  | .missing => true
  | .notAFolder => true
  | .badName => true
  | .isAFolder => false
  | .denied => false
  | .nameTooLong => false

end ClassTidy
