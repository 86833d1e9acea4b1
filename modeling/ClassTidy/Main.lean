import ClassTidy.CommandLine.Help
import ClassTidy.CommandLine.Report
import ClassTidy.Yaml.Reader

/-!
# The tool

The outer layer: it reads the files and the input that a run needs, runs the tool, and writes the
report. It ends with 0 after a report or help, with 2 after arguments that cannot be used, and with
1 after any other halt.
-/

set_option autoImplicit false

namespace ClassTidy

/-- What is at a path on disk. The size of the error code tells a path that leads through a file from
a folder, and a name that is too long from other names that cannot be used. -/
def readDisk (path : Text) : IO (Except FileFault (List UInt8)) := do
  if path.contains '\x00' then return .error .badName
  try
    return .ok (← IO.FS.readBinFile (String.ofList path)).toList
  catch
    | .noFileOrDirectory .. => return .error .missing
    | .inappropriateType _ code _ =>
      return .error (if code.toInt32.toInt.natAbs = 20 then .notAFolder else .isAFolder)
    | .invalidArgument name code details =>
      if code.toInt32.toInt.natAbs = 36 then return .error .nameTooLong
      throw (.invalidArgument name code details)
    | .permissionDenied .. => return .error .denied
    | fault => throw fault

/-- The files that a run needs: the configuration, and the order file that may be named in it. -/
def readFiles (arguments : Arguments) : IO Source := do
  let reading (path : Text) : IO (Text × Except FileFault (List UInt8)) := do
    return (path, ← readDisk path)
  let config ← (arguments.config.toList.map Path.plain).mapM reading
  let order ← (arguments.orderPath? Yaml.reader (.ofReadings config)).toList.mapM reading
  return .ofReadings (config ++ order)

/-- All octets of a stream, behind those read already. -/
partial def readAll (stream : IO.FS.Stream) (octets : ByteArray) : IO ByteArray := do
  let more ← stream.read 65536
  if more.isEmpty then return octets else readAll stream (octets ++ more)

def readInput (arguments : Arguments) : IO (Except Utf8.Fault Text) := do
  if arguments.classes.isEmpty then
    return Utf8.decode (← readAll (← IO.getStdin) .empty).toList
  else return .ok []

/-- Write why there is no report, and tell the exit code. -/
def conclude (halt : Halt) : IO UInt32 := do
  match halt with
  | .refused .help =>
    IO.print Arguments.helpText
    return 0
  | .refused .usage =>
    IO.eprint Arguments.usageLine
    return 2
  | halt =>
    IO.eprintln halt.message
    return 1

def runTool (commandLine : List Text) : IO UInt32 := do
  match Arguments.read commandLine with
  | .error refusal => conclude (.refused refusal)
  | .ok arguments =>
    let source ← readFiles arguments
    match ← readInput arguments with
    | .error fault => conclude (.unforeseen (.encoding fault))
    | .ok input =>
      match Report.ofArguments Yaml.reader source arguments input with
      | .error halt => conclude halt
      | .ok report =>
        IO.eprint report.diagnostics
        IO.print (String.ofList report.output)
        return 0

end ClassTidy

def main (commandLine : List String) : IO UInt32 :=
  ClassTidy.runTool (commandLine.map String.toList)
