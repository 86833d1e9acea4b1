import ClassTidy.Files.Path
import ClassTidy.Number.Numeral

/-!
# Arguments

The arguments of a command line are classes and options. Options are found by their names, which
may be shortened as long as one option alone is meant. The classes stand side by side: options may
stand on either side of them, but not between them. Behind `--` there are only classes.
-/

set_option autoImplicit false

namespace ClassTidy

inductive Flag where
  | keepFirst
  | keepLast
  | keepCopies
  | preserveSpacing
  | multiline
  | verbose
  deriving DecidableEq

inductive Setting where
  | config
  | orderFile
  | multilineLeast
  deriving DecidableEq

inductive Choice where
  | help
  | flag (flag : Flag)
  | setting (setting : Setting)
  deriving DecidableEq

def Choice.names : List (String × Choice) :=
  [("--help", .help),
   ("--config", .setting .config),
   ("--order-file", .setting .orderFile),
   ("--ignore-first", .flag .keepFirst),
   ("--ignore-last", .flag .keepLast),
   ("--keep-duplicates", .flag .keepCopies),
   ("--preserve-whitespace", .flag .preserveSpacing),
   ("--multiline", .flag .multiline),
   ("--multiline-min", .setting .multilineLeast),
   ("--verbose", .flag .verbose)]

structure Arguments where
  classes : List Text := []
  config : Option Text := none
  /-- A path in its plain form. -/
  orderFile : Option Text := none
  keepFirst : Bool := false
  keepLast : Bool := false
  keepCopies : Bool := false
  preserveSpacing : Bool := false
  multiline : Bool := false
  multilineLeast : Option Int := none
  verbose : Bool := false
  deriving DecidableEq

inductive Refusal where
  | help
  | usage
  deriving DecidableEq

namespace Arguments

/-! ## Single arguments -/

inductive Word where
  | plain (text : Text)
  /-- The mark behind which everything is plain. -/
  | separator
  | help
  | flag (flag : Flag)
  /-- An option that has a value, which may be part of the argument. -/
  | setting (setting : Setting) (attached : Option Text)
  /-- An option that has no value, with one attached. -/
  | overfull
  | unknown
  deriving DecidableEq

/-- The mark that ends the options. -/
def mark : Text := ['-', '-']

/-- Cut an argument at its first equals sign. -/
def splitValue (argument : Text) : Text × Option Text :=
  match argument.dropWhile (· != '=') with
  | _ :: value => (argument.takeWhile (· != '='), some value)
  | [] => (argument, none)

def Word.ofChoice (choice : Choice) (attached : Option Text) : Word :=
  match choice, attached with
  | .help, none => .help
  | .flag given, none => .flag given
  | .setting given, attached => .setting given attached
  | .help, some _ => .overfull
  | .flag _, some _ => .overfull

/-- The short name of help with something attached to it, which may be the same letter again, and
again. An equals sign in front of these letters does not count. -/
def Word.ofShort (attached : Text) : Word :=
  let letters := match attached with
    | '=' :: rest => rest
    | _ => attached
  if attached.isEmpty || (!letters.isEmpty && letters.all (· == 'h')) then .help else .overfull

/-- Whether an argument is a negative number: digits of any script with a point among them or not,
and at least one behind it. A line feed may stand at the end. -/
def isNegativeNumber (argument : Text) : Bool :=
  let isDigit (c : Char) : Bool := (digitValue? c).isSome
  match argument with
  | '-' :: size =>
    let size := if size.getLast? = some '\n' then size.dropLast else size
    let whole := size.takeWhile isDigit
    match size.dropWhile isDigit with
    | [] => !whole.isEmpty
    | c :: fraction => c == '.' && !fraction.isEmpty && fraction.all isDigit
  | _ => false

/-- An argument that is no option: plain if it may be a number or a text with a space, else an
option that does not exist. -/
def Word.ofOther (argument : Text) : Word :=
  if isNegativeNumber argument || argument.contains ' ' then .plain argument else .unknown

/-- The word that an argument in front of the separator is. There is none if its name is short for
several options. -/
def Word.ofArgument? (argument : Text) : Option Word :=
  match argument with
  | '-' :: second :: rest =>
    if second = 'h' then some (.ofShort rest)
    else if second ≠ '-' then some (.ofOther argument)
    else
      let (name, attached) := splitValue argument
      match Choice.names.filter fun named => named.1.toList == name with
      | (_, choice) :: _ => some (.ofChoice choice attached)
      | [] =>
        match Choice.names.filter fun named => name.isPrefixOf named.1.toList with
        | [] => some (.ofOther argument)
        | [(_, choice)] => some (.ofChoice choice attached)
        | _ => none
  | _ => some (.plain argument)

/-- The words of a command line. There are none if a name is short for several options. -/
def words? : List Text → Option (List Word)
  | [] => some []
  | argument :: rest =>
    if argument = mark then some (.separator :: rest.map .plain)
    else do return (← Word.ofArgument? argument) :: (← words? rest)

/-! ## The whole command line -/

/-- Where the classes stand among the words read so far. -/
inductive Run where
  | ahead
  | inside
  | behind
  deriving DecidableEq

def Run.behindOption : Run → Run
  | .ahead => .ahead
  | .inside => .behind
  | .behind => .behind

def give (arguments : Arguments) : Flag → Arguments
  | .keepFirst => { arguments with keepFirst := true }
  | .keepLast => { arguments with keepLast := true }
  | .keepCopies => { arguments with keepCopies := true }
  | .preserveSpacing => { arguments with preserveSpacing := true }
  | .multiline => { arguments with multiline := true }
  | .verbose => { arguments with verbose := true }

/-- Give an option its value, which must be a numeral for a number. -/
def assign? (arguments : Arguments) (value : Text) : Setting → Option Arguments
  | .config => some { arguments with config := some value }
  | .orderFile => some { arguments with orderFile := some (Path.plain value) }
  | .multilineLeast =>
    (Numeral.read value).toOption.map fun least => { arguments with multilineLeast := some least }

/-- Read the words behind those that are read, one after the other. With `stray`, a word among those
does not belong. Help counts from where it stands; what is wrong with an option in front of it
counts first, but stray words count last. -/
def readWords (arguments : Arguments) (run : Run) (stray : Bool) :
    List Word → Except Refusal Arguments
  | [] => if stray then .error .usage else .ok arguments
  | .plain text :: rest =>
    if run = .behind then readWords arguments run true rest
    else readWords { arguments with classes := arguments.classes ++ [text] } .inside stray rest
  | .separator :: rest =>
    if run = .behind then readWords arguments run true rest
    else readWords arguments .inside stray rest
  | .help :: _ => .error .help
  | .overfull :: _ => .error .usage
  | .unknown :: rest => readWords arguments run.behindOption true rest
  | .flag flag :: rest => readWords (arguments.give flag) run.behindOption stray rest
  | .setting setting (some value) :: rest =>
    match arguments.assign? value setting with
    | some arguments => readWords arguments run.behindOption stray rest
    | none => .error .usage
  | .setting setting none :: .plain value :: rest =>
    match arguments.assign? value setting with
    | some arguments => readWords arguments run.behindOption stray rest
    | none => .error .usage
  | .setting _ none :: _ => .error .usage

def read (arguments : List Text) : Except Refusal Arguments :=
  match words? arguments with
  | some words => readWords {} .ahead false words
  | none => .error .usage

end Arguments

end ClassTidy
