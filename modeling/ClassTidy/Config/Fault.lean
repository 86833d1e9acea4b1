import ClassTidy.Config.Value
import ClassTidy.Text.Utf8

/-!
# Faults

Everything that can be wrong with the files and the values of a configuration, with the words for
it.
-/

set_option autoImplicit false

namespace ClassTidy

inductive FileFault where
  | missing
  | notAFolder
  | isAFolder
  | denied
  | nameTooLong
  /-- The name holds a character that no file name can hold. -/
  | badName
  deriving DecidableEq

def FileFault.message (path : Text) (fault : FileFault) : String :=
  let shown := String.ofList path.quoted
  match fault with
  | .missing => "[Errno 2] No such file or directory: " ++ shown
  | .notAFolder => "[Errno 20] Not a directory: " ++ shown
  | .isAFolder => "[Errno 21] Is a directory: " ++ shown
  | .denied => "[Errno 13] Permission denied: " ++ shown
  | .nameTooLong => "[Errno 36] File name too long: " ++ shown
  | .badName => "embedded null byte"

inductive Section where
  | options
  | sorting
  deriving DecidableEq

def Section.key : Section → String
  | .options => "options"
  | .sorting => "sorting"

inductive Fault where
  | file (path : Text) (fault : FileFault)
  | encoding (fault : Utf8.Fault)
  | malformed
  /-- A document has too many collections inside each other. -/
  | tooDeep
  | noCodePoint
  | outOfRange
  | noDigits (base : Nat)
  | notAMapping (path : Text)
  | notASection (name : Section) (value : Value)
  /-- The setting for collapsing is neither off nor a mapping. -/
  | notASpacing (value : Value)
  | notANumeral (text : Text)
  | longNumeral (digits : Nat)
  | notANumber
  | infinite
  | notACount (value : Value)
  | compoundMember
  /-- A canonical order is no list, nor anything with parts. -/
  | notAnOrder (value : Value)
  | notAPath (value : Value)

/-- The words for a numeral with too many digits, with a remark on their number. -/
def Fault.digitLimit (remark : String) : String :=
  let limit := toString Numeral.mostDigits
  "Exceeds the limit (" ++ limit ++ " digits) for integer string conversion" ++ remark ++
    "; use sys.set_int_max_str_digits() to increase the limit"

/-- A value as a message shows it. With an integer of too many digits in the value, there are only
words for that. -/
def Fault.showing (value : Value) (message : String → String) : String :=
  if value.isTooLong then digitLimit "" else message (String.ofList value.literal)

/-- The most characters of a text that is no numeral that a message shows, quotes included. -/
def Fault.longestShown : Nat := 200

def Fault.message : Fault → String
  | .file path fault => fault.message path
  | .encoding fault => fault.message
  | .malformed => "the document is not well formed"
  | .tooDeep => "the document is nested too deeply"
  | .noCodePoint => "chr() arg not in range(0x110000)"
  | .outOfRange => "a number is out of range"
  | .noDigits base => "invalid literal for int() with base " ++ toString base ++ ": ''"
  | .notAMapping path =>
    "Config file " ++ String.ofList path ++ " must contain a mapping at the top level"
  | .notASection name value =>
    showing value fun shown => name.key ++ " must be a mapping, got " ++ shown
  | .notASpacing value =>
    showing value fun shown => "collapse_whitespace must be false or a mapping, got " ++ shown
  | .notANumeral text =>
    "invalid literal for int() with base 10: " ++ String.ofList (text.quoted.take longestShown)
  | .longNumeral digits => digitLimit (": value has " ++ toString digits ++ " digits")
  | .notANumber => "cannot convert float NaN to integer"
  | .infinite => "cannot convert float infinity to integer"
  | .notACount value =>
    "int() argument must be a string, a bytes-like object or a real number, not '" ++
      value.kind ++ "'"
  | .compoundMember => "a list or a mapping cannot be a class name"
  | .notAnOrder value => "'" ++ value.kind ++ "' object is not iterable"
  | .notAPath value => "expected str, bytes or os.PathLike object, not " ++ value.kind

end ClassTidy
