import ClassTidy.Config.Fault
import ClassTidy.Yaml.Cursor

/-!
# Scalars

The text of a plain or a quoted scalar. A scalar may go on over several lines: the end of a line
then stands for a space, unless empty lines follow it, which stand for themselves.
-/

set_option autoImplicit false

namespace ClassTidy.Yaml

def foldedBreak (c : Char) (empty : Text) : Text :=
  if breakText c ≠ '\n' then breakText c :: empty
  else if empty.isEmpty then [' '] else empty

/-! ## Plain scalars -/

def startsPlain (inFlow : Bool) : Text → Bool
  | [] => false
  | c :: rest =>
    if c = '-' || (!inFlow && (c = '?' || c = ':')) then !atGap rest
    else !atGap [c] && !"-?:,[]\x7b\x7d#&*!|>'\"%@\x60".toList.contains c

/-- The part of a plain scalar up to the next white space, and the rest. A colon ends the scalar if
white space follows, or in a flow collection one of its brackets or a comma. -/
def plainWord (inFlow : Bool) : Text → Text × Text
  | [] => ([], [])
  | c :: rest =>
    let endsHere :=
      atGap [c] ||
      (c == ':' && (atGap rest || (inFlow && match rest with
        | d :: _ => ",[]\x7b\x7d".toList.contains d
        | [] => false))) ||
      (inFlow && ",?[]\x7b\x7d".toList.contains c)
    if endsHere then ([], c :: rest)
    else
      let word := plainWord inFlow rest
      (c :: word.1, word.2)

/-- Go over spaces and ends of lines, down to a marker at most. The result is what the ends of lines
stand for, the column that is reached, and the rest. -/
def emptyLines (column : Nat) : Text → Text × Nat × Text
  | [] => ([], column, [])
  | c :: rest =>
    if column = 0 && atMarker (c :: rest) then ([], column, c :: rest)
    else if c = ' ' then emptyLines (column + 1) rest
    else if isBreak c then
      let more := emptyLines 0 rest
      (breakText c :: more.1, more.2)
    else ([], column, c :: rest)

structure PlainGap where
  /-- What it stands for in front of another word. -/
  meaning : Text
  /-- No further word may follow. -/
  isLast : Bool
  /-- The end of a line is in it. -/
  isBroken : Bool
  rest : Text

/-- The gap in front of some text. In a block a word on a new line has to stand at the column `least`
or behind it. -/
def plainGap (inFlow : Bool) (least : Nat) (text : Text) : PlainGap :=
  let spaces := text.takeWhile (· == ' ')
  match text.dropWhile (· == ' ') with
  | [] => ⟨spaces, true, false, []⟩
  | c :: rest =>
    if isBreak c then
      let (empty, column, rest) := emptyLines 0 rest
      let isLast := (column == 0 && atMarker rest) || (!inFlow && column < least)
      ⟨foldedBreak c empty, isLast, true, rest⟩
    else ⟨spaces, spaces.isEmpty, false, c :: rest⟩

/-- A plain scalar, and what it leaves of the document: the gap behind it is gone over too. -/
structure PlainScalar where
  text : Text
  isBroken : Bool
  rest : Text

/-- Read a plain scalar. It has at most as many words as `fuel`, which the length of the document
bounds. -/
def plainFrom (inFlow : Bool) (least : Nat) : Nat → Text → PlainScalar
  | 0, text => ⟨[], false, text⟩
  | fuel + 1, text =>
    let word := plainWord inFlow text
    let gap := plainGap inFlow least word.2
    if gap.isLast || gap.rest.head? = some '#' || (plainWord inFlow gap.rest).1.isEmpty then
      ⟨word.1, gap.isBroken, gap.rest⟩
    else
      let more := plainFrom inFlow least fuel gap.rest
      { more with text := word.1 ++ (gap.meaning ++ more.text) }

def plainScalar (inFlow : Bool) (least : Nat) (text : Text) : PlainScalar :=
  plainFrom inFlow least text.length text

/-! ## Quoted scalars -/

/-- The letters that stand for a character behind a backslash. -/
def escapes : List (Char × Char) :=
  [('0', '\x00'), ('a', '\x07'), ('b', '\x08'), ('t', '\t'), ('\t', '\t'), ('n', '\n'),
   ('v', '\x0b'), ('f', '\x0c'), ('r', '\r'), ('e', '\x1b'), (' ', ' '), ('"', '"'),
   ('\\', '\\'), ('/', '/'), ('N', '\x85'), ('_', '\xa0'), ('L', '\u2028'), ('P', '\u2029')]

/-- The letters that announce a code point, with the number of its hexadecimal digits. -/
def codeEscapes : List (Char × Nat) := [('x', 2), ('u', 4), ('U', 8)]

def hexValue? (c : Char) : Option Nat :=
  if '0' ≤ c && c ≤ '9' then some (c.toNat - '0'.toNat)
  else if 'a' ≤ c && c ≤ 'f' then some (c.toNat - 'a'.toNat + 10)
  else if 'A' ≤ c && c ≤ 'F' then some (c.toNat - 'A'.toNat + 10)
  else none

/-- The code point that the first digits of a text give, and what follows them. -/
def escapedCode (count : Nat) (text : Text) : Except Fault (Nat × Text) :=
  let digits := text.take count
  match digits.foldlM (fun code c => (hexValue? c).map (code * 16 + ·)) 0 with
  | some code => if digits.length < count then .error .malformed else .ok (code, text.drop count)
  | none => .error .malformed

/-- The character with a code point. A surrogate is no character and is replaced. Numbers of 32 bits
that would be negative are not even looked up. -/
def character (code : Nat) : Except Fault Char :=
  if code.isValidChar then .ok (Char.ofNat code)
  else if code < 0x110000 then .ok '\ufffd'
  else if code < 0x80000000 then .error .noCodePoint
  else .error .outOfRange

/-- The low surrogate that another escape at the start of a text gives, and what follows it. -/
def lowSurrogate? (text : Text) : Option (Nat × Text) :=
  match text with
  | '\\' :: letter :: rest => do
    let (code, rest) ← (escapedCode (← codeEscapes.lookup letter) rest).toOption
    if 0xDC00 ≤ code && code < 0xE000 then some (code, rest) else none
  | _ => none

/-- The character whose code point the first digits of a text give, and what follows them. A high and
a low surrogate side by side are one character. -/
def escapedCharacter (count : Nat) (text : Text) : Except Fault (Char × Text) := do
  let (code, rest) ← escapedCode count text
  let low? := if 0xD800 ≤ code && code < 0xDC00 then lowSurrogate? rest else none
  match low? with
  | some (low, rest) =>
    return (← character (0x10000 + (code - 0xD800) * 0x400 + (low - 0xDC00)), rest)
  | none => return (← character code, rest)

/-- Go over the white space behind the end of a line in a quoted scalar. The result is what the
ends of lines stand for, and the rest; there is none at a marker. -/
def quotedFold : Text → Option (Text × Text)
  | [] => some ([], [])
  | c :: rest =>
    if c = ' ' || c = '\t' then quotedFold rest
    else if isBreak c then
      if atMarker rest then none
      else (quotedFold rest).map fun folded => (breakText c :: folded.1, folded.2)
    else some ([], c :: rest)

/-- Go over what follows the end of a line in a quoted scalar, where no marker may stand. -/
def quotedLines (rest : Text) : Except Fault (Text × Text) :=
  match if atMarker rest then none else quotedFold rest with
  | some folded => .ok folded
  | none => .error .malformed

def prepend (characters : Text) (scalar : Text × Text) : Text × Text :=
  (characters ++ scalar.1, scalar.2)

/-- The text of a scalar behind its opening quote, and the rest of the document behind the closing
one. The scalar has to be closed and must not hold an unknown escape or a marker. -/
def quotedFrom (quote : Char) : Nat → Text → Except Fault (Text × Text)
  | 0, _ => .error .malformed
  | _ + 1, [] => .error .malformed
  | fuel + 1, c :: rest =>
    if c = quote then
      match rest with
      | d :: others =>
        if quote = '\'' && d = '\'' then prepend ['\''] <$> quotedFrom quote fuel others
        else .ok ([], rest)
      | [] => .ok ([], [])
    else if c = '\\' && quote = '"' then
      match rest with
      | [] => .error .malformed
      | letter :: others =>
        match escapes.lookup letter, codeEscapes.lookup letter with
        | some meant, _ => prepend [meant] <$> quotedFrom quote fuel others
        | none, some count => do
          let (meant, others) ← escapedCharacter count others
          prepend [meant] <$> quotedFrom quote fuel others
        | none, none => do
          if isBreak letter then
            let (empty, others) ← quotedLines others
            prepend empty <$> quotedFrom quote fuel others
          else .error .malformed
    else if c = ' ' || c = '\t' || isBreak c then do
      let isSpace (d : Char) : Bool := d == ' ' || d == '\t'
      let spaces := (c :: rest).takeWhile isSpace
      match (c :: rest).dropWhile isSpace with
      | [] => .error .malformed
      | d :: others =>
        if isBreak d then
          let (empty, others) ← quotedLines others
          prepend (foldedBreak d empty) <$> quotedFrom quote fuel others
        else prepend spaces <$> quotedFrom quote fuel (d :: others)
    else prepend [c] <$> quotedFrom quote fuel rest

def quotedScalar (text : Text) : Except Fault (Text × Text) :=
  match text with
  | quote :: rest => quotedFrom quote (rest.length + 1) rest
  | [] => .error .malformed

end ClassTidy.Yaml
