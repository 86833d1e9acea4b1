import ClassTidy.Yaml.Scalar

/-!
# Tokens

A document as a sequence of tokens, in which the start and the end of each block are tokens too.

Whether a token starts a key is known only at the colon behind it, so tokens are held back while one
of them may still turn out to be the start of a key. What is wrong with a document is found in the
order of its tokens, and only once the token in front is given out.
-/

set_option autoImplicit false

namespace ClassTidy.Yaml

inductive Token where
  | blockSequence
  | blockMapping
  | blockEnd
  | flowSequence
  | flowSequenceEnd
  | flowMapping
  | flowMappingEnd
  | dash
  | comma
  | key
  | colon
  | label (name : Text)
  | reference (name : Text)
  /-- A tag for the node that follows: the rest of it behind its handle, if it has one. -/
  | tag (handle : Option Text) (suffix : Text)
  | scalar (text : Text) (isPlain : Bool)
  | documentStart
  | documentEnd
  | finish
  deriving DecidableEq

/-! ## Names and tags -/

def isLabelChar (c : Char) : Bool :=
  ('0' ≤ c && c ≤ '9') || ('a' ≤ c && c ≤ 'z') || ('A' ≤ c && c ≤ 'Z') || c == '-' || c == '_'

def readName (text : Text) : Except Fault (Text × Text) :=
  let name := text.takeWhile isLabelChar
  let rest := text.dropWhile isLabelChar
  let isBounded := atGap rest || match rest with
    | c :: _ => "?:,]\x7d%@\x60".toList.contains c
    | [] => true
  if name.isEmpty || !isBounded then .error .malformed else .ok (name, rest)

def isTagChar (c : Char) : Bool := isLabelChar c || ";/?:@&=+$,.!~*'()[]%".toList.contains c

/-- Whether the end of a document or of a line or a space follows. -/
def isTagBounded : Text → Bool
  | [] => true
  | c :: _ => c == ' ' || isBreak c

def readTagSuffix (handle text : Text) : Except Fault (Token × Text) :=
  let suffix := text.takeWhile isTagChar
  let rest := text.dropWhile isTagChar
  if suffix.isEmpty || !isTagBounded rest then .error .malformed
  else .ok (.tag (some handle) suffix, rest)

/-- Read a tag behind its exclamation mark. It stands in angle brackets, is nothing but the mark, or
has a handle: the mark alone, or up to the next mark. -/
def readTag (text : Text) : Except Fault (Token × Text) :=
  match text with
  | '<' :: rest =>
    let suffix := rest.takeWhile isTagChar
    match rest.dropWhile isTagChar with
    | '>' :: rest =>
      if suffix.isEmpty || !isTagBounded rest then .error .malformed
      else .ok (.tag none suffix, rest)
    | _ => .error .malformed
  | _ =>
    if atGap text then
      if isTagBounded text then .ok (.tag none ['!'], text) else .error .malformed
    else if (text.takeWhile fun c => !isTagBounded [c]).contains '!' then
      match text.dropWhile isLabelChar with
      | '!' :: rest => readTagSuffix ('!' :: (text.takeWhile isLabelChar ++ ['!'])) rest
      | _ => .error .malformed
    else readTagSuffix ['!'] text

/-! ## Reading tokens -/

structure PossibleKey where
  flowDepth : Nat
  position : Nat
  /-- It stands where an entry of the innermost block has to start. -/
  isRequired : Bool
  place : Cursor

/-- The most characters between the start of a key and the colon behind it. -/
def longestKey : Nat := 1024

/-- Whether the colon of a key can no longer follow. -/
def PossibleKey.isOver (key : PossibleKey) (here : Cursor) : Bool :=
  key.place.line != here.line || here.index - key.place.index > longestKey

structure Lexer where
  cursor : Cursor
  held : List Token := []
  given : Nat := 0
  flowDepth : Nat := 0
  /-- The columns of the blocks around this place, the innermost first. -/
  blocks : List Nat := []
  keyAllowed : Bool := true
  keys : List PossibleKey := []
  isFinished : Bool := false

namespace Lexer

def hold (lexer : Lexer) (token : Token) : Lexer := { lexer with held := lexer.held ++ [token] }

def advance (lexer : Lexer) (count : Nat) : Lexer :=
  { lexer with cursor := lexer.cursor.advance count }

def moveTo (lexer : Lexer) (rest : Text) : Lexer :=
  { lexer with cursor := lexer.cursor.moveTo rest }

/-- Give up some of the possible keys. None of them may be required. -/
def giveUp (lexer : Lexer) (which : PossibleKey → Bool) : Except Fault Lexer :=
  if lexer.keys.any fun key => which key && key.isRequired then .error .malformed
  else .ok { lexer with keys := lexer.keys.filter fun key => !which key }

def giveUpOld (lexer : Lexer) : Except Fault Lexer := lexer.giveUp (·.isOver lexer.cursor)

/-- Give up the possible key of the innermost flow collection, or of the blocks outside of any. -/
def giveUpInner (lexer : Lexer) : Except Fault Lexer :=
  lexer.giveUp (·.flowDepth == lexer.flowDepth)

/-- The next token may start a key, if one is allowed here. -/
def expectKey (lexer : Lexer) : Except Fault Lexer :=
  if lexer.keyAllowed then do
    let isRequired := lexer.flowDepth == 0 && lexer.blocks.head? == some lexer.cursor.column
    let lexer ← lexer.giveUpInner
    let position := lexer.given + lexer.held.length
    let key : PossibleKey := ⟨lexer.flowDepth, position, isRequired, lexer.cursor⟩
    return { lexer with keys := key :: lexer.keys }
  else .ok lexer

def opensBlock (lexer : Lexer) (column : Nat) : Bool :=
  lexer.flowDepth == 0 && match lexer.blocks with
    | [] => true
    | innermost :: _ => innermost < column

/-- Open a block here with its token, unless this is an entry of the innermost block. -/
def openBlock (lexer : Lexer) (token : Token) : Lexer :=
  let column := lexer.cursor.column
  if lexer.opensBlock column then
    { lexer with blocks := column :: lexer.blocks }.hold token
  else lexer

def closeBlocks (lexer : Lexer) (isClosed : Nat → Bool) : Lexer :=
  if lexer.flowDepth = 0 then
    let closed := lexer.blocks.takeWhile isClosed
    { lexer with
      held := lexer.held ++ closed.map fun _ => .blockEnd
      blocks := lexer.blocks.dropWhile isClosed }
  else lexer

/-- Move on over what separates tokens. On a new line of a block a key may start. -/
def skipGap (lexer : Lexer) : Lexer :=
  let cursor := lexer.cursor.skipGap
  let isNewLine := cursor.line != lexer.cursor.line
  { lexer with cursor, keyAllowed := lexer.keyAllowed || (isNewLine && lexer.flowDepth == 0) }

def readFinish (lexer : Lexer) : Except Fault Lexer := do
  let lexer ← (lexer.closeBlocks fun _ => true).giveUpInner
  return { lexer.hold .finish with keyAllowed := false, keys := [], isFinished := true }

def readMarker (lexer : Lexer) (token : Token) : Except Fault Lexer := do
  let lexer ← (lexer.closeBlocks fun _ => true).giveUpInner
  return { (lexer.advance 3).hold token with keyAllowed := false }

def readOpening (lexer : Lexer) (token : Token) : Except Fault Lexer := do
  let lexer ← lexer.expectKey
  return { (lexer.advance 1).hold token with flowDepth := lexer.flowDepth + 1, keyAllowed := true }

def readClosing (lexer : Lexer) (token : Token) : Except Fault Lexer := do
  let lexer ← lexer.giveUpInner
  return { (lexer.advance 1).hold token with flowDepth := lexer.flowDepth - 1, keyAllowed := false }

def readComma (lexer : Lexer) : Except Fault Lexer := do
  let lexer ← lexer.giveUpInner
  return { (lexer.advance 1).hold .comma with keyAllowed := true }

def readDash (lexer : Lexer) : Except Fault Lexer := do
  if lexer.flowDepth = 0 && !lexer.keyAllowed then .error .malformed
  let lexer ← (lexer.openBlock .blockSequence).giveUpInner
  return { (lexer.advance 1).hold .dash with keyAllowed := true }

def readKeyMark (lexer : Lexer) : Except Fault Lexer := do
  if lexer.flowDepth = 0 && !lexer.keyAllowed then .error .malformed
  let lexer ← (lexer.openBlock .blockMapping).giveUpInner
  return { (lexer.advance 1).hold .key with keyAllowed := lexer.flowDepth == 0 }

/-- The tokens held back, with the tokens for a key in front of the one that starts it. -/
def holdKey (lexer : Lexer) (key : PossibleKey) (tokens : List Token) : Lexer :=
  let before := key.position - lexer.given
  { lexer with
    held := lexer.held.take before ++ tokens ++ lexer.held.drop before
    keys := lexer.keys.filter (·.flowDepth != lexer.flowDepth) }

/-- Read the colon in front of a value. The possible key in front of it is one now, and may be the
first of a block. -/
def readColon (lexer : Lexer) : Except Fault Lexer :=
  match lexer.keys.find? (·.flowDepth == lexer.flowDepth) with
  | some key =>
    let lexer :=
      if lexer.opensBlock key.place.column then
        { lexer with blocks := key.place.column :: lexer.blocks }.holdKey key [.blockMapping, .key]
      else lexer.holdKey key [.key]
    .ok { (lexer.advance 1).hold .colon with keyAllowed := false }
  | none =>
    if lexer.flowDepth = 0 && !lexer.keyAllowed then .error .malformed
    else
      let lexer := lexer.openBlock .blockMapping
      .ok { (lexer.advance 1).hold .colon with keyAllowed := lexer.flowDepth == 0 }

/-- Read a token that may start a key and stands for, or in front of, a whole node. -/
def readStart (lexer : Lexer) (read : Text → Except Fault (Token × Text)) : Except Fault Lexer := do
  let lexer ← lexer.expectKey
  let (token, rest) ← read lexer.cursor.rest
  return { (lexer.moveTo rest).hold token with keyAllowed := false }

/-- Read a plain scalar. Behind the end of a line another key may start. -/
def readPlain (lexer : Lexer) : Except Fault Lexer := do
  let lexer ← lexer.expectKey
  let least := match lexer.blocks with
    | [] => 0
    | innermost :: _ => innermost + 1
  let scalar := plainScalar (lexer.flowDepth != 0) least lexer.cursor.rest
  let lexer := (lexer.moveTo scalar.rest).hold (.scalar scalar.text true)
  return { lexer with keyAllowed := scalar.isBroken }

/-- Read the next token from its first character on. Directives and block scalars are not known. -/
def readToken (lexer : Lexer) : Except Fault Lexer :=
  let inFlow := lexer.flowDepth != 0
  match lexer.cursor.rest with
  | [] => lexer.readFinish
  | c :: rest =>
    if c = '%' && lexer.cursor.column = 0 then .error .malformed
    else if lexer.cursor.isAtMarker then
      lexer.readMarker (if c = '-' then .documentStart else .documentEnd)
    else if c = '[' then lexer.readOpening .flowSequence
    else if c = '\x7b' then lexer.readOpening .flowMapping
    else if c = ']' then lexer.readClosing .flowSequenceEnd
    else if c = '\x7d' then lexer.readClosing .flowMappingEnd
    else if c = ',' then lexer.readComma
    else if c = '-' && atGap rest then lexer.readDash
    else if c = '?' && (inFlow || atGap rest) then lexer.readKeyMark
    else if c = ':' && (inFlow || atGap rest) then lexer.readColon
    else if c = '*' then
      lexer.readStart fun text => do
        let (name, rest) ← readName (text.drop 1)
        return (.reference name, rest)
    else if c = '&' then
      lexer.readStart fun text => do
        let (name, rest) ← readName (text.drop 1)
        return (.label name, rest)
    else if c = '!' then lexer.readStart fun text => readTag (text.drop 1)
    else if c = '\'' || c = '"' then
      lexer.readStart fun text => do
        let (scalar, rest) ← quotedScalar text
        return (.scalar scalar false, rest)
    else if startsPlain inFlow (c :: rest) then lexer.readPlain
    else .error .malformed

def read (lexer : Lexer) : Except Fault Lexer := do
  let lexer ← lexer.skipGap.giveUpOld
  (lexer.closeBlocks (lexer.cursor.column < ·)).readToken

end Lexer

structure TokenStream where
  tokens : List Token
  /-- What is wrong behind the last token, if anything is asked for there. -/
  fault : Fault

namespace TokenStream

/-- Give out the tokens from where a reading stands, behind those given out before, the last of them
first. The number of steps is at most `fuel`, which the length of the document bounds. -/
def run : Nat → Lexer → List Token → TokenStream
  | 0, _, given => ⟨given.reverse, .malformed⟩
  | fuel + 1, lexer, given =>
    match lexer.held with
    | [] =>
      if lexer.isFinished then ⟨given.reverse, .malformed⟩
      else
        match lexer.read with
        | .ok lexer => run fuel lexer given
        | .error fault => ⟨given.reverse, fault⟩
    | token :: held =>
      match lexer.giveUpOld with
      | .error fault => ⟨given.reverse, fault⟩
      | .ok lexer =>
        if lexer.keys.any (·.position == lexer.given) then
          match lexer.read with
          | .ok lexer => run fuel lexer given
          | .error fault => ⟨given.reverse, fault⟩
        else run fuel { lexer with held, given := lexer.given + 1 } (token :: given)

def isAllowed (c : Char) : Bool :=
  inRanges [(0x09, 0x0A), (0x0D, 0x0D), (0x20, 0x7E), (0x85, 0x85), (0xA0, 0xD7FF),
    (0xE000, 0xFFFD), (0x10000, 0x10FFFF)] c

/-- The tokens of a text with unified line ends. No more than four tokens start at a character, and
none is read and given out in more than two steps. -/
def ofText (text : Text) : TokenStream :=
  if text.all isAllowed then run (8 * text.length + 16) { cursor := Cursor.start text } []
  else ⟨[], .malformed⟩

end TokenStream

end ClassTidy.Yaml
