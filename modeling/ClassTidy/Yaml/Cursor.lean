import ClassTidy.Text.Basic

/-!
# Places in a document

A cursor is the rest of a document with its line and column. The depth of a block is told by
columns, and a key has to end on the line it starts on, so both are part of the syntax.
-/

set_option autoImplicit false

namespace ClassTidy.Yaml

/-- The characters that end a line of a document. -/
def isBreak (c : Char) : Bool := c == '\n' || c == '\x85' || c == '\u2028' || c == '\u2029'

/-- What the end of a line stands for inside a scalar. -/
def breakText (c : Char) : Char := if c = '\u2028' || c = '\u2029' then c else '\n'

/-- Whether the next character is white space or missing, so that an indicator may stand before
it. -/
def atGap : Text → Bool
  | [] => true
  | c :: _ => c == ' ' || c == '\t' || isBreak c

def atMarker : Text → Bool
  | '-' :: '-' :: '-' :: rest => atGap rest
  | '.' :: '.' :: '.' :: rest => atGap rest
  | _ => false

/-- A place in a document: what is left of it, the number of characters in front, and the line and
the column. -/
structure Cursor where
  rest : Text
  index : Nat
  line : Nat
  column : Nat

namespace Cursor

/-- The start of a document. A byte order mark takes up no room. -/
def start (text : Text) : Cursor :=
  match text with
  | '\ufeff' :: rest => ⟨rest, 0, 0, 0⟩
  | rest => ⟨rest, 0, 0, 0⟩

def next (cursor : Cursor) : Cursor :=
  match cursor.rest with
  | [] => cursor
  | c :: rest =>
    if isBreak c then ⟨rest, cursor.index + 1, cursor.line + 1, 0⟩
    else if c = '\ufeff' then ⟨rest, cursor.index + 1, cursor.line, cursor.column⟩
    else ⟨rest, cursor.index + 1, cursor.line, cursor.column + 1⟩

def advance (cursor : Cursor) : Nat → Cursor
  | 0 => cursor
  | count + 1 => cursor.next.advance count

/-- Move on to where this much of the document is left. -/
def moveTo (cursor : Cursor) (rest : Text) : Cursor :=
  cursor.advance (cursor.rest.length - rest.length)

/-- The number of characters in front of the next that is neither space, end of line nor part of a
comment. -/
def gapLength (inComment : Bool) : Text → Nat
  | [] => 0
  | c :: rest =>
    if isBreak c then 1 + gapLength false rest
    else if inComment then 1 + gapLength true rest
    else if c = ' ' then 1 + gapLength false rest
    else if c = '#' then 1 + gapLength true rest
    else 0

def skipGap (cursor : Cursor) : Cursor := cursor.advance (gapLength false cursor.rest)

def isAtMarker (cursor : Cursor) : Bool := cursor.column == 0 && atMarker cursor.rest

end Cursor

end ClassTidy.Yaml
