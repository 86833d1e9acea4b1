import ClassTidy.Yaml.Token

/-!
# Nodes

A document is a tree of scalars, sequences and mappings. A node may have a name, and a reference to
the name stands for the node, also inside the node itself. The nodes are read from the tokens of the
document, each from the first of its tokens on.
-/

set_option autoImplicit false

namespace ClassTidy.Yaml

/-- A node of a document. Collections are told apart by the number of tokens in front of them. -/
inductive Node where
  | scalar (tag : Option Text) (text : Text) (isPlain : Bool)
  | sequence (position : Nat) (tag : Option Text) (items : List Node)
  | mapping (position : Nat) (tag : Option Text) (entries : List (Node × Node))
  | reference (name : Text)

def Node.empty : Node := .scalar none [] true

/-- The most collections that are inside each other. -/
def deepest : Nat := 488

structure Reading where
  stream : TokenStream
  position : Nat := 0
  /-- The names of nodes, also of those that are not read to their ends. -/
  names : List Text := []
  /-- The nodes with names that are read, the last first. -/
  named : List (Text × Node) := []

abbrev Reader := StateT Reading (Except Fault)

namespace Reader

def refuse {α : Type} : Reader α := throw .malformed

def peek : Reader Token := do
  let reading ← get
  match reading.stream.tokens with
  | token :: _ => return token
  | [] => throw reading.stream.fault

def skip : Reader Unit :=
  modify fun reading => { reading with
    stream := { reading.stream with tokens := reading.stream.tokens.tail }
    position := reading.position + 1 }

structure Properties where
  name : Option Text := none
  tag : Option (Option Text × Text) := none

def Properties.isEmpty (properties : Properties) : Bool :=
  properties.name.isNone && properties.tag.isNone

def readName? : Reader (Option Text) := do
  match ← peek with
  | .label name => do skip; return some name
  | _ => return none

def readTag? : Reader (Option (Option Text × Text)) := do
  match ← peek with
  | .tag handle suffix => do skip; return some (handle, suffix)
  | _ => return none

/-- Read the name and the tag in front of a node, which stand in either order. -/
def readProperties : Reader Properties := do
  match ← readName? with
  | some name => return ⟨some name, ← readTag?⟩
  | none =>
    match ← readTag? with
    | some tag => return ⟨← readName?, some tag⟩
    | none => return {}

/-- A tag in full. There are two handles. -/
def fullTag (tag : Option Text × Text) : Reader Text :=
  match tag with
  | (none, suffix) => return suffix
  | (some handle, suffix) =>
    if handle = "!".toList then return handle ++ suffix
    else if handle = "!!".toList then return "tag:yaml.org,2002:".toList ++ suffix
    else refuse

/-- Note the name of a node before its contents are read. No other node may have it. -/
def enter (name : Option Text) : Reader Unit := do
  match name with
  | none => return
  | some name =>
    if (← get).names.contains name then refuse
    modify fun reading => { reading with names := name :: reading.names }

def leave (name : Option Text) (node : Node) : Reader Node := do
  match name with
  | none => return node
  | some name =>
    modify fun reading => { reading with named := (name, node) :: reading.named }
    return node

/-- The node that a reference stands for: a scalar itself, or else the reference. -/
def referred (name : Text) : Reader Node := do
  let reading ← get
  if !reading.names.contains name then refuse
  match reading.named.lookup name with
  | some (.scalar tag text isPlain) => return .scalar tag text isPlain
  | _ => return .reference name

end Reader

open Reader

mutual

/-- Read a node that may have up to `room` collections inside each other. In an entry of a mapping of a
block the dashes of a sequence need not be indented. There may be nothing behind a name or a tag. -/
def readNode (inEntry : Bool) (room : Nat) : Nat → Reader Node
  | 0 => refuse
  | fuel + 1 => do
    if let .reference name ← peek then
      skip
      return ← referred name
    let properties ← readProperties
    let fullTag? ← properties.tag.mapM fullTag
    let isUntyped := fullTag? = some ['!']
    let tag := if isUntyped then none else fullTag?
    let position := (← get).position
    let sequence : List Node → Node := .sequence position tag
    let mapping : List (Node × Node) → Node := .mapping position tag
    let token ← peek
    enter properties.name
    let node ←
      if inEntry && token = .dash then sequence <$> readItems false room fuel
      else
        match token with
        | .scalar text isPlain => do
          skip
          pure (.scalar tag text (isPlain || isUntyped))
        | .flowSequence => do
          skip
          sequence <$> readFlowItems true room fuel
        | .flowMapping => do
          skip
          mapping <$> readFlowEntries true room fuel
        | .blockSequence => do
          skip
          sequence <$> readItems true room fuel
        | .blockMapping => do
          skip
          mapping <$> readEntries room fuel
        | _ =>
          if properties.isEmpty then refuse else pure (.scalar tag [] true)
    leave properties.name node
termination_by structural fuel => fuel

/-- Read a node, which is empty in front of certain tokens. -/
def readNodeUnless (stops : List Token) (inEntry : Bool) (room : Nat) : Nat → Reader Node
  | 0 => refuse
  | fuel + 1 => do
    if stops.contains (← peek) then return .empty else readNode inEntry room fuel
termination_by structural fuel => fuel

/-- Read the items of a sequence of a block, behind a dash each. An indented sequence has an end of
its own. -/
def readItems (isIndented : Bool) (room : Nat) : Nat → Reader (List Node)
  | 0 => refuse
  | fuel + 1 => do
    match room with
    | 0 => throw .tooDeep
    | inner + 1 =>
      match ← peek with
      | .dash =>
        skip
        let stops := if isIndented then [.dash, .blockEnd] else [.dash, .key, .colon, .blockEnd]
        let item ← readNodeUnless stops false inner fuel
        return item :: (← readItems isIndented room fuel)
      | token =>
        if isIndented then
          if token ≠ .blockEnd then refuse
          skip
        return []
termination_by structural fuel => fuel

def readEntries (room : Nat) : Nat → Reader (List (Node × Node))
  | 0 => refuse
  | fuel + 1 => do
    match room with
    | 0 => throw .tooDeep
    | inner + 1 =>
      match ← peek with
      | .key =>
        skip
        let stops := [.key, .colon, .blockEnd]
        let key ← readNodeUnless stops true inner fuel
        let value ← if (← peek) = .colon then do
            skip
            readNodeUnless stops true inner fuel
          else pure .empty
        return (key, value) :: (← readEntries room fuel)
      | .blockEnd =>
        skip
        return []
      | _ => refuse
termination_by structural fuel => fuel

/-- Read a key of a flow collection that is closed by a certain token, with the value behind it, if
there is one. -/
def readFlowPair (closing : Token) (room : Nat) : Nat → Reader (Node × Node)
  | 0 => refuse
  | fuel + 1 => do
    skip
    let key ← readNodeUnless [.colon, .comma, closing] false room fuel
    if (← peek) = .colon then
      skip
      return (key, ← readNodeUnless [.comma, closing] false room fuel)
    else return (key, .empty)
termination_by structural fuel => fuel

/-- Read the items of a flow sequence up to its closing bracket, each behind a comma but the first.
An item with a colon is a mapping with one entry. -/
def readFlowItems (isFirst : Bool) (room : Nat) : Nat → Reader (List Node)
  | 0 => refuse
  | fuel + 1 => do
    match room with
    | 0 => throw .tooDeep
    | inner + 1 =>
      if (← peek) ≠ .flowSequenceEnd && !isFirst then
        if (← peek) ≠ .comma then refuse
        skip
      match ← peek with
      | .flowSequenceEnd =>
        skip
        return []
      | .key =>
        let position := (← get).position
        if inner = 0 then throw .tooDeep
        let entry ← readFlowPair .flowSequenceEnd (inner - 1) fuel
        return .mapping position none [entry] :: (← readFlowItems false room fuel)
      | _ =>
        let item ← readNode false inner fuel
        return item :: (← readFlowItems false room fuel)
termination_by structural fuel => fuel

/-- Read the entries of a flow mapping up to its closing brace, each behind a comma but the first. A
key without a colon has no value. -/
def readFlowEntries (isFirst : Bool) (room : Nat) : Nat → Reader (List (Node × Node))
  | 0 => refuse
  | fuel + 1 => do
    match room with
    | 0 => throw .tooDeep
    | inner + 1 =>
      if (← peek) ≠ .flowMappingEnd && !isFirst then
        if (← peek) ≠ .comma then refuse
        skip
      match ← peek with
      | .flowMappingEnd =>
        skip
        return []
      | .key =>
        let entry ← readFlowPair .flowMappingEnd inner fuel
        return entry :: (← readFlowEntries false room fuel)
      | _ =>
        let key ← readNode false inner fuel
        return (key, .empty) :: (← readFlowEntries false room fuel)
termination_by structural fuel => fuel

end

def skipEndMarkers : Nat → Reader Unit
  | 0 => refuse
  | fuel + 1 => do
    if (← peek) = .documentEnd then
      skip
      skipEndMarkers fuel

/-- The root of a document, with the nodes that have names in the order of their ends. -/
structure Document where
  root : Node
  named : List (Text × Node)

/-- Read the only document of a text. A text without anything but comments has none. -/
def readDocument (fuel : Nat) : Reader (Option Document) := do
  match ← peek with
  | .finish => return none
  | first =>
    let root ← if first = .documentStart then do
        skip
        readNodeUnless [.documentStart, .documentEnd, .finish] false deepest fuel
      else readNode false deepest fuel
    skipEndMarkers fuel
    if (← peek) ≠ .finish then refuse
    return some ⟨root, (← get).named.reverse⟩

/-- The document that tokens stand for. Every step of reading goes over a token, and between two
tokens there are at most as many calls as constructs. -/
def Document.ofTokens (stream : TokenStream) : Except Fault (Option Document) :=
  (readDocument (4 * stream.tokens.length + 16)).run' { stream }

end ClassTidy.Yaml
