import ClassTidy.Yaml.Node
import ClassTidy.Yaml.Plain

/-!
# The value of a document

The values of a document are found collection by collection: those of the scalars in a collection
first, and then those of the collections in it, behind all that were met before. This order tells
which of several faults is the one that is reported.

A collection that has itself as a part is shown inside itself as a mere sign, seen from where one
starts to look. A configuration is looked at in its settings, so the values of these are unfolded
each on its own.
-/

set_option autoImplicit false

namespace ClassTidy.Yaml

def textTag : Text := "tag:yaml.org,2002:str".toList

def sequenceTag : Text := "tag:yaml.org,2002:seq".toList

def mappingTag : Text := "tag:yaml.org,2002:map".toList

/-- The value of a scalar. With a tag it can only be a text. -/
def scalarValue (tag : Option Text) (text : Text) (isPlain : Bool) : Except Fault Value :=
  match tag with
  | none => if isPlain then plainValue text else .ok (.text text)
  | some tag => if tag = textTag then .ok (.text text) else .error .malformed

def Node.keyText : Node → Except Fault Text
  | .scalar _ text _ => .ok text
  | _ => .error .malformed

/-! ## The first fault -/

namespace Document

def resolve (document : Document) : Node → Node
  | .reference name => (document.named.lookup name).getD .empty
  | node => node

/-- Collections that were met and are still to be gone into, and the positions of all that were
met. -/
structure Survey where
  waiting : List Node := []
  met : List Nat := []

def Survey.add (survey : Survey) (position : Nat) (isKnown : Bool) (collection : Node) :
    Except Fault Survey :=
  if survey.met.contains position then .ok survey
  else if isKnown then .ok ⟨survey.waiting ++ [collection], position :: survey.met⟩
  else .error .malformed

def meet (document : Document) (survey : Survey) (node : Node) : Except Fault Survey :=
  match document.resolve node with
  | .scalar tag text isPlain => do
    let _ ← scalarValue tag text isPlain
    return survey
  | .sequence position tag items =>
    survey.add position (tag = none ∨ tag = some sequenceTag) (.sequence position tag items)
  | .mapping position tag entries =>
    survey.add position (tag = none ∨ tag = some mappingTag) (.mapping position tag entries)
  | .reference _ => .error .malformed

/-- Meet a key. A lone `=` or `<<` is a text here. -/
def meetKey : Node → Except Fault Unit
  | .scalar tag text isPlain => do
    let isReserved := isPlain && tag = none && (text = "=".toList || text = "<<".toList)
    if !isReserved then
      let _ ← scalarValue tag text isPlain
  | _ => .error .malformed

def goInto (document : Document) (survey : Survey) : Node → Except Fault Survey
  | .sequence _ _ items => items.foldlM document.meet survey
  | .mapping _ _ entries =>
    entries.foldlM (fun survey entry => do
      meetKey entry.1
      document.meet survey entry.2) survey
  | _ => .ok survey

/-- Go into the collections that wait, and those that are met on the way. There are at most as many
as `fuel`, which the number of tokens bounds. -/
def check (document : Document) : Nat → Survey → Except Fault Unit
  | 0, _ => .ok ()
  | fuel + 1, survey =>
    match survey.waiting with
    | [] => .ok ()
    | collection :: waiting => do
      check document fuel (← document.goInto { survey with waiting } collection)

end Document

/-! ## The value -/

mutual

/-- The value of a node inside the collections of a path. Inside itself a collection is a mere
sign. -/
def Node.value (follow : List Nat → Text → Except Fault Value) (path : List Nat) :
    Node → Except Fault Value
  | .scalar tag text isPlain => scalarValue tag text isPlain
  | .sequence position _ items =>
    if path.contains position then .ok (.enclosing .list)
    else Value.list <$> itemValues follow (position :: path) items
  | .mapping position _ entries =>
    if path.contains position then .ok (.enclosing .mapping)
    else
      (fun entries => .mapping (Mapping.ofEntries entries)) <$>
        entryValues follow (position :: path) entries
  | .reference name => follow path name

def itemValues (follow : List Nat → Text → Except Fault Value) (path : List Nat) :
    List Node → Except Fault (List Value)
  | [] => .ok []
  | item :: rest => do return (← item.value follow path) :: (← itemValues follow path rest)

def entryValues (follow : List Nat → Text → Except Fault Value) (path : List Nat) :
    List (Node × Node) → Except Fault (List (Text × Value))
  | [] => .ok []
  | (key, node) :: rest => do
    return (← key.keyText, ← node.value follow path) :: (← entryValues follow path rest)

end

mutual

def Node.isClosed (known : Text → Bool) : Node → Bool
  | .scalar _ _ _ => true
  | .sequence _ _ items => areClosed known items
  | .mapping _ _ entries => areEntriesClosed known entries
  | .reference name => known name

def areClosed (known : Text → Bool) : List Node → Bool
  | [] => true
  | node :: rest => node.isClosed known && areClosed known rest

def areEntriesClosed (known : Text → Bool) : List (Node × Node) → Bool
  | [] => true
  | (key, node) :: rest =>
    key.isClosed known && node.isClosed known && areEntriesClosed known rest

end

namespace Document

/-- The values of the nodes with names that are in no node they have as a part, together with
values known before. They are the same wherever one starts to look. -/
def closedValues (known : List (Text × Value)) :
    List (Text × Node) → Except Fault (List (Text × Value))
  | [] => .ok known
  | (name, node) :: rest => do
    if node.isClosed fun name => (known.lookup name).isSome then
      let follow (_ : List Nat) (name : Text) : Except Fault Value :=
        .ok ((known.lookup name).getD .null)
      closedValues ((name, ← node.value follow []) :: known) rest
    else closedValues known rest

/-- The value of the node with a name inside the collections of a path. No more references follow
each other than there are names, one for each unit of `fuel`. -/
def follow (document : Document) (known : List (Text × Value)) :
    Nat → List Nat → Text → Except Fault Value
  | 0, _, _ => .error .malformed
  | fuel + 1, path, name =>
    match known.lookup name, document.named.lookup name with
    | some value, _ => .ok value
    | none, some node => node.value (document.follow known fuel) path
    | none, none => .error .malformed

/-- The value of a node, with the entries of mappings down to some level unfolded each on its
own. -/
def unfold (document : Document) (follow : List Nat → Text → Except Fault Value) :
    Nat → Node → Except Fault Value
  | 0, node => node.value follow []
  | level + 1, node =>
    match document.resolve node with
    | .mapping _ _ entries => do
      let values ← entries.mapM fun entry => do
        return (← entry.1.keyText, ← document.unfold follow level entry.2)
      return .mapping (Mapping.ofEntries values)
    | other => other.value follow []

/-- The levels of keys down to the settings of a configuration. -/
def settingLevel : Nat := 2

def value (document : Document) (size : Nat) : Except Fault Value := do
  document.check size (← document.meet {} document.root)
  let known ← closedValues [] document.named
  let follow := document.follow known (document.named.length + 1)
  document.unfold follow settingLevel document.root

end Document

def read (text : Text) : Except Fault Value := do
  let stream := TokenStream.ofText text
  match ← Document.ofTokens stream with
  | none => return .null
  | some document => document.value stream.tokens.length

end ClassTidy.Yaml
