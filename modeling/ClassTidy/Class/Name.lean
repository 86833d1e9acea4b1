import ClassTidy.Text.Basic

/-!
# Class names

A class name is a base name behind any number of variants: `lg:hover:bg-red-500` has the base name
`bg-red-500` and two variants. A colon separates variants unless it stands inside square brackets.
-/

set_option autoImplicit false

namespace ClassTidy

abbrev ClassName := Text

namespace ClassName

/-- The bracket depth behind a character. A closing bracket that closes nothing has no effect. -/
def depthAfter (depth : Nat) (c : Char) : Nat :=
  if c = '[' then depth + 1 else if c = ']' then depth - 1 else depth

/-- Whether a character at this depth separates a variant from what follows. -/
def separates (depth : Nat) (c : Char) : Bool := c == ':' && depth == 0

/-- The offsets of the separating colons in a text that starts at `offset` and at `depth`. -/
def separatorsFrom (depth offset : Nat) : Text → List Nat
  | [] => []
  | c :: rest =>
    let later := separatorsFrom (depthAfter depth c) (offset + 1) rest
    if separates depth c then offset :: later else later

def separators (name : ClassName) : List Nat := separatorsFrom 0 0 name

def variants (name : ClassName) : Nat := (separators name).length

/-- The part behind the last variant. -/
def base (name : ClassName) : Text :=
  match (separators name).getLast? with
  | none => name
  | some offset => name.drop (offset + 1)

end ClassName

end ClassTidy
