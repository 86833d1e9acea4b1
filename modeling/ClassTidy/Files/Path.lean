import ClassTidy.Text.Basic

/-!
# Paths

A path is a sequence of parts behind an optional root. Empty parts and parts that are a single dot
lead nowhere and are left out.
-/

set_option autoImplicit false

namespace ClassTidy.Path

/-- Cut a text at every slash. -/
def pieces : Text → List Text
  | [] => [[]]
  | c :: rest =>
    if c = '/' then [] :: pieces rest
    else
      match pieces rest with
      | [] => [[c]]
      | piece :: others => (c :: piece) :: others

def parts (path : Text) : List Text := (pieces path).filter fun part => part ≠ [] ∧ part ≠ ['.']

/-- The root of a path: none for a relative path. Exactly two slashes are a root of their own. -/
def root : Text → Text
  | '/' :: '/' :: '/' :: _ => ['/']
  | '/' :: '/' :: _ => ['/', '/']
  | '/' :: _ => ['/']
  | _ => []

def joinParts : List Text → Text
  | [] => []
  | [only] => only
  | part :: others => part ++ '/' :: joinParts others

/-- The path in its plain form. A path without root and parts is a dot. -/
def plain (path : Text) : Text :=
  let shown := root path ++ joinParts (parts path)
  if shown.isEmpty then ['.'] else shown

end ClassTidy.Path
