import ClassTidy.Number.Basic
import ClassTidy.Text.Quoted

/-!
# Configuration values

What a configuration document can hold: nothing, truth values, numbers, texts, lists, and mappings
with texts as keys. A mapping remembers the order of its keys. A list or a mapping may have itself
as a part, and inside itself it is not shown again.
-/

set_option autoImplicit false

namespace ClassTidy

inductive Shape where
  | list
  | mapping
  deriving DecidableEq

inductive Value where
  | null
  | bool (value : Bool)
  | number (value : Number)
  | text (value : Text)
  | list (items : List Value)
  | mapping (entries : List (Text × Value))
  /-- A value with parts that this one is itself a part of. -/
  | enclosing (shape : Shape)

/-- The entries of a mapping, in order. No key occurs twice. -/
abbrev Mapping := List (Text × Value)

namespace Mapping

def get? (key : Text) : Mapping → Option Value
  | [] => none
  | (present, value) :: rest => if present = key then some value else get? key rest

/-- Give a key a value. A key that is there already keeps its place. -/
def put (key : Text) (value : Value) : Mapping → Mapping
  | [] => [(key, value)]
  | (present, old) :: rest =>
    if present = key then (present, value) :: rest else (present, old) :: put key value rest

/-- A mapping with these entries. Of entries with one key the last counts. -/
def ofEntries (entries : List (Text × Value)) : Mapping :=
  entries.foldl (fun mapping entry => mapping.put entry.1 entry.2) []

end Mapping

namespace Value

/-- Whether a value counts as true: it is not null, false, zero or empty. -/
def isTruthy : Value → Bool
  | null => false
  | bool value => value
  | number value => !value.isZero
  | text value => !value.isEmpty
  | list items => !items.isEmpty
  | mapping entries => !entries.isEmpty
  | enclosing _ => true

def isCompound : Value → Bool
  | list _ => true
  | mapping _ => true
  | enclosing _ => true
  | _ => false

/-- The kind of a value, as messages name it. -/
def kind : Value → String
  | null => "NoneType"
  | bool _ => "bool"
  | number (.int _) => "int"
  | number (.float _) => "float"
  | text _ => "str"
  | list _ => "list"
  | mapping _ => "dict"
  | enclosing .list => "list"
  | enclosing .mapping => "dict"

def isNaN : Value → Bool
  | number (.float value) => value.isNaN
  | _ => false

/-- A truth value or a number, as a number: false is zero and true is one. -/
def number? : Value → Option Number
  | bool value => some (.int (if value then 1 else 0))
  | number value => some value
  | _ => none

/-- Whether two values that are not compound are equal. Truth values and numbers are compared as
numbers. -/
def same : Value → Value → Bool
  | null, null => true
  | text a, text b => a == b
  | a, b =>
    match a.number?, b.number? with
    | some m, some n => m.same n
    | _, _ => false

/-- The values of a list without those equal to an earlier one, or to one of `seen`. -/
def distinctFrom (seen : List Value) : List Value → List Value
  | [] => []
  | value :: rest =>
    if seen.any (·.same value) then distinctFrom seen rest
    else value :: distinctFrom (seen ++ [value]) rest

def distinct (values : List Value) : List Value := distinctFrom [] values

mutual

/-- Whether an integer of more digits than are written is in a value. -/
def isTooLong : Value → Bool
  | number value => value.isTooLong
  | list items => anyTooLong items
  | mapping entries => anyEntryTooLong entries
  | _ => false

def anyTooLong : List Value → Bool
  | [] => false
  | value :: rest => value.isTooLong || anyTooLong rest

def anyEntryTooLong : List (Text × Value) → Bool
  | [] => false
  | (_, value) :: rest => value.isTooLong || anyEntryTooLong rest

end

mutual

def literal : Value → Text
  | null => "None".toList
  | bool true => "True".toList
  | bool false => "False".toList
  | number value => value.written
  | text value => value.quoted
  | list items => '[' :: (literalItems items ++ [']'])
  | mapping entries => '\x7b' :: (literalEntries entries ++ ['\x7d'])
  | enclosing .list => "[...]".toList
  | enclosing .mapping => "\x7b...\x7d".toList

def literalItems : List Value → Text
  | [] => []
  | [only] => only.literal
  | value :: rest => value.literal ++ ',' :: ' ' :: literalItems rest

def literalEntries : List (Text × Value) → Text
  | [] => []
  | [(key, only)] => key.quoted ++ ':' :: ' ' :: only.literal
  | (key, value) :: rest =>
    key.quoted ++ ':' :: ' ' :: (value.literal ++ ',' :: ' ' :: literalEntries rest)

end

end Value

end ClassTidy
