import ClassTidy.Config.Fault

/-!
# Layering configurations

An update is laid over a configuration. Mappings are laid over mappings key by key, a canonical
order is added to the one below it, and any other value replaces what it is laid over.
-/

set_option autoImplicit false

namespace ClassTidy

def classOrderKey : Text := "class_order".toList

/-- Add the members of one canonical order to another. Of equal members the first stays. -/
def addOrder (members added : List Value) : Except Fault Value :=
  if (members ++ added).any (·.isCompound) then .error .compoundMember
  else .ok (.list (Value.distinct (members ++ added)))

mutual

def Value.layer (key : Text) (old : Option Value) : Value → Except Fault Value
  | .mapping update =>
    match old with
    | some (.mapping entries) => Value.mapping <$> Mapping.layer entries update
    | _ => .ok (.mapping update)
  | .list items =>
    match old with
    | some (.list members) => if key = classOrderKey then addOrder members items else .ok (.list items)
    | _ => .ok (.list items)
  | value => .ok value
termination_by structural update => update

/-- A mapping with the entries of an update laid over it, one after the other. -/
def Mapping.layer (base : Mapping) : List (Text × Value) → Except Fault Mapping
  | [] => .ok base
  | (key, value) :: rest => do
    let layered ← Value.layer key (Mapping.get? key base) value
    Mapping.layer (Mapping.put key layered base) rest
termination_by structural update => update

end

end ClassTidy
