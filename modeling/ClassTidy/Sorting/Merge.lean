import ClassTidy.Sorting.Cut

/-!
# Merging two sorted lists

The lists are merged one element at a time. When one of them has given as many elements in a row
as the current *patience* asks for, the merge gallops: it moves whole stretches at once, as long as
that pays. Patience grows when galloping did not pay, shrinks while it does, and is carried from
one merge to the next. On an order this changes the work and not the result; on a comparison
that is no order it decides the result, so it is part of what the functions say.
-/

set_option autoImplicit false

namespace ClassTidy.Sorting

variable {α : Type}

/-- How a merge goes on: one element at a time, after so many in a row from either list; one at a
time after galloping; galloping; or galloping again. -/
inductive Pace where
  | walk (leftWins rightWins : Nat)
  | slowDown
  | gallop
  | gallopOn

def Pace.patience (pace : Pace) (patience : Nat) : Nat :=
  match pace with
  | .walk _ _ => patience
  | .slowDown => patience + 1
  | .gallop => patience
  | .gallopOn => if patience > 1 then patience - 1 else patience

def Pace.wins? : Pace → Option (Nat × Nat)
  | .walk leftWins rightWins => some (leftWins, rightWins)
  | .slowDown => some (0, 0)
  | .gallop => none
  | .gallopOn => none

/-- Galloping goes on while a stretch of this length was moved. -/
def worthwhile : Nat := 7

/-- The pace after a round of galloping that moved stretches of the given lengths. -/
def Pace.afterGallop (leftMoved rightMoved : Nat) : Pace :=
  if leftMoved ≥ worthwhile || rightMoved ≥ worthwhile then .gallopOn else .slowDown

def Pace.afterLeft (patience leftWins : Nat) : Pace :=
  if leftWins + 1 ≥ patience then .gallop else .walk (leftWins + 1) 0

def Pace.afterRight (patience rightWins : Nat) : Pace :=
  if rightWins + 1 ≥ patience then .gallop else .walk 0 (rightWins + 1)

/-- Merge from the start. The last element of the left list is taken to go after all of the right
list. The merged list is returned with the patience left over. -/
def mergeLow (lt : α → α → Bool) (pace : Pace) (patience : Nat) (left right : List α) :
    List α × Nat :=
  match left, right with
  | left, [] => (left, patience)
  | [], right => (right, patience)
  | [last], right => (right ++ [last], patience)
  | x :: x' :: left, y :: right =>
    let patience := pace.patience patience
    match pace.wins? with
    | some (leftWins, rightWins) =>
      if lt y x then
        let merged := mergeLow lt (.afterRight patience rightWins) patience (x :: x' :: left) right
        (y :: merged.1, merged.2)
      else
        let merged := mergeLow lt (.afterLeft patience leftWins) patience (x' :: left) (y :: right)
        (x :: merged.1, merged.2)
    | none =>
      let moved := gallop (fun item => !lt y item) (x :: x' :: left)
      match _found : moved.2 with
      | x₁ :: x₂ :: left₂ =>
        let moved' := gallop (fun item => lt item x₁) right
        let merged := mergeLow lt (.afterGallop moved.1.length moved'.1.length) patience
          (x₂ :: left₂) moved'.2
        (moved.1 ++ y :: (moved'.1 ++ x₁ :: merged.1), merged.2)
      | short => (moved.1 ++ y :: (right ++ short), patience)
termination_by left.length + right.length
decreasing_by
  · simp +arith
  · simp +arith
  · have leftSize := congrArg List.length (gallop_append (fun item => !lt y item) (x :: x' :: left))
    have rightSize := congrArg List.length (gallop_append (fun item => lt item x₁) right)
    simp only [moved] at *
    simp only [List.length_append, List.length_cons, _found] at *
    omega

/-- Merge from the end. The lists are given, and the merged list is returned, from the end to the
start. The first element of the right list is taken to go before all of the left list. -/
def mergeHigh (lt : α → α → Bool) (pace : Pace) (patience : Nat) (left right : List α) :
    List α × Nat :=
  match left, right with
  | [], right => (right, patience)
  | left, [] => (left, patience)
  | left, [last] => (left ++ [last], patience)
  | x :: left, y :: y' :: right =>
    let patience := pace.patience patience
    match pace.wins? with
    | some (leftWins, rightWins) =>
      if lt y x then
        let merged := mergeHigh lt (.afterLeft patience leftWins) patience left (y :: y' :: right)
        (x :: merged.1, merged.2)
      else
        let merged := mergeHigh lt (.afterRight patience rightWins) patience (x :: left)
          (y' :: right)
        (y :: merged.1, merged.2)
    | none =>
      let moved := gallopBack (fun item => !lt y item) (x :: left)
      match _found : moved.2 with
      | [] => (moved.1 ++ y :: y' :: right, patience)
      | x₁ :: left₂ =>
        if right.isEmpty then (moved.1 ++ y :: x₁ :: (left₂ ++ [y']), patience)
        else
          let moved' := gallopBack (fun item => lt item x₁) (y' :: right)
          match _found' : moved'.2 with
          | y₁ :: y₂ :: right₂ =>
            let merged := mergeHigh lt (.afterGallop moved.1.length moved'.1.length) patience
              left₂ (y₁ :: y₂ :: right₂)
            (moved.1 ++ y :: (moved'.1 ++ x₁ :: merged.1), merged.2)
          | short => (moved.1 ++ y :: (moved'.1 ++ x₁ :: (left₂ ++ short)), patience)
termination_by left.length + right.length
decreasing_by
  · simp +arith
  · simp +arith
  · have leftSize := congrArg List.length
      (gallopBack_append (fun item => !lt y item) (x :: left))
    have rightSize := congrArg List.length
      (gallopBack_append (fun item => lt item x₁) (y' :: right))
    simp only [moved, moved'] at *
    simp only [List.length_append, List.length_cons, _found, _found'] at *
    omega

/-- Merge two neighbouring sorted lists. What already is in place at the start of the left and at
the end of the right list is left there; the shorter rest decides from which end to merge. -/
def mergeRuns (lt : α → α → Bool) (patience : Nat) (left right : List α) : List α × Nat :=
  match right with
  | [] => (left, patience)
  | first :: _ =>
    let settled := gallop (fun item => !lt first item) left
    match settled.2.reverse with
    | [] => (left ++ right, patience)
    | last :: backwards =>
      let unsettled := gallopBack (fun item => lt item last) right.reverse
      match unsettled.2.reverse with
      | [] => (left ++ right, patience)
      | lowest :: upward =>
        if settled.2.length ≤ unsettled.2.length then
          let merged := mergeLow lt (.walk 0 0) patience settled.2 upward
          (settled.1 ++ lowest :: (merged.1 ++ unsettled.1.reverse), merged.2)
        else
          let merged := mergeHigh lt (.walk 0 0) patience backwards unsettled.2
          (settled.1 ++ (last :: merged.1).reverse ++ unsettled.1.reverse, merged.2)

end ClassTidy.Sorting
