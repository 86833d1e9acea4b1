import ClassTidy.Sorting.Merge

/-!
# Adaptive merge sort

The list is read as a sequence of runs that are sorted already. A run that is too short is
lengthened by inserting the elements that follow it. Neighbouring runs are merged in an order that
keeps the merges balanced: the boundary between two runs has a *power*, the first binary digit in
which the middles of the two runs differ, and boundaries of higher power are merged first.

Only `lt` is ever asked, and it need not be an order: the sort always returns a rearrangement of
the list.
-/

set_option autoImplicit false

namespace ClassTidy.Sorting

variable {α : Type}

/-- The longest start of a list in which each element is linked to the one before it, given the
element before the first, and the rest of the list. -/
def chain (linked : α → α → Bool) (previous : α) : List α → List α × List α
  | [] => ([], [])
  | item :: rest =>
    if linked previous item then
      let next := chain linked item rest
      (item :: next.1, next.2)
    else ([], item :: rest)

@[simp] theorem chain_append (linked : α → α → Bool) (previous : α) (items : List α) :
    (chain linked previous items).1 ++ (chain linked previous items).2 = items := by
  fun_induction chain linked previous items with
  | case1 => rfl
  | case2 previous item rest holds next ih => simpa [next] using ih
  | case3 => rfl

/-- The run at the start of a list, sorted, and the rest of the list. A run is as long as it can
be. It either never goes down, or goes down at every step and is turned round. -/
def nextRun (lt : α → α → Bool) : List α → List α × List α
  | [] => ([], [])
  | [only] => ([only], [])
  | first :: second :: rest =>
    if lt second first then
      let run := chain (fun previous item => lt item previous) second rest
      ((first :: second :: run.1).reverse, run.2)
    else
      let run := chain (fun previous item => !lt item previous) second rest
      (first :: second :: run.1, run.2)

theorem length_nextRun (lt : α → α → Bool) (first : α) (rest : List α) :
    (nextRun lt (first :: rest)).2.length ≤ rest.length := by
  match rest with
  | [] => simp [nextRun]
  | second :: rest =>
    have sizes (linked : α → α → Bool) := congrArg List.length (chain_append linked second rest)
    simp only [List.length_append] at sizes
    simp only [nextRun]
    split
    · have := sizes fun previous item => lt item previous
      simp only [List.length_cons]
      omega
    · have := sizes fun previous item => !lt item previous
      simp only [List.length_cons]
      omega

/-- Insert an element into a sorted run, after all elements that it is not less than. -/
def insert (lt : α → α → Bool) (run : List α) (item : α) : List α :=
  let cut := bisect (fun other => !lt item other) run
  cut.1 ++ item :: cut.2

/-- The least length of a run, for a list of `n` elements: `n` itself below 64, and otherwise the
six highest binary digits of `n`, and one more if any of the digits below is set. -/
def leastRun (n : Nat) (carry : Nat) : Nat :=
  if n < 64 then n + carry else leastRun (n / 2) (max carry (n % 2))

/-- The power of the boundary between a run that starts at `start` and the run after it, in a list
of `total` elements: the first binary digit in which the middles of the runs differ, as fractions
of the list. -/
def boundaryPower (start first second total : Nat) : Nat :=
  let middle := 2 * start + first
  let middle' := middle + first + second
  1 + ((List.range total).find? fun k =>
    (middle <<< k) / total != (middle' <<< k) / total).getD total

/-- A run that waits to be merged, with the power of the boundary after it. -/
structure Pending (α : Type) where
  run : List α
  power : Nat

/-- Merge the last two runs while the boundary between them has a higher power than the one that
follows. The runs are given from the last to the first. -/
def settle (lt : α → α → Bool) (power patience : Nat) (pending : List (Pending α)) :
    List (Pending α) × Nat :=
  match pending with
  | last :: before :: others =>
    if before.power > power then
      let merged := mergeRuns lt patience before.run last.run
      settle lt power merged.2 (⟨merged.1, before.power⟩ :: others)
    else (last :: before :: others, patience)
  | short => (short, patience)
termination_by pending.length

/-- Merge all runs that wait into one. Of the three last runs the first two are merged if the first
is shorter than the third. -/
def mergeAll (lt : α → α → Bool) (patience : Nat) (pending : List (Pending α)) : List α :=
  match pending with
  | [] => []
  | [only] => only.run
  | [last, before] => (mergeRuns lt patience before.run last.run).1
  | last :: before :: first :: others =>
    if first.run.length < last.run.length then
      let merged := mergeRuns lt patience first.run before.run
      mergeAll lt merged.2 (last :: ⟨merged.1, first.power⟩ :: others)
    else
      let merged := mergeRuns lt patience before.run last.run
      mergeAll lt merged.2 (⟨merged.1, before.power⟩ :: first :: others)
termination_by pending.length

/-- Give the last run that waits the power of the boundary after it, once all boundaries of a
higher power are gone. -/
def closeLast (lt : α → α → Bool) (total nextLength patience : Nat)
    (pending : List (Pending α)) : List (Pending α) × Nat :=
  match pending with
  | [] => ([], patience)
  | last :: others =>
    let start := (others.flatMap (·.run)).length
    let power := boundaryPower start last.run.length nextLength total
    let settled := settle lt power patience (last :: others)
    match settled.1 with
    | [] => settled
    | last :: others => (⟨last.run, power⟩ :: others, settled.2)

/-- Cut a list into runs, merging on the way, and merge what is left at the end. -/
def sortRuns (lt : α → α → Bool) (total least patience : Nat) (pending : List (Pending α))
    (items : List α) : List α :=
  match items with
  | [] => mergeAll lt patience pending
  | first :: rest =>
    let natural := nextRun lt (first :: rest)
    let wanted := least - natural.1.length
    let run := (natural.2.take wanted).foldl (insert lt) natural.1
    let closed := closeLast lt total run.length patience pending
    sortRuns lt total least closed.2 (⟨run, 0⟩ :: closed.1) (natural.2.drop wanted)
termination_by items.length
decreasing_by
  have shorter := length_nextRun lt first rest
  simp only [List.length_drop, List.length_cons]
  omega

def initialPatience : Nat := 7

def adaptiveSort (lt : α → α → Bool) (items : List α) : List α :=
  sortRuns lt items.length (leastRun items.length 0) initialPatience [] items

end ClassTidy.Sorting
