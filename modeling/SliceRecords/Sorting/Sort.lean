import SliceRecords.Sorting.Merge
import SliceRecords.Sorting.Run

/-!
# Sorting by an order that may be missing

Sorts a list by cutting it into runs and merging neighbours. By a consistent order the sorted list
is unique: values that neither comes before the other stay in the order in which they stand. By an
order that is not consistent, such as one of numbers with values that are not a number, the places
of the values depend on the comparisons that are made, and the definition settles which ones are.
Values that have no order leave the list without a sorted one.
-/

namespace SliceRecords.Sorting

variable {α : Type}

/-- A run that waits for a merge, and the depth of its border to the run after it. -/
structure PendingRun (α : Type) where
  values : List α
  depth : Nat

/-- The depth of the border between two neighbouring runs: how often the whole list is halved until
the middles of the runs lie in different parts. -/
def borderDepth (total start left right : Nat) : Nat :=
  let leftMiddle := 2 * start + left
  let rightMiddle := leftMiddle + left + right
  let part (middle count : Nat) : Nat := middle * Nat.pow 2 count / (2 * total)
  ((List.range (total.log2 + 3)).find? fun count =>
    part leftMiddle count != part rightMiddle count).getD 0

/-- Merges the last run with the ones that wait before it, as long as their borders are deeper than
the border after the last run. -/
def mergeDeeper? (before? : α → α → Option Bool) (depth patience : Nat) (last : List α) :
    List (PendingRun α) → Option (List α × List (PendingRun α) × Nat)
  | [] => some (last, [], patience)
  | pending :: rest => do
    if depth < pending.depth then
      let (last, patience) ← merge? before? patience pending.values last
      mergeDeeper? before? depth patience last rest
    else return (last, pending :: rest, patience)

/-- Merges the last run and the ones before it, nearest first, to one. A run in the middle of three
goes with the shorter one of its neighbours. -/
def mergeAll? (before? : α → α → Option Bool) (patience : Nat) (last : List α) :
    List (List α) → Option (List α)
  | [] => some last
  | [first] => do
    let (merged, _) ← merge? before? patience first last
    return merged
  | second :: third :: rest => do
    if third.length < last.length then
      let (merged, patience) ← merge? before? patience third second
      mergeAll? before? patience last (merged :: rest)
    else
      let (merged, patience) ← merge? before? patience second last
      mergeAll? before? patience merged (third :: rest)
termination_by earlier => earlier.length
decreasing_by all_goals simp only [List.length_cons]; omega

/-- Merges the runs of a list of a given length: a last run, the ones that wait before it, nearest
first, and the ones that follow. -/
def mergeRuns? (before? : α → α → Option Bool) (total patience : Nat) (last : List α)
    (waiting : List (PendingRun α)) : List (List α) → Option (List α)
  | [] => mergeAll? before? patience last (waiting.map PendingRun.values)
  | run :: runs => do
    let start := (waiting.map fun pending => pending.values.length).sum
    let depth := borderDepth total start last.length run.length
    let (last, waiting, patience) ← mergeDeeper? before? depth patience last waiting
    mergeRuns? before? total patience run ({ values := last, depth } :: waiting) runs

/-- Sorts a list, if the values that are compared have an order. -/
def sort? (before? : α → α → Option Bool) (values : List α) : Option (List α) := do
  match ← runs? before? (leastRun values.length) values with
  | [] => return []
  | run :: runs => mergeRuns? before? values.length longLeap run [] runs

example : sort? (fun a b : Nat => some (decide (a < b))) [3, 1, 2, 2] = some [1, 2, 2, 3] := by
  decide +kernel
example :
    sort? (fun a b : Nat => if a = b then none else some (decide (a < b))) [3, 1, 3] = none := by
  decide +kernel

end SliceRecords.Sorting
