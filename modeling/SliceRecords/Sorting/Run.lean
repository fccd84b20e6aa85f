import SliceRecords.Sorting.Search

/-!
# Sorted runs

A list is cut into runs, stretches that are sorted already. A run that is short is filled up with
the values after it, which are put in one by one.
-/

namespace SliceRecords.Sorting

variable {α : Type}

/-- Puts a value into a sorted list, after the values that it does not come before. -/
def insert? (before? : α → α → Option Bool) (sorted : List α) (value : α) : Option (List α) := do
  let place ← countByHalving? (fun other => (! ·) <$> before? value other) false sorted
  return sorted.take place ++ value :: sorted.drop place

/-- How many values go on with a run after its last one: in a run that falls each next value comes
before the one before it, in another one no value does. -/
def continueRun? (before? : α → α → Option Bool) (falling : Bool) (last : α) : List α → Option Nat
  | [] => some 0
  | next :: rest => do
    if (← before? next last) == falling then
      let count ← continueRun? before? falling next rest
      return count + 1
    else return 0

/-- Whether the run that a value starts falls, and how many values it has after that one. -/
def startRun? (before? : α → α → Option Bool) (first : α) : List α → Option (Bool × Nat)
  | [] => some (false, 0)
  | second :: rest => do
    let falling ← before? second first
    let count ← continueRun? before? falling second rest
    return (falling, count + 1)

/-- The least length of the runs of a list: its length over the power of two that brings it
below 64, rounded up. -/
def leastRun (length : Nat) : Nat :=
  let parts := Nat.pow 2 (length.log2 - 5)
  (length + parts - 1) / parts

/-- The sorted runs of a list, in order. All but the last one have a least length. -/
def runs? (before? : α → α → Option Bool) (least : Nat) : List α → Option (List (List α))
  | [] => some []
  | first :: rest => do
    let (falling, count) ← startRun? before? first rest
    let run := first :: rest.take count
    let filler := (rest.drop count).take (least - (count + 1))
    let run ← filler.foldlM (insert? before?) (if falling then run.reverse else run)
    let runs ← runs? before? least (rest.drop (max count (least - 1)))
    return run :: runs
termination_by values => values.length
decreasing_by
  simp only [List.length_drop, List.length_cons]
  omega

end SliceRecords.Sorting
