import SliceRecords.Sorting.Search

/-!
# Merging sorted runs

Two neighbouring runs become one. Values that neither comes before the other keep their places,
those of the left run first. A merge goes value by value until one side has won a number of times
without a break; then it leaps over the values of a side that come next, as long as the leaps are
worth it. The number, the patience of the merge, goes down with leaps that are worth it and up with
ones that are not, and the next merge starts with what this one leaves.
-/

namespace SliceRecords.Sorting

variable {α : Type}

/-- How a merge goes on. Of its two sides, the kept one ends the merge when it is down to its last
value, and the other one when it is empty. -/
inductive Pace where
  /-- Value by value, after a number of values from the one side or the other without a break. -/
  | single (keptRun otherRun : Nat)
  /-- By the first or the second leap of a pair, after a first one that was long or not. -/
  | leap (second afterLong : Bool)

/-- The number of values from which on a leap is long. -/
def longLeap : Nat := 7

/-- How a merge goes on after a leap over a number of values, and with how much
patience. A pair without a long leap goes back to single values. A merge that is settled
leaves its patience as it is. -/
def Pace.afterLeap (second afterLong settled : Bool) (count patience : Nat) : Pace × Nat :=
  let long := afterLong || decide (longLeap ≤ count)
  if !second then (.leap true long, patience)
  else if settled then (.single 0 0, patience)
  else if long then (.leap false false, if patience > 1 then patience - 1 else patience)
  else (.single 0 0, patience + 1)

/-- Merges what is left of two sides, both read from the same end, after the values that are done,
last one first. The first leap of a pair goes over the values of the left run. The result is the
merged list and the patience that is left. -/
def mergeFrom? (otherFirst? : α → α → Option Bool) (fromEnd : Bool) (pace : Pace) (patience : Nat)
    (done kept other : List α) : Option (List α × Nat) :=
  match kept, other with
  | x :: x' :: xs, y :: ys =>
    match pace with
    | .single keptRun otherRun => do
      if ← otherFirst? y x then
        let pace := if otherRun + 1 < patience then .single 0 (otherRun + 1) else .leap false false
        mergeFrom? otherFirst? fromEnd pace patience (y :: done) (x :: x' :: xs) ys
      else
        let pace := if keptRun + 1 < patience then .single (keptRun + 1) 0 else .leap false false
        mergeFrom? otherFirst? fromEnd pace patience (x :: done) (x' :: xs) (y :: ys)
    | .leap second afterLong => do
      if second == fromEnd then
        let count ← countByLeaps? (fun value => (! ·) <$> otherFirst? y value) fromEnd
          (x :: x' :: xs)
        let done := ((x :: x' :: xs).take count).reverse ++ done
        match _h : (x :: x' :: xs).drop count with
        | next :: next' :: rest =>
          let (pace, patience) := Pace.afterLeap second afterLong ys.isEmpty count patience
          mergeFrom? otherFirst? fromEnd pace patience (y :: done) (next :: next' :: rest) ys
        | rest => return (done.reverse ++ (y :: ys) ++ rest, patience)
      else
        let count ← countByLeaps? (fun value => otherFirst? value x) fromEnd (y :: ys)
        let done := ((y :: ys).take count).reverse ++ done
        match _h : (y :: ys).drop count with
        | next :: rest =>
          let (pace, patience) := Pace.afterLeap second afterLong xs.isEmpty count patience
          mergeFrom? otherFirst? fromEnd pace patience (x :: done) (x' :: xs) (next :: rest)
        | [] => return (done.reverse ++ (x :: x' :: xs), patience)
  | kept, other => some (done.reverse ++ other ++ kept, patience)
termination_by kept.length + other.length
decreasing_by
  all_goals
    try
      have hlen := congrArg List.length _h
      simp only [List.length_drop, List.length_cons] at hlen
    simp only [List.length_cons]
    omega

/-- Merges two runs of which the first value of the right one and the last value of the
left one are known to change places. The shorter run is the kept side, and the longer one
gives the first value. -/
def mergeOverlap? (before? : α → α → Option Bool) (patience : Nat) (left right : List α) :
    Option (List α × Nat) :=
  if left.length ≤ right.length then
    mergeFrom? before? false (.single 0 0) patience (right.take 1) left (right.drop 1)
  else do
    let other := left.reverse
    let (merged, patience) ←
      mergeFrom? (fun y x => before? x y) true (.single 0 0) patience (other.take 1) right.reverse
        (other.drop 1)
    return (merged.reverse, patience)

/-- Merges two neighbouring runs. The values of the left run that come first and the values of the
right run that come last stay where they are. -/
def merge? (before? : α → α → Option Bool) (patience : Nat) (left right : List α) :
    Option (List α × Nat) :=
  match right with
  | [] => some (left, patience)
  | first :: _ => do
    let start ← countByLeaps? (fun value => (! ·) <$> before? first value) false left
    match (left.drop start).getLast? with
    | none => return (left ++ right, patience)
    | some last => do
      let rest ← countByLeaps? (fun value => (! ·) <$> before? value last) true right.reverse
      let stop := right.length - rest
      let (merged, patience) ← mergeOverlap? before? patience (left.drop start) (right.take stop)
      return (left.take start ++ merged ++ right.drop stop, patience)

end SliceRecords.Sorting
