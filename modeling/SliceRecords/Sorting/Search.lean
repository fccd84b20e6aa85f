/-!
# Searching a sorted list

How many values at the front of a list pass a test, when the values that pass stand before the
ones that do not. A list whose order is inconsistent may mix the two. Then the answer depends
on which values are looked at, so each search says which they are. A test that has no answer
leaves the search without one.

A list may be a stretch of values read from its end. A search of it looks at the same values as a
search of the stretch itself.
-/

namespace SliceRecords.Sorting

variable {α : Type}

/-- The number of values at the front that pass a test, found by halving the list. Of two values in
the middle the later one of the stretch is looked at. -/
def countByHalving? (passes? : α → Option Bool) (fromEnd : Bool) (values : List α) : Option Nat :=
  let middle := if fromEnd then (values.length - 1) / 2 else values.length / 2
  match _h : values.drop middle with
  | [] => some 0
  | pivot :: after => do
    if ← passes? pivot then
      let count ← countByHalving? passes? fromEnd after
      return middle + 1 + count
    else countByHalving? passes? fromEnd (values.take middle)
termination_by values.length
decreasing_by
  all_goals
    have hlen := congrArg List.length _h
    simp only [List.length_drop, List.length_cons] at hlen
    try simp only [List.length_take]
    omega

/-- The number of values at the front that pass a test, found by leaps that double, from one of a
given width on. The part of the list in which a leap ends too far is halved. -/
def countByWideningLeaps? (passes? : α → Option Bool) (fromEnd : Bool) (width : Nat)
    (values : List α) : Option Nat :=
  match _h : values.drop width with
  | [] => countByHalving? passes? fromEnd values
  | next :: after => do
    if ← passes? next then
      let count ← countByWideningLeaps? passes? fromEnd (2 * width + 1) after
      return width + 1 + count
    else countByHalving? passes? fromEnd (values.take width)
termination_by values.length
decreasing_by
  have hlen := congrArg List.length _h
  simp only [List.length_drop, List.length_cons] at hlen
  omega

/-- The number of values at the front that pass a test, found by leaps from the first value on. It
is fast where few values pass. -/
def countByLeaps? (passes? : α → Option Bool) (fromEnd : Bool) : List α → Option Nat
  | [] => some 0
  | first :: rest => do
    if ← passes? first then
      let count ← countByWideningLeaps? passes? fromEnd 0 rest
      return count + 1
    else return 0

end SliceRecords.Sorting
