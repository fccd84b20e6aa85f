import SliceRecords.Json.Order
import SliceRecords.Sorting.Sort

/-!
# Repeated values

Whether a list repeats a value. A list whose values have an order is sorted first, and then only
neighbours are compared; a list with values that have none is searched pair by pair. The two ways
agree unless the order does not tell values apart that differ, such as `[1]` and `[true]`, or is not
consistent, as with what is not a number. Then the places at which sorting puts the values matter.
Texts are told apart by their order, so a list of texts is searched pair by pair too.
-/

namespace SliceRecords.Document

/-- Whether two values that stand side by side are the same. -/
def hasSameNeighbours : List Json → Bool
  | first :: second :: rest => first.same second || hasSameNeighbours (second :: rest)
  | _ => false

/-- Whether any two values are the same. -/
def hasSamePair : List Json → Bool
  | [] => false
  | value :: rest => rest.any value.same || hasSamePair rest

/-- Whether a list counts as repeating a value. -/
def repeats (items : List Json) : Bool :=
  if items.all (fun item => item.string?.isSome) then hasSamePair items
  else
    match Sorting.sort? Json.before? items with
    | some sorted => hasSameNeighbours sorted
    | none => hasSamePair items

end SliceRecords.Document
