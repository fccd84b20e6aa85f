import SliceRecords.Json.Basic

/-!
# The order of JSON values

Which of two values comes first. Numbers are ordered by value, texts by code points, and arrays by
their first items that differ; nothing else has an order. A truth value stands on its own outside of
arrays, while inside of an array it counts as the number 0 or 1.
-/

namespace SliceRecords.Json

mutual

/-- A value with the numbers 0 and 1 for the truth values in it. -/
def numeric : Json → Json
  | bool value => number (.integer (if value then 1 else 0))
  | array items => array (numericItems items)
  | object members => object (numericMembers members)
  | json => json

/-- Items with numbers for truth values. -/
def numericItems : List Json → List Json
  | [] => []
  | item :: rest => numeric item :: numericItems rest

/-- Members with numbers for truth values. -/
def numericMembers : List (String × Json) → List (String × Json)
  | [] => []
  | (name, value) :: rest => (name, numeric value) :: numericMembers rest

end

mutual

/-- Whether a value without truth values is less than another one, if the two have an order. -/
def lt? : Json → Json → Option Bool
  | number a, number b => some (a.lt b)
  | string a, string b => some (a < b)
  | array xs, array ys => ltItems? xs ys
  | _, _ => none

/-- Whether a list of items is less than another one: the first items that differ decide, and a list
is less than one that goes on after it. -/
def ltItems? : List Json → List Json → Option Bool
  | [], ys => some !ys.isEmpty
  | _ :: _, [] => some false
  | x :: xs, y :: ys => if x.same y then ltItems? xs ys else lt? x y

end

/-- Whether an item of a list comes before another one, if the two have an order. -/
def before? : Json → Json → Option Bool
  | bool _, _ => none
  | _, bool _ => none
  | a, b => lt? a.numeric b.numeric

end SliceRecords.Json
