import SliceRecords.Number.Basic

/-!
# JSON values

The values of a JSON document. The members of an object keep the order in which their names first
occur, because a default value shows that order when it is printed. Two values are the same if they
agree up to the order of members and the kind of numbers.
-/

namespace SliceRecords

/-- A JSON value. -/
inductive Json where
  | null
  | bool (value : Bool)
  | number (value : Number)
  | string (value : String)
  | array (items : List Json)
  | object (members : List (String × Json))
  deriving Repr, Inhabited

namespace Json

/-- The members of an object. -/
abbrev Members := List (String × Json)

/-- The value of a member. -/
def Members.get? (members : Members) (name : String) : Option Json :=
  (members.find? fun member => member.1 = name).map Prod.snd

/-- Sets a member: a known name keeps its place and takes the new value, a
new one goes to the end. -/
def Members.insert (members : Members) (name : String) (value : Json) : Members :=
  match members with
  | [] => [(name, value)]
  | (other, old) :: rest =>
    if other = name then (name, value) :: rest else (other, old) :: Members.insert rest name value

/-- The members that stand in a text, where the last of several equal names wins. -/
def Members.ofPairs (pairs : List (String × Json)) : Members :=
  pairs.foldl (fun members pair => members.insert pair.1 pair.2) []

/-- The names of the members in order. -/
def Members.names (members : Members) : List String :=
  members.map Prod.fst

/-- The member of a value; what is no object has none. -/
def get? : Json → String → Option Json
  | object members, name => Members.get? members name
  | _, _ => none

/-- The member of a value, where a member that is `null` counts as absent. -/
def getSome? (json : Json) (name : String) : Option Json :=
  match json.get? name with
  | some null => none
  | member => member

/-- The text of a value that is a string. -/
def string? : Json → Option String
  | string value => some value
  | _ => none

/-- The truth value of a value that is one. -/
def bool? : Json → Option Bool
  | bool value => some value
  | _ => none

/-- The number of a value that is one. -/
def number? : Json → Option Number
  | number value => some value
  | _ => none

/-- The items of an array; every other value has none. -/
def items : Json → List Json
  | array items => items
  | _ => []

mutual

/-- Equality of JSON values: numbers compare by value, truth values are no numbers, and the order of
members does not matter. -/
def same : Json → Json → Bool
  | null, null => true
  | bool a, bool b => a == b
  | number a, number b => a.same b
  | string a, string b => a == b
  | array xs, array ys => sameItems xs ys
  | object xs, object ys => xs.length == ys.length && sameMembers xs ys
  | _, _ => false

/-- Arrays agree item by item. -/
def sameItems : List Json → List Json → Bool
  | [], [] => true
  | x :: xs, y :: ys => same x y && sameItems xs ys
  | _, _ => false

/-- Every member of the first object has an equal one in the second. -/
def sameMembers : List (String × Json) → List (String × Json) → Bool
  | [], _ => true
  | (name, x) :: xs, ys =>
    (match Members.get? ys name with
      | some y => same x y
      | none => false) && sameMembers xs ys

end

/-- A member is smaller than the list of members it stands in. -/
theorem Members.sizeOf_lt_of_get? {members : Members} {name : String} {value : Json}
    (h : members.get? name = some value) : sizeOf value < sizeOf members := by
  obtain ⟨member, hfind, rfl⟩ := Option.map_eq_some_iff.mp h
  have hmem := List.sizeOf_lt_of_mem (List.mem_of_find?_eq_some hfind)
  obtain ⟨key, value⟩ := member
  simp only [Prod.mk.sizeOf_spec] at hmem ⊢
  omega

/-- A member of a value is smaller than the value. -/
theorem sizeOf_lt_of_get? {json value : Json} {name : String}
    (h : json.get? name = some value) : sizeOf value < sizeOf json := by
  cases json with
  | object members =>
    have := Members.sizeOf_lt_of_get? h
    simp only [object.sizeOf_spec]
    omega
  | _ => simp [get?] at h

end Json

end SliceRecords
