import SliceRecords.Document.Load
import Mathlib.Data.List.Basic

/-!
# Passing the document grammar

When the checks of the document grammar find nothing. A rule on members is vacuous for a value that
is no object, and so is a rule on items for one that is no array; the lemmas say what is left of
each rule. Main statement: `checkType_eq`, which opens the recursive check of a type.
-/

namespace SliceRecords.Document

namespace Check

variable {check : Check} {path : Path} {json : Json}

/-- Rules find nothing if none of them does. -/
theorem all_eq_nil_iff {checks : List Check} :
    all checks path json = [] ↔ ∀ check ∈ checks, check path json = [] := by
  simp [all]

/-- A type check passes exactly if the value has one of the types. -/
theorem type_eq_nil_iff {expected : List ValueType} :
    type expected path json = [] ↔ ∃ valueType ∈ expected, valueType.holds json = true := by
  simp [type]

/-- A choice passes exactly for the texts that may be chosen. -/
theorem oneOf_eq_nil_iff {choices : List String} :
    oneOf choices path json = [] ↔ ∃ text ∈ choices, json = .string text := by
  cases json <;> simp [oneOf]

/-- Members are required of an object alone. -/
theorem required_eq_nil_iff {names : List String} :
    required names path json = [] ↔
      ∀ members, json = .object members → ∀ name ∈ names, (json.get? name).isSome = true := by
  cases json <;> simp [required, Json.get?, Option.isSome_iff_ne_none]

/-- A check of a member passes exactly if the member is missing or passes it. -/
theorem member_eq_nil_iff {name : String} :
    member name check path json = [] ↔
      ∀ value, json.get? name = some value → check (path ++ [name]) value = [] := by
  unfold member
  cases json.get? name <;> simp

/-- A member that is there passes its check. -/
theorem of_member_eq_nil {name : String} {value : Json} (h : member name check path json = [])
    (hvalue : json.get? name = some value) : check (path ++ [name]) value = [] :=
  member_eq_nil_iff.mp h value hvalue

/-- If a check of items finds nothing, each item passes it at its own place. -/
theorem itemsFrom_eq_nil {index : Nat} {items : List Json}
    (h : itemsFrom check path index items = []) :
    ∀ item ∈ items, ∃ place, check place item = [] := by
  induction items generalizing index with
  | nil => simp
  | cons item rest ih =>
    rw [itemsFrom, List.append_eq_nil_iff] at h
    intro other hother
    rcases List.mem_cons.mp hother with rfl | hother
    · exact ⟨_, h.1⟩
    · exact ih h.2 other hother

/-- The items of a member that is a list of checked items pass the check, wherever they stand. -/
theorem items_of_member {name : String} {expected : List ValueType}
    (h : member name (all [type expected, items check]) path json = []) :
    ∀ item ∈ ((json.get? name).getD .null).items, ∃ place, check place item = [] := by
  cases hvalue : json.get? name with
  | none => simp [Json.items]
  | some value =>
    have hlist := all_eq_nil_iff.mp (of_member_eq_nil h hvalue) (items check) (by simp)
    exact itemsFrom_eq_nil hlist

end Check

open Check

/-- A kind rule finds nothing if the kind is another one or the rule finds nothing. -/
theorem whenKind_eq_nil_iff {kinds : List TypeKind} {check : Check} {path : Path} {json : Json} :
    whenKind kinds check path json = [] ↔ (kindMayBe kinds json = true → check path json = []) := by
  unfold whenKind
  cases kindMayBe kinds json <;> simp

/-- The check of a type is one of its own members and of its parts. -/
theorem checkType_eq (path : Path) (json : Json) :
    checkType path json =
      all [type [.object], typeAttributes, member "element" checkType, member "key" checkType,
        member "value" checkType, required ["kind"],
        noOthers ["kind", "name", "optional", "element", "key", "value"], kindRules] path json := by
  rw [checkType]
  simp only [all, List.flatMap_cons, List.flatMap_nil, List.append_nil, List.append_assoc, member]
  split <;> split <;> split <;> simp_all

/-- A value without violations passes the check of documents. -/
theorem violations_eq_nil_iff {json : Json} :
    violations json = [] ↔ checkDocument [] json = [] := by
  simp [violations, report, ← List.length_eq_zero_iff]

end SliceRecords.Document
