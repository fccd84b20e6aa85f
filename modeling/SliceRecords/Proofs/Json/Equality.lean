import Mathlib.Data.List.Forall2
import Mathlib.Data.List.Sort
import SliceRecords.Json.Printer

/-!
# Equality up to the order of members

A value with the members of every object sorted by name stands for all values that differ from it in
the order of members alone, and it prints as they do. It gives one notion of equality of values, and
comparing numbers by value another one; what they have in common is `IsEquality`. Main statements:
`printed_sorted`, `isEquality_sorted` and `isEquality_same`.
-/

open scoped List

namespace SliceRecords.Json

/-- The order of members by name. -/
def memberAtMost (a b : String × Json) : Bool :=
  !(b.1 < a.1 : Bool)

mutual

/-- A value with the members of every object in it sorted by name. -/
def sorted : Json → Json
  | array items => array (sortedItems items)
  | object members => object ((sortedMembers members).mergeSort memberAtMost)
  | json => json

/-- Items with sorted members. -/
def sortedItems : List Json → List Json
  | [] => []
  | item :: rest => sorted item :: sortedItems rest

/-- Members with sorted values, in their own order. -/
def sortedMembers : List (String × Json) → List (String × Json)
  | [] => []
  | (name, value) :: rest => (name, sorted value) :: sortedMembers rest

end

/-- The items of an array are sorted one by one. -/
theorem sortedItems_eq_map (items : List Json) : sortedItems items = items.map sorted := by
  induction items with
  | nil => rfl
  | cons item rest ih => rw [sortedItems, ih, List.map_cons]

/-- The values of members are sorted one by one, under their names. -/
theorem sortedMembers_eq_map (members : List (String × Json)) :
    sortedMembers members = members.map fun member => (member.1, member.2.sorted) := by
  induction members with
  | nil => rfl
  | cons member rest ih => rw [sortedMembers, ih, List.map_cons]

/-- The values of members are printed one by one, under their names. -/
theorem printedMembers_eq_map (level : Nat) (members : List (String × Json)) :
    printedMembers level members =
      members.map fun member => (member.1, member.2.printedAt level) := by
  induction members with
  | nil => rfl
  | cons member rest ih => rw [printedMembers, ih, List.map_cons]

/-- Sorting by name gives an order by name. -/
theorem pairwise_mergeSort_byName {α : Type} (members : List (String × α)) :
    (members.mergeSort fun a b => !(b.1 < a.1 : Bool)).Pairwise fun a b =>
      (!(b.1 < a.1 : Bool)) = true := by
  apply List.pairwise_mergeSort
  · intro a b c hab hbc
    simp only [Bool.not_eq_true', decide_eq_false_iff_not, String.not_lt] at hab hbc ⊢
    exact String.le_trans hab hbc
  · intro a b
    simp only [Bool.or_eq_true, Bool.not_eq_true', decide_eq_false_iff_not, String.not_lt]
    exact String.le_total a.1 b.1

/-- Printing sorts members, so it does not matter whether they are sorted already. -/
theorem mergeSort_printedMembers_mergeSort (level : Nat) (members : List (String × Json)) :
    (printedMembers level (members.mergeSort memberAtMost)).mergeSort nameAtMost =
      (printedMembers level members).mergeSort nameAtMost := by
  have hmap := List.map_mergeSort (r := memberAtMost) (s := nameAtMost) (l := members)
    (f := fun member => (member.1, member.2.printedAt level)) fun _ _ _ _ => rfl
  rw [printedMembers_eq_map, printedMembers_eq_map, hmap]
  exact List.mergeSort_of_pairwise (pairwise_mergeSort_byName _)

mutual

/-- A sorted value prints as the value does, at every level. -/
theorem printedAt_sorted (level : Nat) :
    ∀ json : Json, json.sorted.printedAt level = json.printedAt level
  | null => rfl
  | bool _ => rfl
  | number _ => rfl
  | string _ => rfl
  | array items => by rw [sorted, printedAt, printedAt, printedItems_sortedItems]
  | object members => by
    rw [sorted, printedAt, printedAt, mergeSort_printedMembers_mergeSort,
      printedMembers_sortedMembers]

/-- So do the items of an array. -/
theorem printedItems_sortedItems (level : Nat) :
    ∀ items : List Json, printedItems level (sortedItems items) = printedItems level items
  | [] => rfl
  | item :: rest => by
    rw [sortedItems, printedItems, printedItems, printedAt_sorted level item,
      printedItems_sortedItems level rest]

/-- So do the members of an object. -/
theorem printedMembers_sortedMembers (level : Nat) :
    ∀ members : List (String × Json),
      printedMembers level (sortedMembers members) = printedMembers level members
  | [] => rfl
  | (name, value) :: rest => by
    rw [sortedMembers, printedMembers, printedMembers, printedAt_sorted level value,
      printedMembers_sortedMembers level rest]

end

/-- The text of a dump is that of the sorted value. -/
theorem printed_sorted (json : Json) : json.sorted.printed = json.printed :=
  printedAt_sorted 0 json

/-- Objects with the same members of different names, in any two orders, are sorted into one. -/
theorem sorted_object_of_perm {xs ys : List (String × Json)} (h : xs ~ ys)
    (hnodup : (xs.map Prod.fst).Nodup) : (object xs).sorted = (object ys).sorted := by
  have hperm : sortedMembers xs ~ sortedMembers ys := by
    rw [sortedMembers_eq_map, sortedMembers_eq_map]
    exact h.map _
  have hnames : ((sortedMembers xs).map Prod.fst).Nodup := by
    rwa [sortedMembers_eq_map, List.map_map]
  have hleft := List.mergeSort_perm (sortedMembers xs) memberAtMost
  have hright := List.mergeSort_perm (sortedMembers ys) memberAtMost
  rw [sorted, sorted, object.injEq]
  refine List.Perm.eq_of_pairwise (fun a b ha hb hab hba => ?_) (pairwise_mergeSort_byName _)
    (pairwise_mergeSort_byName _) (hleft.trans (hperm.trans hright.symm))
  simp only [Bool.not_eq_true', decide_eq_false_iff_not, String.not_lt] at hab hba
  exact List.inj_on_of_nodup_map hnames (hleft.subset ha)
    (hperm.symm.subset (hright.subset hb)) (String.le_antisymm hab hba)
/-- A notion of equality of values that goes with one of numbers: values of different kinds
differ, arrays are compared item by item, and objects with the same different names, in one
order, member by member. -/
structure IsEquality (eq : Json → Json → Prop) (sameNumber : Number → Number → Prop) : Prop where
  null_left : ∀ json, eq null json ↔ json = null
  null_right : ∀ json, eq json null ↔ json = null
  bool : ∀ a b, eq (bool a) (bool b) ↔ a = b
  number : ∀ a b, eq (number a) (number b) ↔ sameNumber a b
  string : ∀ a b, eq (string a) (string b) ↔ a = b
  array : ∀ xs ys, eq (array xs) (array ys) ↔ List.Forall₂ eq xs ys
  object : ∀ xs ys : List (String × Json), xs.map Prod.fst = ys.map Prod.fst →
      (xs.map Prod.fst).Nodup →
      (eq (object xs) (object ys) ↔ List.Forall₂ (fun x y => eq x.2 y.2) xs ys)

/-- Two lists of members with the same different names in one order are the same if they are
permutations of each other. -/
theorem eq_of_perm_of_map_fst {xs ys : List (String × Json)} (h : xs ~ ys)
    (hnames : xs.map Prod.fst = ys.map Prod.fst) (hnodup : (xs.map Prod.fst).Nodup) : xs = ys := by
  induction xs generalizing ys with
  | nil => exact h.nil_eq
  | cons x xs ih =>
    cases ys with
    | nil => cases hnames
    | cons y ys =>
      rw [List.map_cons, List.map_cons, List.cons.injEq] at hnames
      rw [List.map_cons, List.nodup_cons] at hnodup
      have hfirst : x = y := by
        rcases List.mem_cons.mp (h.subset List.mem_cons_self) with rfl | hmem
        · rfl
        · exact (hnodup.1 (hnames.2 ▸ List.mem_map_of_mem hmem)).elim
      subst hfirst
      rw [ih h.cons_inv hnames.2 hnodup.2]

/-- Two mapped lists are the same exactly if they agree value by value. -/
theorem map_eq_map_iff_forall₂ {α β γ : Type} {f : α → γ} {g : β → γ} {xs : List α} {ys : List β} :
    xs.map f = ys.map g ↔ List.Forall₂ (fun x y => f x = g y) xs ys := by
  rw [← List.forall₂_eq_eq_eq, List.forall₂_map_left_iff, List.forall₂_map_right_iff]

/-- Values that agree up to the order of members are the same when they are sorted. -/
theorem isEquality_sorted : IsEquality (fun a b => a.sorted = b.sorted) Eq := by
  constructor
  · intro json
    cases json <;> simp [sorted]
  · intro json
    cases json <;> simp [sorted]
  · simp [sorted]
  · simp [sorted]
  · simp [sorted]
  · intro xs ys
    rw [sorted, sorted, array.injEq, sortedItems_eq_map, sortedItems_eq_map, map_eq_map_iff_forall₂]
  · intro xs ys hnames hnodup
    have hmap (members : List (String × Json)) :
        (sortedMembers members).map Prod.fst = members.map Prod.fst := by
      rw [sortedMembers_eq_map, List.map_map]
      rfl
    have hsorted :
        (sortedMembers xs).mergeSort memberAtMost = (sortedMembers ys).mergeSort memberAtMost ↔
        sortedMembers xs = sortedMembers ys := by
      refine ⟨fun h => ?_, fun h => by rw [h]⟩
      have hperm : sortedMembers xs ~ sortedMembers ys := by
        have hback := List.mergeSort_perm (sortedMembers ys) memberAtMost
        rw [← h] at hback
        exact (List.mergeSort_perm _ _).symm.trans hback
      exact eq_of_perm_of_map_fst hperm (by rw [hmap, hmap, hnames]) (by rwa [hmap])
    rw [sorted, sorted, object.injEq, hsorted, sortedMembers_eq_map, sortedMembers_eq_map,
      map_eq_map_iff_forall₂]
    simp only [Prod.mk.injEq]
    exact ⟨List.Forall₂.imp fun _ _ h => h.2,
      List.Forall₂.mp (fun _ _ => And.intro) (map_eq_map_iff_forall₂.mp hnames)⟩

/-- Arrays are equal exactly if they are so item by item. -/
theorem sameItems_iff {xs ys : List Json} :
    sameItems xs ys = true ↔ List.Forall₂ (fun x y => x.same y = true) xs ys := by
  induction xs generalizing ys with
  | nil => cases ys <;> simp [sameItems]
  | cons x xs ih => cases ys <;> simp [sameItems, ih]

/-- Members are among others exactly if each of them has an equal one of its name there. -/
theorem sameMembers_iff {xs ys : List (String × Json)} :
    sameMembers xs ys = true ↔ ∀ x ∈ xs, ∃ y, Members.get? ys x.1 = some y ∧ x.2.same y = true := by
  induction xs with
  | nil => simp [sameMembers]
  | cons x xs ih =>
    rw [sameMembers, Bool.and_eq_true, ih, List.forall_mem_cons]
    cases Members.get? ys x.1 <;> simp

/-- Members behind others of different names are found in their order. -/
theorem forall_get?_iff (front : List (String × Json)) {xs ys : List (String × Json)}
    (hnames : xs.map Prod.fst = ys.map Prod.fst) (hnodup : ((front ++ ys).map Prod.fst).Nodup) :
    (∀ x ∈ xs, ∃ y, Members.get? (front ++ ys) x.1 = some y ∧ x.2.same y = true) ↔
      List.Forall₂ (fun x y => x.2.same y.2 = true) xs ys := by
  induction xs generalizing front ys with
  | nil =>
    cases ys with
    | nil => simp
    | cons => cases hnames
  | cons x xs ih =>
    cases ys with
    | nil => cases hnames
    | cons y ys =>
      rw [List.map_cons, List.map_cons, List.cons.injEq] at hnames
      have hfront : front.find? (fun member => member.1 = y.1) = none := by
        rw [List.map_append, List.nodup_append, List.map_cons] at hnodup
        rw [List.find?_eq_none]
        intro member hmember
        simpa using hnodup.2.2 _ (List.mem_map_of_mem hmember) _ List.mem_cons_self
      have hfirst : Members.get? (front ++ y :: ys) x.1 = some y.2 := by
        simp [Members.get?, hfront, hnames.1]
      have hrest := ih (front ++ [y]) hnames.2 (by simpa using hnodup)
      rw [List.append_assoc, List.singleton_append] at hrest
      rw [List.forall_mem_cons, List.forall₂_cons, hrest, hfirst]
      simp

/-- Equality by value is such a notion, with numbers compared by value. -/
theorem isEquality_same : IsEquality (fun a b => a.same b = true) fun a b => a.same b = true := by
  constructor
  · intro json
    cases json <;> simp [same]
  · intro json
    cases json <;> simp [same]
  · simp [same]
  · simp [same]
  · simp [same]
  · intro xs ys
    rw [same, sameItems_iff]
  · intro xs ys hnames hnodup
    have hlength : xs.length = ys.length := by simpa using congrArg List.length hnames
    rw [same, hlength, beq_self_eq_true, Bool.true_and, sameMembers_iff]
    exact forall_get?_iff [] hnames (by rwa [List.nil_append, ← hnames])

end SliceRecords.Json
