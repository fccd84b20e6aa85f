import Mathlib.Data.List.Sort

/-!
# Sorting and single values

Sorting keeps the order of values that compare as equal, so it puts a value that joins a list
somewhere among the sorted ones and leaves these as they are, wherever in the list the value stands.
Main statement: `exists_split_mergeSort_insert`.
-/

namespace SliceRecords.Sorting

variable {α : Type} {r : α → α → Prop} [DecidableRel r]

/-- A value is inserted behind those that it may not precede, in front of those that it may. -/
theorem orderedInsert_append {before after : List α} {x : α} (hbefore : ∀ a ∈ before, ¬r x a)
    (hafter : ∀ a ∈ after, r x a) : (before ++ after).orderedInsert r x = before ++ x :: after := by
  induction before with
  | nil =>
    cases after with
    | nil => rfl
    | cons a after => exact List.orderedInsert_cons_of_le r after (hafter a List.mem_cons_self)
  | cons a before ih =>
    rw [List.cons_append, List.orderedInsert_of_not_le r _ (hbefore a List.mem_cons_self),
      ih fun b hb => hbefore b (List.mem_cons_of_mem a hb), List.cons_append]

/-- Inserting a value into a sorted list finds the same place whether or not another value stands in
the list, up to the side of that value. -/
theorem exists_split_orderedInsert [IsTrans α r] {before after : List α} {a : α}
    (hsorted : (a :: after).Pairwise r) (x : α) :
    ∃ front back, (before ++ after).orderedInsert r x = front ++ back ∧
      (before ++ a :: after).orderedInsert r x = front ++ a :: back := by
  induction before with
  | nil =>
    by_cases hx : r x a
    · -- What may precede `a` may precede all that follows `a` in the sorted list.
      have hafter : ∀ b ∈ after, r x b := fun b hb =>
        trans_of r hx (List.rel_of_pairwise_cons hsorted hb)
      refine ⟨[x], after, orderedInsert_append (List.forall_mem_nil _) hafter, ?_⟩
      exact List.orderedInsert_cons_of_le r after hx
    · exact ⟨[], after.orderedInsert r x, rfl, List.orderedInsert_of_not_le r after hx⟩
  | cons b before ih =>
    by_cases hx : r x b
    · refine ⟨x :: b :: before, after, ?_, ?_⟩
      · exact List.orderedInsert_cons_of_le r _ hx
      · exact List.orderedInsert_cons_of_le r _ hx
    · obtain ⟨front, back, hwithout, hwith⟩ := ih
      refine ⟨b :: front, back, ?_, ?_⟩
      · rw [List.cons_append, List.orderedInsert_of_not_le r _ hx, hwithout, List.cons_append]
      · rw [List.cons_append, List.orderedInsert_of_not_le r _ hx, hwith, List.cons_append]

/-- Deciding a transitive relation is transitive. -/
theorem decide_trans [IsTrans α r] (a b c : α) (hab : decide (r a b) = true)
    (hbc : decide (r b c) = true) : decide (r a c) = true :=
  decide_eq_true (trans_of r (of_decide_eq_true hab) (of_decide_eq_true hbc))

/-- Deciding a total relation is total. -/
theorem decide_total [Std.Total r] (a b : α) : (decide (r a b) || decide (r b a)) = true := by
  simpa using total_of r a b

variable [Std.Total r] [IsTrans α r]

/-- The first value of a list comes behind the sorted others that it may not precede. -/
theorem exists_split_mergeSort_cons (x : α) (xs : List α) :
    ∃ before after, xs.mergeSort (r · ·) = before ++ after ∧
      (x :: xs).mergeSort (r · ·) = before ++ x :: after ∧ ∀ a ∈ before, ¬r x a := by
  obtain ⟨before, after, hwith, hwithout, hbefore⟩ :=
    List.mergeSort_cons (decide_trans (r := r)) decide_total x xs
  exact ⟨before, after, hwithout, hwith, by simpa using hbefore⟩

/-- Sorting a list inserts its first value into the sorted others. -/
theorem mergeSort_cons (x : α) (xs : List α) :
    (x :: xs).mergeSort (r · ·) = (xs.mergeSort (r · ·)).orderedInsert r x := by
  obtain ⟨before, after, hwithout, hwith, hbefore⟩ := exists_split_mergeSort_cons (r := r) x xs
  have hsorted := List.pairwise_mergeSort' r (x :: xs)
  rw [hwith, List.pairwise_append, List.pairwise_cons] at hsorted
  rw [hwith, hwithout, orderedInsert_append hbefore hsorted.2.1.1]

/-- Sorting commutes with leaving values out. -/
theorem mergeSort_filter (p : α → Bool) (xs : List α) :
    (xs.filter p).mergeSort (r · ·) = (xs.mergeSort (r · ·)).filter p := by
  induction xs with
  | nil => simp
  | cons x xs ih =>
    obtain ⟨before, after, hwithout, hwith, hbefore⟩ := exists_split_mergeSort_cons (r := r) x xs
    have hsorted := List.pairwise_mergeSort' r (x :: xs)
    rw [hwith, List.pairwise_append, List.pairwise_cons] at hsorted
    rw [hwithout, List.filter_append] at ih
    rw [hwith, List.filter_append, List.filter_cons, List.filter_cons]
    split
    · -- The value comes behind the same values as in the whole list, as far as these are kept.
      rw [mergeSort_cons, ih]
      exact orderedInsert_append (fun a ha => hbefore a (List.mem_of_mem_filter ha))
        fun a ha => hsorted.2.1.1 a (List.mem_of_mem_filter ha)
    · exact ih

/-- Sorting keeps the order of values that may precede each other. -/
theorem filter_mergeSort {xs : List α} {p : α → Bool}
    (h : ∀ a ∈ xs, ∀ b ∈ xs, p a = true → p b = true → r a b) :
    (xs.mergeSort (r · ·)).filter p = xs.filter p := by
  have hpairwise : (xs.filter p).Pairwise fun a b => decide (r a b) = true := by
    refine List.pairwise_of_forall_mem_list fun a ha b hb => decide_eq_true ?_
    rw [List.mem_filter] at ha hb
    exact h a ha.1 b hb.1 ha.2 hb.2
  rw [← mergeSort_filter, List.mergeSort_of_pairwise hpairwise]

/-- A value that joins a list comes somewhere among the sorted values and
leaves them in their order. -/
theorem exists_split_mergeSort_insert (front back : List α) (a : α) :
    ∃ before after, (front ++ back).mergeSort (r · ·) = before ++ after ∧
      (front ++ a :: back).mergeSort (r · ·) = before ++ a :: after := by
  induction front with
  | nil =>
    obtain ⟨before, after, hwithout, hwith, _⟩ := exists_split_mergeSort_cons (r := r) a back
    exact ⟨before, after, hwithout, hwith⟩
  | cons x front ih =>
    obtain ⟨before, after, hwithout, hwith⟩ := ih
    have hsorted : (a :: after).Pairwise r := by
      have hall := List.pairwise_mergeSort' r (front ++ a :: back)
      rw [hwith, List.pairwise_append] at hall
      exact hall.2.1
    rw [List.cons_append, List.cons_append, mergeSort_cons, mergeSort_cons, hwithout, hwith]
    exact exists_split_orderedInsert hsorted x

end SliceRecords.Sorting
