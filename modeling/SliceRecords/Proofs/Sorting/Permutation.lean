import SliceRecords.Sorting.Sort
import Mathlib.Data.List.Perm.Basic

/-!
# Sorting keeps all values

Whatever the order, consistent or not, sorting only moves values: what comes out is a permutation of
what goes in. Each step moves values between the lists at hand, so every lemma compares the values
of all these lists before and after the step. Main statement: `sort?_perm`.
-/

open scoped List

namespace SliceRecords.Sorting

variable {α : Type} {before? : α → α → Option Bool}

/-- Putting a value into a list adds that value alone. -/
theorem insert?_perm {sorted result : List α} {value : α}
    (h : insert? before? sorted value = some result) : result ~ value :: sorted := by
  simp only [insert?, Option.bind_eq_bind, Option.bind_eq_some_iff, Option.pure_def,
    Option.some.injEq] at h
  obtain ⟨place, _, rfl⟩ := h
  calc sorted.take place ++ value :: sorted.drop place
      ~ value :: (sorted.take place ++ sorted.drop place) := List.perm_middle
    _ = value :: sorted := by rw [List.take_append_drop]

/-- Filling a run up adds the values that it is filled up with. -/
theorem foldlM_insert?_perm {filler run result : List α}
    (h : filler.foldlM (insert? before?) run = some result) : result ~ run ++ filler := by
  induction filler generalizing run with
  | nil =>
    obtain rfl : run = result := by simpa using h
    simp
  | cons value filler ih =>
    simp only [List.foldlM_cons, Option.bind_eq_bind, Option.bind_eq_some_iff] at h
    obtain ⟨next, hnext, hrest⟩ := h
    calc result ~ next ++ filler := ih hrest
      _ ~ (value :: run) ++ filler := (insert?_perm hnext).append_right filler
      _ ~ run ++ value :: filler := List.perm_middle.symm

/-- The values of a list, cut where a run ends and where the values that fill it up end. -/
theorem take_append_drop_max (rest : List α) (count least : Nat) :
    rest.take count ++ (rest.drop count).take (least - (count + 1)) ++
      rest.drop (max count (least - 1)) = rest := by
  have hcut : (rest.drop count).drop (least - (count + 1)) = rest.drop (max count (least - 1)) := by
    rw [List.drop_drop]
    congr 1
    omega
  rw [List.append_assoc, ← hcut, List.take_append_drop, List.take_append_drop]

/-- The runs of a list hold its values. -/
theorem runs?_perm {least : Nat} {values : List α} {runs : List (List α)}
    (h : runs? before? least values = some runs) : runs.flatten ~ values := by
  induction values using runs?.induct least generalizing runs with
  | case1 =>
    rw [runs?] at h
    obtain rfl : [] = runs := by simpa using h
    simp
  | case2 first rest ih =>
    rw [runs?] at h
    simp only [Option.bind_eq_bind, Option.bind_eq_some_iff, Option.pure_def,
      Option.some.injEq] at h
    obtain ⟨⟨falling, count⟩, _, run, hrun, others, hothers, rfl⟩ := h
    have hstart : (if falling then (first :: rest.take count).reverse
        else first :: rest.take count) ~ first :: rest.take count := by
      split
      · exact List.reverse_perm _
      · exact List.Perm.refl _
    calc (run :: others).flatten = run ++ others.flatten := List.flatten_cons
      _ ~ ((first :: rest.take count) ++ (rest.drop count).take (least - (count + 1))) ++
            rest.drop (max count (least - 1)) :=
          ((foldlM_insert?_perm hrun).trans (hstart.append_right _)).append (ih count hothers)
      _ = first :: rest := by
          rw [List.cons_append, List.cons_append, take_append_drop_max]

/-- What is left of two sides and what is done already make up the merged list. -/
theorem mergeFrom?_perm {fromEnd : Bool} {pace : Pace} {patience left : Nat}
    {done kept other merged : List α}
    (h : mergeFrom? before? fromEnd pace patience done kept other = some (merged, left)) :
    merged ~ done ++ kept ++ other := by
  classical
  rw [List.perm_iff_count]
  intro a
  induction pace, patience, done, kept,
  other using mergeFrom?.induct fromEnd generalizing merged with
  | case1 patience done x x' xs y ys keptRun otherRun ihother ihkept =>
    rw [mergeFrom?] at h
    simp only [Option.bind_eq_bind, Option.bind_eq_some_iff] at h
    obtain ⟨otherFirst, _, h⟩ := h
    split at h
    · have := ihother h
      simp only [List.count_append, List.count_cons] at this ⊢
      omega
    · have := ihkept h
      simp only [List.count_append, List.count_cons] at this ⊢
      omega
  | case2 patience done x x' xs y ys second afterLong hside ih =>
    rw [mergeFrom?] at h
    simp only [if_pos hside, Option.bind_eq_bind, Option.bind_eq_some_iff] at h
    obtain ⟨count, _, h⟩ := h
    have hcut := congrArg (List.count a) (List.take_append_drop count (x :: x' :: xs))
    split at h
    · rename_i next next' rest hdrop
      have := ih count next next' rest hdrop _ _ h
      rw [hdrop] at hcut
      simp only [List.count_append, List.count_cons, List.count_reverse] at this hcut ⊢
      omega
    · simp only [Option.pure_def, Option.some.injEq, Prod.mk.injEq] at h
      obtain ⟨rfl, _⟩ := h
      simp only [List.count_append, List.count_cons, List.count_reverse,
        List.reverse_append, List.reverse_reverse] at hcut ⊢
      omega
  | case3 patience done x x' xs y ys second afterLong hside ih =>
    rw [mergeFrom?] at h
    simp only [if_neg hside, Option.bind_eq_bind, Option.bind_eq_some_iff] at h
    obtain ⟨count, _, h⟩ := h
    have hcut := congrArg (List.count a) (List.take_append_drop count (y :: ys))
    split at h
    · rename_i next rest hdrop
      have := ih count next rest hdrop _ _ h
      rw [hdrop] at hcut
      simp only [List.count_append, List.count_cons, List.count_reverse] at this hcut ⊢
      omega
    · rename_i hdrop
      simp only [Option.pure_def, Option.some.injEq, Prod.mk.injEq] at h
      obtain ⟨rfl, _⟩ := h
      rw [hdrop] at hcut
      simp only [List.count_append, List.count_cons, List.count_reverse, List.count_nil,
        List.reverse_append, List.reverse_reverse] at hcut ⊢
      omega
  | case4 pace patience done kept other hside =>
    rw [mergeFrom?] at h
    · simp only [Option.some.injEq, Prod.mk.injEq] at h
      obtain ⟨rfl, _⟩ := h
      simp only [List.count_append, List.count_reverse]
      omega
    · exact hside

/-- Two runs of which the ends change places make up the merged list. -/
theorem mergeOverlap?_perm {patience rest : Nat} {left right merged : List α}
    (h : mergeOverlap? before? patience left right = some (merged, rest)) :
    merged ~ left ++ right := by
  unfold mergeOverlap? at h
  split at h
  · calc merged ~ right.take 1 ++ left ++ right.drop 1 := mergeFrom?_perm h
      _ ~ left ++ right.take 1 ++ right.drop 1 := List.perm_append_comm.append_right _
      _ = left ++ right := by rw [List.append_assoc, List.take_append_drop]
  · simp only [Option.bind_eq_bind, Option.bind_eq_some_iff, Option.pure_def, Option.some.injEq,
      Prod.mk.injEq] at h
    obtain ⟨⟨reversed, _⟩, hreversed, rfl, _⟩ := h
    calc reversed.reverse ~ reversed := List.reverse_perm _
      _ ~ left.reverse.take 1 ++ right.reverse ++ left.reverse.drop 1 := mergeFrom?_perm hreversed
      _ ~ right.reverse ++ left.reverse.take 1 ++ left.reverse.drop 1 :=
          List.perm_append_comm.append_right _
      _ = (left ++ right).reverse := by
          rw [List.append_assoc, List.take_append_drop, List.reverse_append]
      _ ~ left ++ right := List.reverse_perm _

/-- Two neighbouring runs make up the merged one. -/
theorem merge?_perm {patience rest : Nat} {left right merged : List α}
    (h : merge? before? patience left right = some (merged, rest)) : merged ~ left ++ right := by
  unfold merge? at h
  split at h
  · obtain ⟨rfl, _⟩ : left = merged ∧ patience = rest := by simpa using h
    simp
  · rename_i first others
    simp only [Option.bind_eq_bind, Option.bind_eq_some_iff] at h
    obtain ⟨start, _, h⟩ := h
    split at h
    · obtain ⟨rfl, _⟩ : left ++ first :: others = merged ∧ patience = rest := by simpa using h
      exact List.Perm.refl _
    · simp only [Option.bind_eq_some_iff, Option.pure_def, Option.some.injEq, Prod.mk.injEq] at h
      obtain ⟨last, _, ⟨middle, _⟩, hmiddle, rfl, _⟩ := h
      generalize (first :: others).length - last = stop at hmiddle ⊢
      calc left.take start ++ middle ++ (first :: others).drop stop
          ~ left.take start ++ (left.drop start ++ (first :: others).take stop) ++
              (first :: others).drop stop :=
            ((mergeOverlap?_perm hmiddle).append_left _).append_right _
        _ = left ++ (first :: others) := by
            rw [← List.append_assoc, List.take_append_drop, List.append_assoc,
              List.take_append_drop]

/-- Merging with the runs that wait moves values between the last run and these. -/
theorem mergeDeeper?_perm {depth patience left : Nat} {last merged : List α}
    {waiting rest : List (PendingRun α)}
    (h : mergeDeeper? before? depth patience last waiting = some (merged, rest, left)) :
    merged ++ (rest.map PendingRun.values).flatten ~
      last ++ (waiting.map PendingRun.values).flatten := by
  induction waiting generalizing last patience with
  | nil =>
    obtain ⟨rfl, rfl, _⟩ : last = merged ∧ [] = rest ∧ patience = left := by
      simpa [mergeDeeper?] using h
    exact List.Perm.refl _
  | cons pending waiting ih =>
    rw [mergeDeeper?] at h
    split at h
    · simp only [Option.bind_eq_bind, Option.bind_eq_some_iff] at h
      obtain ⟨⟨both, _⟩, hboth, hrest⟩ := h
      rw [List.map_cons, List.flatten_cons]
      calc merged ++ (rest.map PendingRun.values).flatten
          ~ both ++ (waiting.map PendingRun.values).flatten := ih hrest
        _ ~ last ++ pending.values ++ (waiting.map PendingRun.values).flatten :=
            ((merge?_perm hboth).trans List.perm_append_comm).append_right _
        _ = last ++ (pending.values ++ (waiting.map PendingRun.values).flatten) :=
            List.append_assoc ..
    · obtain ⟨rfl, rfl, _⟩ : last = merged ∧ pending :: waiting = rest ∧ patience = left := by
        simpa using h
      exact List.Perm.refl _

/-- Merging all runs keeps their values. -/
theorem mergeAll?_perm {patience : Nat} {last merged : List α} {earlier : List (List α)}
    (h : mergeAll? before? patience last earlier = some merged) :
    merged ~ last ++ earlier.flatten := by
  induction patience, last, earlier using mergeAll?.induct generalizing merged with
  | case1 patience last =>
    obtain rfl : last = merged := by simpa [mergeAll?] using h
    simp
  | case2 patience last first =>
    simp only [mergeAll?, Option.bind_eq_bind, Option.bind_eq_some_iff, Option.pure_def,
      Option.some.injEq] at h
    obtain ⟨⟨both, _⟩, hboth, rfl⟩ := h
    simpa using (merge?_perm hboth).trans List.perm_append_comm
  | case3 patience last second third rest hlen ih =>
    rw [mergeAll?] at h
    simp only [if_pos hlen, Option.bind_eq_bind, Option.bind_eq_some_iff] at h
    obtain ⟨⟨both, _⟩, hboth, hrest⟩ := h
    calc merged ~ last ++ (both ++ rest.flatten) := ih _ _ hrest
      _ ~ last ++ (second ++ third ++ rest.flatten) :=
          (((merge?_perm hboth).trans List.perm_append_comm).append_right _).append_left _
      _ = last ++ (second :: third :: rest).flatten := by simp
  | case4 patience last second third rest hlen ih =>
    rw [mergeAll?] at h
    simp only [if_neg hlen, Option.bind_eq_bind, Option.bind_eq_some_iff] at h
    obtain ⟨⟨both, _⟩, hboth, hrest⟩ := h
    calc merged ~ both ++ (third ++ rest.flatten) := ih _ _ hrest
      _ ~ last ++ second ++ (third ++ rest.flatten) :=
          ((merge?_perm hboth).trans List.perm_append_comm).append_right _
      _ = last ++ (second :: third :: rest).flatten := by simp

/-- Merging the runs of a list keeps their values. -/
theorem mergeRuns?_perm {total patience : Nat} {last merged : List α}
    {waiting : List (PendingRun α)} {runs : List (List α)}
    (h : mergeRuns? before? total patience last waiting runs = some merged) :
    merged ~ last ++ (waiting.map PendingRun.values).flatten ++ runs.flatten := by
  induction runs generalizing patience last waiting with
  | nil => simpa using mergeAll?_perm h
  | cons run runs ih =>
    obtain ⟨⟨both, rest, _⟩, hboth, hrest⟩ := Option.bind_eq_some_iff.mp h
    have hmoved := mergeDeeper?_perm hboth
    calc merged ~ run ++ (both ++ (rest.map PendingRun.values).flatten) ++ runs.flatten := by
          simpa using ih hrest
      _ ~ run ++ (last ++ (waiting.map PendingRun.values).flatten) ++ runs.flatten :=
          (hmoved.append_left _).append_right _
      _ ~ last ++ (waiting.map PendingRun.values).flatten ++ run ++ runs.flatten :=
          List.perm_append_comm.append_right _
      _ = last ++ (waiting.map PendingRun.values).flatten ++ (run :: runs).flatten := by simp

/-- A sorted list is a permutation of the list that was sorted. -/
theorem sort?_perm {values sorted : List α} (h : sort? before? values = some sorted) :
    sorted ~ values := by
  unfold sort? at h
  simp only [Option.bind_eq_bind, Option.bind_eq_some_iff] at h
  obtain ⟨runs, hruns, h⟩ := h
  have hvalues := runs?_perm hruns
  cases runs with
  | nil =>
    obtain rfl : [] = sorted := by simpa using h
    simpa using hvalues
  | cons run runs => exact (by simpa using mergeRuns?_perm h : sorted ~ _).trans hvalues

end SliceRecords.Sorting
