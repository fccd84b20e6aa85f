import SliceRecords.Sorting.Sort

/-!
# Sorting looks at the order alone

Sorting sees the values of a list only through their order, consistent or not: values that stand for
others with the same order are sorted like those. So each step can be made before or after a
function is applied to the values. Main statement: `sort?_map`.
-/

namespace SliceRecords.Sorting

variable {α β : Type}

/-- How halving goes on depends on what stands in the middle. -/
theorem countByHalving?_eq (passes? : α → Option Bool) (fromEnd : Bool) {values : List α}
    {middle : Nat}
    (hmiddle : middle = if fromEnd then (values.length - 1) / 2 else values.length / 2) :
    countByHalving? passes? fromEnd values =
      (match values.drop middle with
      | [] => some 0
      | pivot :: after => do
        if ← passes? pivot then
          let count ← countByHalving? passes? fromEnd after
          return middle + 1 + count
        else countByHalving? passes? fromEnd (values.take middle)) := by
  subst hmiddle
  rw [countByHalving?]
  split <;> (rename_i hdrop; rw [hdrop])

/-- How leaps go on depends on where the next one ends. -/
theorem countByWideningLeaps?_eq (passes? : α → Option Bool) (fromEnd : Bool) (width : Nat)
    (values : List α) :
    countByWideningLeaps? passes? fromEnd width values =
      (match values.drop width with
      | [] => countByHalving? passes? fromEnd values
      | next :: after => do
        if ← passes? next then
          let count ← countByWideningLeaps? passes? fromEnd (2 * width + 1) after
          return width + 1 + count
        else countByHalving? passes? fromEnd (values.take width)) := by
  rw [countByWideningLeaps?]
  split <;> (rename_i hdrop; rw [hdrop])

section Search

variable (f : α → β) (passes? : β → Option Bool) (fromEnd : Bool)

/-- Halving counts in the same way before and after a function. -/
theorem countByHalving?_map (values : List α) :
    countByHalving? passes? fromEnd (values.map f) =
      countByHalving? (fun value => passes? (f value)) fromEnd values := by
  induction values using countByHalving?.induct fromEnd with
  | case1 values middle hdrop =>
    have hmiddle : middle = if fromEnd then (values.length - 1) / 2 else values.length / 2 := rfl
    have hmap : middle =
        if fromEnd then ((values.map f).length - 1) / 2 else (values.map f).length / 2 := by
      rw [List.length_map, hmiddle]
    rw [countByHalving?_eq _ _ hmap, countByHalving?_eq _ _ hmiddle, ← List.map_drop, hdrop]
    rfl
  | case2 values middle pivot after hdrop ihafter ihbefore =>
    have hmiddle : middle = if fromEnd then (values.length - 1) / 2 else values.length / 2 := rfl
    have hmap : middle =
        if fromEnd then ((values.map f).length - 1) / 2 else (values.map f).length / 2 := by
      rw [List.length_map, hmiddle]
    rw [countByHalving?_eq _ _ hmap, countByHalving?_eq _ _ hmiddle, ← List.map_drop, hdrop]
    simp only [List.map_cons, ihafter, ← List.map_take, ihbefore]

/-- So do leaps that widen, from any width on. -/
theorem countByWideningLeaps?_map (width : Nat) (values : List α) :
    countByWideningLeaps? passes? fromEnd width (values.map f) =
      countByWideningLeaps? (fun value => passes? (f value)) fromEnd width values := by
  induction width, values using countByWideningLeaps?.induct with
  | case1 width values hdrop =>
    rw [countByWideningLeaps?_eq, countByWideningLeaps?_eq _ _ _ values, ← List.map_drop, hdrop]
    exact countByHalving?_map f passes? fromEnd values
  | case2 width values next after hdrop ih =>
    rw [countByWideningLeaps?_eq, countByWideningLeaps?_eq _ _ _ values, ← List.map_drop, hdrop]
    simp only [List.map_cons, ih, ← List.map_take, countByHalving?_map]

/-- So do leaps from the first value on. -/
theorem countByLeaps?_map (values : List α) :
    countByLeaps? passes? fromEnd (values.map f) =
      countByLeaps? (fun value => passes? (f value)) fromEnd values := by
  cases values with
  | nil => rfl
  | cons first rest => rw [List.map_cons, countByLeaps?, countByLeaps?, countByWideningLeaps?_map]

end Search

variable (f : α → β) (before? : β → β → Option Bool)

/-- A value can be inserted before or after a function is applied. -/
theorem insert?_map (sorted : List α) (value : α) :
    insert? before? (sorted.map f) (f value) =
      (insert? (fun a b => before? (f a) (f b)) sorted value).map (List.map f) := by
  simp only [insert?, Option.map_eq_map, countByHalving?_map, Option.pure_def, Option.bind_eq_bind,
    Option.map_bind, Function.comp_def, Option.map_some, List.map_append, List.map_take,
    List.map_cons, List.map_drop]

/-- So can one value after the other. -/
theorem foldlM_insert?_map (filler run : List α) :
    (filler.map f).foldlM (insert? before?) (run.map f) =
      (filler.foldlM (insert? fun a b => before? (f a) (f b)) run).map (List.map f) := by
  induction filler generalizing run with
  | nil => rfl
  | cons value filler ih =>
    simp only [List.map_cons, List.foldlM_cons, insert?_map, Option.bind_eq_bind, Option.map_bind,
      Option.bind_map, Function.comp_def, ih]

/-- A run goes on in the same way before and after a function. -/
theorem continueRun?_map (falling : Bool) (last : α) (rest : List α) :
    continueRun? before? falling (f last) (rest.map f) =
      continueRun? (fun a b => before? (f a) (f b)) falling last rest := by
  induction rest generalizing last with
  | nil => rfl
  | cons next rest ih => rw [List.map_cons, continueRun?, continueRun?, ih]

/-- So does it from its first value on. -/
theorem startRun?_map (first : α) (rest : List α) :
    startRun? before? (f first) (rest.map f) =
      startRun? (fun a b => before? (f a) (f b)) first rest := by
  cases rest with
  | nil => rfl
  | cons second rest => simp only [List.map_cons, startRun?, continueRun?_map]

/-- The runs of mapped values are the mapped runs. -/
theorem runs?_map (least : Nat) (values : List α) :
    runs? before? least (values.map f) =
      (runs? (fun a b => before? (f a) (f b)) least values).map (List.map (List.map f)) := by
  induction values using runs?.induct least with
  | case1 => simp [runs?]
  | case2 first rest ih =>
    rw [List.map_cons, runs?, runs?, startRun?_map]
    simp only [Option.bind_eq_bind, Option.pure_def, Option.map_bind, Function.comp_def,
      ← List.map_drop, ← List.map_take, ih]
    congr 1
    funext ⟨falling, count⟩
    dsimp only
    rw [← List.map_cons, ← List.map_reverse, ← apply_ite (List.map f), foldlM_insert?_map]
    simp only [Option.bind_map, Function.comp_def, Option.map_some, List.map_cons]

/-- A leap over the kept side takes the next value of the other side along. -/
theorem mergeFrom?_leap_kept (before? : α → α → Option Bool) {fromEnd second : Bool}
    (hside : (second == fromEnd) = true) (afterLong : Bool) (patience : Nat) (done : List α)
    (x x' : α) (xs : List α) (y : α) (ys : List α) :
    mergeFrom? before? fromEnd (.leap second afterLong) patience done (x :: x' :: xs) (y :: ys) =
      (countByLeaps? (fun value => (! ·) <$> before? y value) fromEnd (x :: x' :: xs)).bind
        fun count =>
        match (x :: x' :: xs).drop count with
        | next :: next' :: rest =>
          let after := Pace.afterLeap second afterLong ys.isEmpty count patience
          mergeFrom? before? fromEnd after.1 after.2
            (y :: (((x :: x' :: xs).take count).reverse ++ done)) (next :: next' :: rest) ys
        | rest =>
          some ((((x :: x' :: xs).take count).reverse ++ done).reverse ++ (y :: ys) ++ rest,
            patience) := by
  rw [mergeFrom?, if_pos hside]
  apply Option.bind_congr
  intro count _
  split
  · rename_i hdrop
    rw [hdrop]
  · rename_i hshort
    split
    · rename_i hlong
      exact (hshort _ _ _ hlong).elim
    · rfl

/-- A leap over the other side takes the next value of the kept side along. -/
theorem mergeFrom?_leap_other (before? : α → α → Option Bool) {fromEnd second : Bool}
    (hside : ¬(second == fromEnd) = true) (afterLong : Bool) (patience : Nat) (done : List α)
    (x x' : α) (xs : List α) (y : α) (ys : List α) :
    mergeFrom? before? fromEnd (.leap second afterLong) patience done (x :: x' :: xs) (y :: ys) =
      (countByLeaps? (fun value => before? value x) fromEnd (y :: ys)).bind fun count =>
        match (y :: ys).drop count with
        | next :: rest =>
          let after := Pace.afterLeap second afterLong xs.isEmpty count patience
          mergeFrom? before? fromEnd after.1 after.2
            (x :: (((y :: ys).take count).reverse ++ done)) (x' :: xs) (next :: rest)
        | [] =>
          some ((((y :: ys).take count).reverse ++ done).reverse ++ (x :: x' :: xs), patience) := by
  rw [mergeFrom?, if_neg hside]
  apply Option.bind_congr
  intro count _
  split <;> (rename_i hdrop; rw [hdrop])
  rfl

/-- Merging goes on in the same way before and after a function, at every pace. -/
theorem mergeFrom?_map (fromEnd : Bool) (pace : Pace) (patience : Nat) (done kept other : List α) :
    mergeFrom? before? fromEnd pace patience (done.map f) (kept.map f) (other.map f) =
      (mergeFrom? (fun a b => before? (f a) (f b)) fromEnd pace patience done kept other).map
        (Prod.map (List.map f) id) := by
  induction pace, patience, done, kept, other using mergeFrom?.induct fromEnd with
  | case1 patience done x x' xs y ys keptRun otherRun ihother ihkept =>
    simp only [List.map_cons, dite_eq_ite] at ihother ihkept ⊢
    rw [mergeFrom?, mergeFrom?, Option.bind_eq_bind, Option.bind_eq_bind, Option.map_bind]
    congr 1
    funext otherFirst
    rw [Function.comp_apply, apply_ite (Option.map _), ihother, ihkept]
  | case2 patience done x x' xs y ys second afterLong hside ih =>
    simp only [List.map_cons] at ih ⊢
    rw [mergeFrom?_leap_kept _ hside, mergeFrom?_leap_kept _ hside, ← List.map_cons,
      ← List.map_cons, countByLeaps?_map, Option.map_bind]
    congr 1
    funext count
    rw [Function.comp_apply, ← List.map_drop, ← List.map_take, ← List.map_reverse,
      ← List.map_append]
    rcases hdrop : (x :: x' :: xs).drop count with _ | ⟨next, _ | ⟨next', rest⟩⟩
    · simp
    · simp
    · simp only [List.map_cons, List.isEmpty_map]
      exact ih count next next' rest hdrop _ _
  | case3 patience done x x' xs y ys second afterLong hside ih =>
    simp only [List.map_cons] at ih ⊢
    rw [mergeFrom?_leap_other _ hside, mergeFrom?_leap_other _ hside, ← List.map_cons (a := y),
      countByLeaps?_map, Option.map_bind]
    congr 1
    funext count
    rw [Function.comp_apply, ← List.map_drop, ← List.map_take, ← List.map_reverse,
      ← List.map_append]
    rcases hdrop : (y :: ys).drop count with _ | ⟨next, rest⟩
    · simp
    · simp only [List.map_cons, List.isEmpty_map]
      exact ih count next rest hdrop _ _
  | case4 pace patience done kept other hside =>
    rw [mergeFrom?, mergeFrom?]
    · simp
    · exact hside
    · intro x x' xs y ys hkept hother
      obtain ⟨a, as, rfl, rfl, has⟩ := List.map_eq_cons_iff.mp hkept
      obtain ⟨a', as', rfl, rfl, -⟩ := List.map_eq_cons_iff.mp has
      obtain ⟨b, bs, rfl, rfl, -⟩ := List.map_eq_cons_iff.mp hother
      exact hside _ _ _ _ _ rfl rfl

/-- The overlap of two runs can be merged before or after a function is applied. -/
theorem mergeOverlap?_map (patience : Nat) (left right : List α) :
    mergeOverlap? before? patience (left.map f) (right.map f) =
      (mergeOverlap? (fun a b => before? (f a) (f b)) patience left right).map
        (Prod.map (List.map f) id) := by
  unfold mergeOverlap?
  simp only [List.length_map]
  split
  · rw [← List.map_take, ← List.map_drop, mergeFrom?_map]
  · simp only [← List.map_reverse, ← List.map_take, ← List.map_drop]
    rw [mergeFrom?_map]
    simp only [List.drop_one, List.tail_reverse, Option.pure_def, Option.bind_eq_bind,
      Option.bind_map, Function.comp_def, Prod.map_fst, Prod.map_snd, id_eq, Option.map_bind,
      Option.map_some, Prod.map_apply, List.map_reverse]

/-- So can two whole runs. -/
theorem merge?_map (patience : Nat) (left right : List α) :
    merge? before? patience (left.map f) (right.map f) = (merge? (fun a b => before? (f a) (f b))
      patience left right).map (Prod.map (List.map f) id) := by
  cases right with
  | nil => rfl
  | cons first others =>
    rw [merge?.eq_def]
    simp only [List.map_cons, merge?, countByLeaps?_map, Option.bind_eq_bind, Option.map_bind]
    congr 1
    funext start
    rw [Function.comp_apply, ← List.map_cons, ← List.map_drop, List.getLast?_map]
    cases (left.drop start).getLast? with
    | none => simp
    | some last =>
      simp only [Option.map_some, ← List.map_reverse, countByLeaps?_map, List.length_map,
        ← List.map_take, ← List.map_drop, mergeOverlap?_map, Option.map_bind, Option.bind_map,
        Function.comp_def, Prod.map_fst, Prod.map_snd, id, ← List.map_append, Option.pure_def,
        Prod.map_apply]

/-- A run that waits, with a function applied to its values. -/
def PendingRun.map (f : α → β) (pending : PendingRun α) : PendingRun β :=
  { values := pending.values.map f, depth := pending.depth }

/-- So can the runs that wait at a greater depth. -/
theorem mergeDeeper?_map (depth patience : Nat) (last : List α) (waiting : List (PendingRun α)) :
    mergeDeeper? before? depth patience (last.map f) (waiting.map (PendingRun.map f)) =
      (mergeDeeper? (fun a b => before? (f a) (f b)) depth patience last waiting).map
        (Prod.map (List.map f) (Prod.map (List.map (PendingRun.map f)) id)) := by
  induction waiting generalizing last patience with
  | nil => rfl
  | cons pending rest ih =>
    have hdepth : (pending.map f).depth = pending.depth := rfl
    have hvalues : (pending.map f).values = pending.values.map f := rfl
    rw [List.map_cons, mergeDeeper?, mergeDeeper?, apply_ite (Option.map _), hdepth, hvalues,
      merge?_map]
    simp only [Option.bind_eq_bind, Option.bind_map, Option.map_bind, Function.comp_def,
      Prod.map_fst, Prod.map_snd, id, ih]
    rfl

/-- So can all the runs that wait. -/
theorem mergeAll?_map (patience : Nat) (last : List α) (earlier : List (List α)) :
    mergeAll? before? patience (last.map f) (earlier.map (List.map f)) =
      (mergeAll? (fun a b => before? (f a) (f b)) patience last earlier).map (List.map f) := by
  induction patience, last, earlier using mergeAll?.induct with
  | case1 patience last => simp [mergeAll?]
  | case2 patience last first =>
    simp only [List.map_cons, List.map_nil, mergeAll?, merge?_map, Option.pure_def,
      Option.bind_eq_bind, Option.bind_map, Function.comp_def, Prod.map_fst, Option.map_bind,
      Option.map_some]
  | case3 patience last second third rest hlen ih =>
    simp only [List.map_cons] at ih ⊢
    rw [mergeAll?, mergeAll?]
    simp only [List.length_map, if_pos hlen, merge?_map, Option.bind_eq_bind, Option.bind_map,
      Option.map_bind, Function.comp_def, Prod.map_fst, Prod.map_snd, id, ih]
  | case4 patience last second third rest hlen ih =>
    simp only [List.map_cons] at ih ⊢
    rw [mergeAll?, mergeAll?]
    simp only [List.length_map, if_neg hlen, merge?_map, Option.bind_eq_bind, Option.bind_map,
      Option.map_bind, Function.comp_def, Prod.map_fst, Prod.map_snd, id, ih]

/-- So can the runs that are still to come, with those that wait. -/
theorem mergeRuns?_map (total patience : Nat) (last : List α) (waiting : List (PendingRun α))
    (runs : List (List α)) :
    mergeRuns? before? total patience (last.map f) (waiting.map (PendingRun.map f))
        (runs.map (List.map f)) =
      (mergeRuns? (fun a b => before? (f a) (f b)) total patience last waiting runs).map
        (List.map f) := by
  induction runs generalizing patience last waiting with
  | nil =>
    have hvalues : (waiting.map (PendingRun.map f)).map PendingRun.values =
        (waiting.map PendingRun.values).map (List.map f) := by
      rw [List.map_map, List.map_map]
      rfl
    change mergeAll? before? patience (last.map f)
      ((waiting.map (PendingRun.map f)).map PendingRun.values) = _
    rw [hvalues]
    exact mergeAll?_map f before? patience last _
  | cons run runs ih =>
    have hlengths : (waiting.map (PendingRun.map f)).map (fun pending => pending.values.length) =
        waiting.map fun pending => pending.values.length := by
      simp [PendingRun.map]
    change Option.bind _ _ = Option.map _ (Option.bind _ _)
    rw [hlengths, List.length_map, List.length_map, mergeDeeper?_map, Option.bind_map,
      Option.map_bind]
    congr 1
    funext ⟨merged, others, patience⟩
    exact ih patience run ({ values := merged, depth := _ } :: others)

/-- Sorting the values of a function is sorting by the order of these values. -/
theorem sort?_map (values : List α) :
    sort? before? (values.map f) =
      (sort? (fun a b => before? (f a) (f b)) values).map (List.map f) := by
  unfold sort?
  rw [List.length_map, runs?_map]
  simp only [Option.bind_eq_bind, Option.bind_map, Option.map_bind]
  congr 1
  funext runs
  cases runs with
  | nil => rfl
  | cons run runs => exact mergeRuns?_map f before? values.length longLeap run [] runs

end SliceRecords.Sorting
