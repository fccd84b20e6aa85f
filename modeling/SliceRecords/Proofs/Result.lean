import SliceRecords.Proofs.Pairing

/-!
# Results that may be errors

When a computation that can fail gives a value: the lemmas take a sequence, a list of computations
or a fold apart into its steps, and put results together from the results of the steps.
-/

namespace SliceRecords.Result

variable {ε ε' α β γ σ : Type}

/-- Giving a value back is a success with this value. -/
@[simp] theorem pure_eq_ok_iff {a b : α} : (pure a : Except ε α) = .ok b ↔ a = b := by
  simp [pure, Except.pure]

/-- A sequence has a value if its first step has one and the rest has one after that. -/
@[simp] theorem bind_eq_ok_iff {x : Except ε α} {f : α → Except ε β} {b : β} :
    x >>= f = .ok b ↔ ∃ a, x = .ok a ∧ f a = .ok b := by
  cases x <;> simp [bind, Except.bind]

/-- A function of a result succeeds exactly if the result does. -/
@[simp] theorem map_eq_ok_iff {x : Except ε α} {f : α → β} {b : β} :
    f <$> x = .ok b ↔ ∃ a, x = .ok a ∧ f a = b := by
  cases x <;> simp [Functor.map, Except.map]

/-- Renaming errors keeps successes. -/
@[simp] theorem mapError_eq_ok_iff {x : Except ε α} {f : ε → ε'} {a : α} :
    x.mapError f = .ok a ↔ x = .ok a := by
  cases x <;> simp [Except.mapError]

/-- A sequence fails if its first step does, or the rest after that. -/
theorem bind_eq_error_iff {x : Except ε α} {f : α → Except ε β} {error : ε} :
    x >>= f = .error error ↔ x = .error error ∨ ∃ a, x = .ok a ∧ f a = .error error := by
  cases x <;> simp [bind, Except.bind]

/-- A renamed error comes from an error. -/
theorem mapError_eq_error_iff {x : Except ε α} {f : ε → ε'} {error : ε'} :
    x.mapError f = .error error ↔ ∃ cause, x = .error cause ∧ f cause = error := by
  cases x <;> simp [Except.mapError]

/-- What is read off the value of a computation shows that there is one. -/
theorem exists_of_toOption_map {x : Except ε α} {f : α → β} {b : β}
    (h : x.toOption.map f = some b) : ∃ a, x = .ok a ∧ f a = b := by
  cases x with
  | error error => cases h
  | ok a => exact ⟨a, rfl, Option.some.inj h⟩

/-- A sequence has a value if all its steps have one. -/
theorem exists_bind_eq_ok {x : Except ε α} {f : α → Except ε β} (hx : ∃ a, x = .ok a)
    (hf : ∀ a, x = .ok a → ∃ b, f a = .ok b) : ∃ b, x >>= f = .ok b := by
  obtain ⟨a, ha⟩ := hx
  obtain ⟨b, hb⟩ := hf a ha
  exact ⟨b, bind_eq_ok_iff.mpr ⟨a, ha, hb⟩⟩

/-- A list of computations gives the list of their values. -/
theorem mapM_eq_ok_iff {f : α → Except ε β} {xs : List α} {ys : List β} :
    xs.mapM f = .ok ys ↔ List.Forall₂ (fun x y => f x = .ok y) xs ys := by
  induction xs generalizing ys with
  | nil => rw [List.mapM_nil, pure_eq_ok_iff, List.forall₂_nil_left_iff, eq_comm]
  | cons x xs ih =>
    rw [List.mapM_cons, bind_eq_ok_iff, List.forall₂_cons_left_iff]
    simp only [bind_eq_ok_iff, pure_eq_ok_iff, ih]
    constructor
    · rintro ⟨y, hy, rest, hrest, rfl⟩
      exact ⟨y, rest, hy, hrest, rfl⟩
    · rintro ⟨y, rest, hy, hrest, rfl⟩
      exact ⟨y, hy, rest, hrest, rfl⟩

/-- A list of computations has a value if each of them has one. -/
theorem exists_mapM_eq_ok {f : α → Except ε β} {xs : List α} (h : ∀ x ∈ xs, ∃ y, f x = .ok y) :
    ∃ ys, xs.mapM f = .ok ys := by
  induction xs with
  | nil => exact ⟨[], rfl⟩
  | cons x xs ih =>
    obtain ⟨y, hy⟩ := h x List.mem_cons_self
    obtain ⟨ys, hys⟩ := ih fun z hz => h z (List.mem_cons_of_mem x hz)
    exact ⟨y :: ys, mapM_eq_ok_iff.mpr (.cons hy (mapM_eq_ok_iff.mp hys))⟩

/-- Each value that a list of computations gives comes from one of them. -/
theorem exists_of_mem_mapM {f : α → Except ε β} {xs : List α} {ys : List β}
    (h : xs.mapM f = .ok ys) {y : β} (hy : y ∈ ys) : ∃ x ∈ xs, f x = .ok y :=
  exists_mem_of_forall₂ (mapM_eq_ok_iff.mp h) hy

/-- Each of a list of computations gives one of the values of the list. -/
theorem exists_mem_of_mapM {f : α → Except ε β} {xs : List α} {ys : List β}
    (h : xs.mapM f = .ok ys) {x : α} (hx : x ∈ xs) : ∃ y ∈ ys, f x = .ok y :=
  exists_mem_of_forall₂ (mapM_eq_ok_iff.mp h).flip hx

/-- A list of computations has a value exactly if each of them has one. -/
theorem exists_mapM_eq_ok_iff {f : α → Except ε β} {xs : List α} :
    (∃ ys, xs.mapM f = .ok ys) ↔ ∀ x ∈ xs, ∃ y, f x = .ok y := by
  refine ⟨?_, exists_mapM_eq_ok⟩
  rintro ⟨ys, hys⟩ x hx
  obtain ⟨y, _, hy⟩ := exists_mem_of_mapM hys hx
  exact ⟨y, hy⟩

/-- Arguments that are replaced by ones with the same values give the same list of values. -/
theorem mapM_map_of_forall {f : α → Except ε β} {replace : α → α} {xs : List α}
    (h : ∀ x ∈ xs, f (replace x) = f x) : (xs.map replace).mapM f = xs.mapM f := by
  induction xs with
  | nil => rfl
  | cons x xs ih =>
    rw [List.map_cons, List.mapM_cons, List.mapM_cons, h x List.mem_cons_self,
      ih fun y hy => h y (List.mem_cons_of_mem x hy)]

/-- What can be read off each argument and off its value alike can be read
off the two lists alike. -/
theorem map_eq_map_of_mapM {f : α → Except ε β} {g : α → γ} {k : β → γ} {xs : List α} {ys : List β}
    (h : xs.mapM f = .ok ys) (hread : ∀ x ∈ xs, ∀ y, f x = .ok y → g x = k y) :
    xs.map g = ys.map k := by
  replace h := mapM_eq_ok_iff.mp h
  induction h with
  | nil => rfl
  | @cons x y xs ys hy _ ih =>
    rw [List.map_cons, List.map_cons, hread x List.mem_cons_self y hy,
      ih fun z hz => hread z (List.mem_cons_of_mem x hz)]

/-- A fold has a value if every step has one, whatever the state before it. -/
theorem exists_foldlM_eq_ok {f : σ → α → Except ε σ} {xs : List α}
    (h : ∀ state, ∀ x ∈ xs, ∃ next, f state x = .ok next) (first : σ) :
    ∃ last, xs.foldlM f first = .ok last := by
  induction xs generalizing first with
  | nil => exact ⟨first, rfl⟩
  | cons x xs ih =>
    rw [List.foldlM_cons]
    refine exists_bind_eq_ok (h first x List.mem_cons_self) fun next _ => ?_
    exact ih (fun state y hy => h state y (List.mem_cons_of_mem x hy)) next

end SliceRecords.Result
