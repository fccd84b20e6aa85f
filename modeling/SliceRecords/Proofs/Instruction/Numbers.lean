import SliceRecords.Proofs.Instruction.Equality

/-!
# Numbers of instructions

The code of an instruction shows the tag of a field and the sizes of values and of presence
bits. Equal instructions show numbers of equal values, which are the same numbers if they
are integers; the numbers `1` and `1.0` have equal values and are not the same. Main
statement: `forall₂_blockNumbers`.
-/

namespace SliceRecords

namespace Instruction

mutual

/-- The numbers that the code of an instruction shows, in order. A size is shown where the newer
encoding writes a tagged value. -/
def numbers : Instruction → List (Option Number)
  | tagged .encode field .slice2 _ (some size) => [field.tag, some size]
  | tagged _ field _ _ _ => [field.tag]
  | bitSequence _ size => [some size]
  | guarded _ block => blockNumbers block
  | branch _ slice1 slice2 => blockNumbers slice1 ++ blockNumbers slice2
  | _ => []

/-- The numbers that the code of a block shows, in order. -/
def blockNumbers : List Instruction → List (Option Number)
  | [] => []
  | instruction :: rest => numbers instruction ++ blockNumbers rest

end

/-- Of two equal numbers, either both are missing or none. -/
theorem isSome_eq_of_sameNumber {m n : Option Number} (h : sameNumber m n = true) :
    m.isSome = n.isSome := by
  cases m <;> cases n <;> simp_all [sameNumber]

/-- If equal instructions show equal numbers, equal blocks do. -/
theorem forall₂_blockNumbers_of_forall {as bs : Block}
    (h : ∀ a ∈ as, ∀ b : Instruction, a.same b = true →
      List.Forall₂ (fun m n => sameNumber m n = true) a.numbers b.numbers)
    (hsame : sameBlock as bs = true) :
    List.Forall₂ (fun m n => sameNumber m n = true) (blockNumbers as) (blockNumbers bs) := by
  rw [sameBlock_iff_forall₂] at hsame
  induction hsame with
  | nil => exact .nil
  | @cons a b as bs hhead _ ih =>
    rw [blockNumbers, blockNumbers]
    exact List.rel_append (h a List.mem_cons_self b hhead)
      (ih fun c hc => h c (List.mem_cons_of_mem a hc))

/-- Equal instructions show equal numbers. -/
theorem forall₂_numbers {a b : Instruction} (h : a.same b = true) :
    List.Forall₂ (fun m n => sameNumber m n = true) a.numbers b.numbers := by
  induction a generalizing b with
  | tagged direction field encoding format size =>
    cases b with
    | tagged direction' other encoding' format' size' =>
      simp only [same, sameField, Bool.and_eq_true, beq_iff_eq] at h
      obtain ⟨⟨⟨⟨rfl, _, htag⟩, rfl⟩, rfl⟩, hsize⟩ := h
      cases direction with
      | decode => exact .cons htag .nil
      | encode =>
        cases encoding with
        | slice1 => exact .cons htag .nil
        | slice2 =>
          cases size with
          | none =>
            cases size' with
            | none => exact .cons htag .nil
            | some _ => simp [sameNumber] at hsize
          | some size =>
            cases size' with
            | none => simp [sameNumber] at hsize
            | some size' => exact .cons htag (.cons hsize .nil)
    | _ => simp [same] at h
  | bitSequence direction size =>
    cases b with
    | bitSequence direction' other =>
      simp only [same, Bool.and_eq_true] at h
      exact .cons h.2 .nil
    | _ => simp [same] at h
  | guarded direction block ih =>
    cases b with
    | guarded direction' other =>
      simp only [same, Bool.and_eq_true] at h
      exact forall₂_blockNumbers_of_forall (fun i hi b => ih i hi) h.2
    | _ => simp [same] at h
  | branch direction slice1 slice2 ih₁ ih₂ =>
    cases b with
    | branch direction' other1 other2 =>
      simp only [same, Bool.and_eq_true] at h
      exact List.rel_append (forall₂_blockNumbers_of_forall (fun i hi b => ih₁ i hi) h.1.2)
        (forall₂_blockNumbers_of_forall (fun i hi b => ih₂ i hi) h.2)
    | _ => simp [same] at h
  | _ => cases b <;> first | exact .nil | simp [same] at h

/-- Equal blocks show equal numbers. -/
theorem forall₂_blockNumbers {as bs : Block} (h : as.same bs = true) :
    List.Forall₂ (fun m n => sameNumber m n = true) (blockNumbers as) (blockNumbers bs) :=
  forall₂_blockNumbers_of_forall (fun _ _ _ => forall₂_numbers) h

/-- Equal integers are the same. -/
theorem eq_of_forall₂_sameNumber {ms ns : List (Option Number)}
    (h : List.Forall₂ (fun m n => sameNumber m n = true) ms ns)
    (hms : ∀ m ∈ ms, ∃ value : Option Int, m = value.map .integer)
    (hns : ∀ n ∈ ns, ∃ value : Option Int, n = value.map .integer) : ms = ns := by
  induction h with
  | nil => rfl
  | @cons m n ms ns hhead _ ih =>
    obtain ⟨x, rfl⟩ := hms m List.mem_cons_self
    obtain ⟨y, rfl⟩ := hns n List.mem_cons_self
    have hxy : x = y := by cases x <;> cases y <;> simp_all [sameNumber]
    rw [hxy,
      ih (fun m hm => hms m (List.mem_cons_of_mem _ hm)) fun n hn =>
        hns n (List.mem_cons_of_mem _ hn)]

end Instruction

end SliceRecords
