import Mathlib.Data.List.Forall2

/-!
# Lists that are related value by value
-/

namespace SliceRecords

variable {α β : Type} {R : α → β → Prop}

/-- Each value of the second list is related to one of the first list. -/
theorem exists_mem_of_forall₂ {as : List α} {bs : List β} (h : List.Forall₂ R as bs) {b : β}
    (hb : b ∈ bs) : ∃ a ∈ as, R a b := by
  induction h with
  | nil => cases hb
  | @cons a b' as bs hhead _ ih =>
    rcases List.mem_cons.mp hb with rfl | hb
    · exact ⟨a, List.mem_cons_self, hhead⟩
    · obtain ⟨c, hc, hrel⟩ := ih hb
      exact ⟨c, List.mem_cons_of_mem a hc, hrel⟩

end SliceRecords
