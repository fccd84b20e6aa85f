import Mathlib.Data.List.Sort
import SliceRecords.Proofs.Layout.Synthesis
import SliceRecords.Proofs.Number.Order

/-!
# The order of tagged fields

Tags that have a place in the order of numbers can be sorted: tagged fields travel by increasing
tag. Main statement: `pairwise_taggedFields`.
-/

namespace SliceRecords

namespace Field

/-- The place of the tag of a field; a field without a tag comes before all tags. -/
def tagPlace (field : Field) : WithBot (WithTop ℚ) :=
  (field.tag.map Number.place).getD ⊥

/-- Tagged fields are ordered like the places of their tags. -/
theorem tagBefore_eq_true_iff {a b : Field} (ha : a.isTagged = true) (hb : b.isTagged = true)
    (hplaceA : a.hasOrderedTag = true) (hplaceB : b.hasOrderedTag = true) :
    a.tagBefore b = true ↔ a.tagPlace < b.tagPlace := by
  obtain ⟨x, hx⟩ := Option.isSome_iff_exists.mp ha
  obtain ⟨y, hy⟩ := Option.isSome_iff_exists.mp hb
  simp only [hasOrderedTag, hx, hy, Option.all_some] at hplaceA hplaceB
  simp only [tagBefore, tagPlace, hx, hy, Option.map_some, Option.getD_some]
  exact Number.lt_eq_true_iff hplaceA hplaceB

/-- One tagged field may travel ahead of another one: its tag is not above the tag of the other. -/
def TagAtMost (a b : Field) : Prop :=
  a.tagPlace ≤ b.tagPlace

/-- Whether one field goes before another by its tag can be decided. -/
instance : DecidableRel TagAtMost := fun a b =>
  inferInstanceAs (Decidable (a.tagPlace ≤ b.tagPlace))

/-- The order by tags is transitive. -/
instance : IsTrans Field TagAtMost :=
  ⟨fun _ _ _ => le_trans⟩

/-- The order by tags is total. -/
instance : Std.Total TagAtMost :=
  ⟨fun a b => le_total a.tagPlace b.tagPlace⟩

/-- Among tagged fields whose tags have an order, not to come behind is to be in order. -/
theorem not_tagBefore_eq {a b : Field} (ha : a.isTagged = true) (hb : b.isTagged = true)
    (hplaceA : a.hasOrderedTag = true) (hplaceB : b.hasOrderedTag = true) :
    (!b.tagBefore a) = decide (a.TagAtMost b) := by
  rw [Bool.eq_iff_iff, Bool.not_eq_true', decide_eq_true_iff, ← Bool.not_eq_true,
    tagBefore_eq_true_iff hb ha hplaceB hplaceA, not_lt]
  rfl

end Field

namespace Layout

/-- Sorting asks only how the members of the list compare. -/
theorem mergeSort_congr {α : Type} {r s : α → α → Bool} {xs : List α}
    (h : ∀ a ∈ xs, ∀ b ∈ xs, r a b = s a b) : xs.mergeSort r = xs.mergeSort s := by
  have hmap := List.map_mergeSort (f := id) h
  simpa only [List.map_id] using hmap

/-- Fields whose tags have a place in the order of numbers are sorted by these places. -/
theorem taggedFields_eq_mergeSort {fields : List Field}
    (h : ∀ field ∈ fields, field.hasOrderedTag = true) :
    taggedFields fields = (fields.filter Field.isTagged).mergeSort (Field.TagAtMost · ·) := by
  have hmem : ∀ field ∈ fields.filter Field.isTagged,
      field.isTagged = true ∧ field.hasOrderedTag = true := by
    intro field hfield
    obtain ⟨hin, htagged⟩ := List.mem_filter.mp hfield
    exact ⟨htagged, h field hin⟩
  have hordered : (fields.filter Field.isTagged).all Field.hasOrderedTag = true :=
    List.all_eq_true.mpr fun field hfield => (hmem field hfield).2
  rw [taggedFields, if_pos hordered]
  apply mergeSort_congr
  intro a ha b hb
  exact Field.not_tagBefore_eq (hmem a ha).1 (hmem b hb).1 (hmem a ha).2 (hmem b hb).2

/-- Tagged fields travel by increasing tag. -/
theorem pairwise_taggedFields {fields : List Field}
    (h : ∀ field ∈ fields, field.hasOrderedTag = true) :
    (taggedFields fields).Pairwise fun a b => b.tagBefore a = false := by
  rw [taggedFields_eq_mergeSort h]
  refine (List.pairwise_mergeSort' Field.TagAtMost (fields.filter Field.isTagged)).imp_of_mem ?_
  intro a b ha hb hab
  rw [List.mem_mergeSort, List.mem_filter] at ha hb
  rw [← Bool.not_eq_true', Field.not_tagBefore_eq ha.2 hb.2 (h a ha.1) (h b hb.1),
    decide_eq_true_iff]
  exact hab

end Layout

end SliceRecords
