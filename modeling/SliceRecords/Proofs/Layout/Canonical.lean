import SliceRecords.Proofs.Instruction.Bare
import SliceRecords.Proofs.Layout.TagOrder

/-!
# One order for tagged fields

Fields with tags that differ travel in one order, wherever they are declared, and a synthesized
block is made from this order and from bare fields alone. Main statements: `map_bare_wireOrder_eq`
and `bareBlock_synthesize_congr`.
-/

open scoped List

namespace SliceRecords

namespace Field

/-- The instructions of a bare field are those of the field with bare fields in them. -/
theorem instructions_bare (field : Field) (encoding : Encoding) (direction : Direction) :
    field.bare.instructions encoding direction =
      (field.instructions encoding direction).map Instruction.bare := by
  have htype : field.bare.type = field.type := rfl
  have hoptional : field.bare.isOptional = field.isOptional := rfl
  unfold instructions
  rw [bare_isTagged, htype, hoptional]
  cases field.isTagged with
  | false => cases field.isOptional <;> cases encoding <;> rfl
  | true =>
    cases encoding with
    | slice1 => cases field.type.asRequired.tagFormat <;> rfl
    | slice2 => rfl

/-- A field that travels ahead of another one has a tag, and so has the other; the tag of the first
one comes first in the order of numbers. -/
theorem of_tagBefore {a b : Field} (h : a.tagBefore b = true) :
    a.hasOrderedTag = true ∧ b.hasOrderedTag = true ∧ a.tagPlace < b.tagPlace := by
  unfold tagBefore at h
  split at h
  · rename_i x y hx hy
    obtain ⟨hplaceX, hplaceY⟩ := Number.isOrdered_of_lt h
    refine ⟨by simpa [hasOrderedTag, hx] using hplaceX, by simpa [hasOrderedTag, hy] using hplaceY,
      ?_⟩
    simpa [tagPlace, hx, hy] using (Number.lt_eq_true_iff hplaceX hplaceY).mp h
  · cases h

/-- The tags of two fields differ in value: one is below the other. -/
def TagsDiffer (a b : Field) : Prop :=
  a.tagBefore b = true ∨ b.tagBefore a = true

/-- Having different tags is symmetric. -/
theorem TagsDiffer.symm {a b : Field} (h : a.TagsDiffer b) : b.TagsDiffer a :=
  Or.symm h

/-- Whether two fields have different tags can be decided. -/
instance : DecidableRel TagsDiffer := fun a b =>
  inferInstanceAs (Decidable (a.tagBefore b = true ∨ b.tagBefore a = true))

end Field

namespace Layout

/-- A list in which one value is related to no value at all has no other values. -/
theorem eq_singleton_of_pairwise {α : Type} {R : α → α → Prop} {items : List α}
    (h : items.Pairwise R) {a : α} (ha : a ∈ items) (hleft : ∀ b, ¬R a b) (hright : ∀ b, ¬R b a) :
    items = [a] := by
  obtain ⟨before, after, rfl⟩ := List.append_of_mem ha
  rw [List.pairwise_append, List.pairwise_cons] at h
  obtain ⟨_, ⟨hafter, _⟩, hbefore⟩ := h
  have hnoneBefore : before = [] := List.eq_nil_iff_forall_not_mem.mpr fun b hb =>
    hright b (hbefore b hb a List.mem_cons_self)
  have hnoneAfter : after = [] := List.eq_nil_iff_forall_not_mem.mpr fun b hb =>
    hleft b (hafter b hb)
  rw [hnoneBefore, hnoneAfter, List.nil_append]

/-- Fields whose tags differ travel strictly by increasing tag. -/
theorem pairwise_tagBefore_taggedFields {fields : List Field}
    (h : (fields.filter Field.isTagged).Pairwise Field.TagsDiffer) :
    (taggedFields fields).Pairwise fun a b => a.tagBefore b = true := by
  have hdiffer : (taggedFields fields).Pairwise Field.TagsDiffer :=
    ((taggedFields_perm fields).pairwise_iff Field.TagsDiffer.symm).mpr h
  by_cases hordered : ∀ field ∈ fields, field.hasOrderedTag = true
  · refine (hdiffer.and (pairwise_taggedFields hordered)).imp ?_
    rintro a b ⟨hab | hba, hnot⟩
    · exact hab
    · rw [hba] at hnot
      cases hnot
  · -- A tag without a place differs from no other one, so its field is the only one with a tag.
    push Not at hordered
    obtain ⟨field, hfield, hplace⟩ := hordered
    have htagged : field.isTagged = true := by
      cases htag : field.tag with
      | none => simp [Field.hasOrderedTag, htag] at hplace
      | some tag => simp [Field.isTagged, htag]
    have hmem : field ∈ taggedFields fields :=
      (taggedFields_perm fields).mem_iff.mpr (List.mem_filter.mpr ⟨hfield, htagged⟩)
    have hnone (other : Field) : ¬field.TagsDiffer other := by
      rintro (hbefore | hafter)
      · exact hplace (Field.of_tagBefore hbefore).1
      · exact hplace (Field.of_tagBefore hafter).2.1
    rw [eq_singleton_of_pairwise hdiffer hmem hnone fun other h => hnone other h.symm]
    exact List.pairwise_singleton _ field

/-- Fields that are declared in different places travel in one order: those without tags
have the same bare fields as declared, and those with tags the same ones up to order,
with tags that differ. -/
theorem map_bare_wireOrder_eq {as bs : List Field}
    (huntagged : (untaggedFields as).map Field.bare = (untaggedFields bs).map Field.bare)
    (htagged :
      (as.filter Field.isTagged).map Field.bare ~ (bs.filter Field.isTagged).map Field.bare)
    (hdiffer : (as.filter Field.isTagged).Pairwise Field.TagsDiffer) :
    (wireOrder as).map Field.bare = (wireOrder bs).map Field.bare := by
  have hdifferB : (bs.filter Field.isTagged).Pairwise Field.TagsDiffer := by
    have hbareA : ((as.filter Field.isTagged).map Field.bare).Pairwise Field.TagsDiffer :=
      List.pairwise_map.mpr hdiffer
    have hbareB := List.pairwise_map.mp ((htagged.pairwise_iff Field.TagsDiffer.symm).mp hbareA)
    exact hbareB
  have hsortedA : ((taggedFields as).map Field.bare).Pairwise fun a b => a.tagBefore b = true :=
    List.pairwise_map.mpr (pairwise_tagBefore_taggedFields hdiffer)
  have hsortedB : ((taggedFields bs).map Field.bare).Pairwise fun a b => a.tagBefore b = true :=
    List.pairwise_map.mpr (pairwise_tagBefore_taggedFields hdifferB)
  have hperm : (taggedFields as).map Field.bare ~ (taggedFields bs).map Field.bare :=
    calc (taggedFields as).map Field.bare ~ (as.filter Field.isTagged).map Field.bare :=
          (taggedFields_perm as).map Field.bare
      _ ~ (bs.filter Field.isTagged).map Field.bare := htagged
      _ ~ (taggedFields bs).map Field.bare := ((taggedFields_perm bs).map Field.bare).symm
  have heq : (taggedFields as).map Field.bare = (taggedFields bs).map Field.bare := by
    refine hperm.eq_of_pairwise ?_ hsortedA hsortedB
    intro a b _ _ hab hba
    exact absurd (Field.of_tagBefore hab).2.2 (Field.of_tagBefore hba).2.2.asymm
  rw [wireOrder, wireOrder, List.map_append, List.map_append, huntagged, heq]

/-- The number of presence bits can be read off the bare fields in the order
in which they travel. -/
theorem bitSequenceSize_eq (fields : List Field) (encoding : Encoding) :
    bitSequenceSize fields encoding =
      bitSequenceSize ((wireOrder fields).map Field.bare) encoding := by
  rw [bitSequenceSize, bitSequenceSize, List.countP_map]
  exact ((wireOrder_perm fields).countP_eq _).symm

/-- A synthesized block with bare fields is made from the bare fields in the order
in which they travel. -/
theorem bareBlock_synthesize (fields : List Field) (encoding : Encoding) (direction : Direction) :
    Instruction.bareBlock (synthesize fields encoding direction) =
      header ((wireOrder fields).map Field.bare) encoding direction ++
        ((wireOrder fields).map Field.bare).flatMap fun field =>
          field.instructions encoding direction := by
  have hheader : (header fields encoding direction).map Instruction.bare =
      header ((wireOrder fields).map Field.bare) encoding direction := by
    rw [header, header, ← bitSequenceSize_eq]
    split <;> rfl
  rw [Instruction.bareBlock_eq_map, synthesize, List.map_append, hheader, List.map_flatMap,
    List.flatMap_map]
  congr 2
  funext field
  exact (Field.instructions_bare field encoding direction).symm

/-- Fields whose bare fields travel in one order have one synthesized block,
up to what is not bare. -/
theorem bareBlock_synthesize_congr {as bs : List Field}
    (h : (wireOrder as).map Field.bare = (wireOrder bs).map Field.bare) (encoding : Encoding)
    (direction : Direction) :
    Instruction.bareBlock (synthesize as encoding direction) =
      Instruction.bareBlock (synthesize bs encoding direction) := by
  rw [bareBlock_synthesize, bareBlock_synthesize, h]

end Layout

end SliceRecords
