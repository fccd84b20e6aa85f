import SliceRecords.Layout
import SliceRecords.Proofs.Instruction.Equality
import SliceRecords.Proofs.Sorting.Permutation

/-!
# What a synthesized block holds

A block that codes fields under one encoding opens the presence bits if there are any, and then has
the instructions of the fields, in the order in which these travel. Main statements:
`mem_synthesize` says which instructions such a block can have, and `required_of_same_synthesize`
that the blocks of the two encodings agree only if no field is optional.
-/

open scoped List

namespace SliceRecords

namespace Field

/-- A field whose type is not optional has no tag. -/
theorem isTagged_eq_false_of_required {field : Field} (h : field.isOptional = false) :
    field.isTagged = false := by
  by_contra htagged
  rw [Bool.not_eq_false] at htagged
  have hoptional := isOptional_of_isTagged htagged
  rw [h] at hoptional
  cases hoptional

/-- The instructions of a field: one without a tag in one of three forms, or a tagged one, which has
a tag format under the older encoding. -/
theorem mem_instructions {field : Field} {encoding : Encoding} {direction : Direction}
    {instruction : Instruction} (h : instruction ∈ field.instructions encoding direction) :
    (field.isTagged = false ∧ ∃ form, instruction = .untagged direction form field) ∨
      (field.isTagged = true ∧ ∃ format size,
        instruction = .tagged direction field encoding format size ∧
          (encoding = .slice1 → format.isSome = true)) := by
  unfold instructions at h
  split at h
  · rename_i htagged
    left
    refine ⟨htagged, ?_⟩
    split at h
    · exact ⟨.plain, List.mem_singleton.mp h⟩
    · split at h
      · exact ⟨.nullable, List.mem_singleton.mp h⟩
      · exact ⟨.bitSequence, List.mem_singleton.mp h⟩
  · rename_i htagged
    right
    split at h
    · cases h
    · rename_i format _
      exact ⟨htagged, some format, none, List.mem_singleton.mp h, fun _ => rfl⟩
  · rename_i htagged
    right
    exact ⟨htagged, none, _, List.mem_singleton.mp h, by simp⟩

/-- A field that is not optional is coded as a bare value under both encodings. -/
theorem instructions_of_required {field : Field} (h : field.isOptional = false)
    (encoding : Encoding) (direction : Direction) :
    field.instructions encoding direction = [.untagged direction .plain field] := by
  simp [instructions, isTagged_eq_false_of_required h, h]

/-- The newer encoding codes every field. -/
theorem instructions_slice2_ne_nil (field : Field) (direction : Direction) :
    field.instructions .slice2 direction ≠ [] := by
  unfold instructions
  cases field.isTagged <;> cases field.isOptional <;> simp

/-- Under the newer encoding a tagged field has an instruction of that encoding. -/
theorem exists_tagged_mem_instructions {field : Field} (h : field.isTagged = true)
    (direction : Direction) :
    ∃ size, .tagged direction field .slice2 none size ∈ field.instructions .slice2 direction := by
  simp [instructions, h]

end Field

namespace Layout

/-- Sorting the tagged fields keeps all of them. -/
theorem taggedFields_perm (fields : List Field) :
    taggedFields fields ~ fields.filter Field.isTagged := by
  unfold taggedFields
  dsimp only
  split
  · exact List.mergeSort_perm _ _
  · cases hsorted :
    Sorting.sort? (fun a b => some (a.tagBefore b)) (fields.filter Field.isTagged) with
    | none => exact List.Perm.refl _
    | some sorted => exact Sorting.sort?_perm hsorted

/-- The fields travel all, in some order. -/
theorem wireOrder_perm (fields : List Field) : wireOrder fields ~ fields := by
  have hsplit := List.filter_append_perm Field.isTagged fields
  calc wireOrder fields ~ untaggedFields fields ++ fields.filter Field.isTagged :=
        (taggedFields_perm fields).append_left _
    _ ~ fields.filter Field.isTagged ++ untaggedFields fields := List.perm_append_comm
    _ ~ fields := hsplit

/-- The order on the wire has all the fields and no others. -/
theorem mem_wireOrder {fields : List Field} {field : Field} :
    field ∈ wireOrder fields ↔ field ∈ fields :=
  (wireOrder_perm fields).mem_iff

/-- The older encoding has no presence bits. -/
@[simp] theorem header_slice1 (fields : List Field) (direction : Direction) :
    header fields .slice1 direction = [] := by
  simp [header, bitSequenceSize, Field.usesBitSequence]

/-- The instructions of a synthesized block: the one that opens the presence bits of the newer
encoding, and those of the fields. -/
theorem mem_synthesize {fields : List Field} {encoding : Encoding} {direction : Direction}
    {instruction : Instruction} (h : instruction ∈ synthesize fields encoding direction) :
    (encoding = .slice2 ∧ ∃ size, instruction = .bitSequence direction size) ∨
      ∃ field ∈ fields, instruction ∈ field.instructions encoding direction := by
  rcases List.mem_append.mp h with hheader | hfields
  · left
    cases encoding with
    | slice1 =>
      rw [header_slice1] at hheader
      cases hheader
    | slice2 =>
      unfold header at hheader
      split at hheader
      · cases hheader
      · exact ⟨rfl, _, List.mem_singleton.mp hheader⟩
  · obtain ⟨field, hfield, hinstruction⟩ := List.mem_flatMap.mp hfields
    exact .inr ⟨field, mem_wireOrder.mp hfield, hinstruction⟩

/-- What holds of the opening of the presence bits, and of the instructions for each field, holds of
the instructions of a synthesized block. -/
theorem forall_mem_synthesize {P : Instruction → Prop} {fields : List Field} {encoding : Encoding}
    {direction : Direction} (hbits : ∀ size, P (.bitSequence direction size))
    (huntagged : ∀ field ∈ fields, ∀ form, P (.untagged direction form field))
    (htagged : ∀ field ∈ fields, ∀ format size, (encoding = .slice1 → format.isSome = true) →
      P (.tagged direction field encoding format size)) :
    ∀ i ∈ synthesize fields encoding direction, P i := by
  intro instruction hmem
  rcases mem_synthesize hmem with ⟨_, size, rfl⟩ | ⟨field, hfield, hinstruction⟩
  · exact hbits size
  · rcases Field.mem_instructions hinstruction with
      ⟨_, form, rfl⟩ | ⟨_, format, size, rfl, hformat⟩
    · exact huntagged field hfield form
    · exact htagged field hfield format size hformat

/-- What is synthesized for fields has the instructions of each of them. -/
theorem instructions_subset_synthesize {fields : List Field} {field : Field} (h : field ∈ fields)
    (encoding : Encoding) (direction : Direction) :
    field.instructions encoding direction ⊆ synthesize fields encoding direction := by
  intro instruction hinstruction
  exact List.mem_append_right _
    (List.mem_flatMap.mpr ⟨field, mem_wireOrder.mpr h, hinstruction⟩)

/-- Without fields there is nothing to do under either encoding. -/
@[simp] theorem synthesize_nil (encoding : Encoding) (direction : Direction) :
    synthesize [] encoding direction = [] := by
  simp [synthesize, header, bitSequenceSize, wireOrder, untaggedFields, taggedFields]

/-- The newer encoding has nothing to do only without fields. -/
theorem synthesize_slice2_eq_nil_iff {fields : List Field} {direction : Direction} :
    synthesize fields .slice2 direction = [] ↔ fields = [] := by
  constructor
  · intro h
    rw [List.eq_nil_iff_forall_not_mem]
    intro field hfield
    apply Field.instructions_slice2_ne_nil field direction
    have hsub := instructions_subset_synthesize hfield .slice2 direction
    rwa [h, List.subset_nil] at hsub
  · rintro rfl
    exact synthesize_nil .slice2 direction

/-- Fields that are not optional travel as declared, as bare values under both encodings. -/
theorem synthesize_of_required {fields : List Field}
    (h : ∀ field ∈ fields, field.isOptional = false) (encoding : Encoding) (direction : Direction) :
    synthesize fields encoding direction = fields.map (.untagged direction .plain) := by
  have huntagged : ∀ field ∈ fields, field.isTagged = false := fun field hfield =>
    Field.isTagged_eq_false_of_required (h field hfield)
  have hheader : header fields encoding direction = [] := by
    have hzero : bitSequenceSize fields encoding = 0 := by
      rw [bitSequenceSize, List.countP_eq_zero]
      intro field hfield
      simp [Field.usesBitSequence, h field hfield]
    rw [header, if_pos hzero]
  have horder : wireOrder fields = fields := by
    have hnone : fields.filter Field.isTagged = [] := by
      rw [List.filter_eq_nil_iff]
      intro field hfield
      simp [huntagged field hfield]
    have hall : fields.filter (fun field => !field.isTagged) = fields := by
      rw [List.filter_eq_self]
      intro field hfield
      simp [huntagged field hfield]
    simp [wireOrder, untaggedFields, taggedFields, hnone, hall]
  rw [synthesize, hheader, horder, List.nil_append, List.map_eq_flatMap]
  apply List.flatMap_congr
  intro field hfield
  exact Field.instructions_of_required (h field hfield) encoding direction

/-- If the blocks of the two encodings agree, an instruction for the newer encoding agrees with one
that the older encoding has. -/
theorem exists_same_slice1 {fields : List Field} {direction : Direction} {instruction : Instruction}
    (h : (synthesize fields .slice1 direction).same (synthesize fields .slice2 direction) = true)
    (hmem : instruction ∈ synthesize fields .slice2 direction) :
    (∃ form field, (Instruction.untagged direction form field).same instruction = true) ∨
      ∃ field format size,
        (Instruction.tagged direction field .slice1 format size).same instruction = true := by
  obtain ⟨older, holder, hsame⟩ := Block.exists_mem_of_same h hmem
  rcases mem_synthesize holder with ⟨hencoding, _⟩ | ⟨field, _, hfield⟩
  · cases hencoding
  · rcases Field.mem_instructions hfield with ⟨_, form, rfl⟩ | ⟨_, format, size, rfl, _⟩
    · exact .inl ⟨form, field, hsame⟩
    · exact .inr ⟨field, format, size, hsame⟩

/-- The blocks of the two encodings agree only if no field is optional. An optional field without a
tag opens the presence bits of the newer encoding, and a tagged one names its encoding. -/
theorem required_of_same_synthesize {fields : List Field} {direction : Direction}
    (h : (synthesize fields .slice1 direction).same (synthesize fields .slice2 direction) = true) :
    ∀ field ∈ fields, field.isOptional = false := by
  intro field hfield
  by_contra hoptional
  rw [Bool.not_eq_false] at hoptional
  cases htagged : field.isTagged with
  | true =>
    obtain ⟨size, hmem⟩ := Field.exists_tagged_mem_instructions htagged direction
    rcases exists_same_slice1 h (instructions_subset_synthesize hfield .slice2 direction hmem) with
      ⟨form, other, hsame⟩ | ⟨other, format, older, hsame⟩
    · simp [Instruction.same] at hsame
    · simp [Instruction.same] at hsame
  | false =>
    have hbits : field.usesBitSequence .slice2 = true := by
      simp [Field.usesBitSequence, hoptional, htagged]
    have hsize : bitSequenceSize fields .slice2 ≠ 0 := by
      rw [bitSequenceSize, ne_eq, List.countP_eq_zero]
      intro hnone
      exact hnone field hfield hbits
    have hmem : .bitSequence direction (.integer (bitSequenceSize fields .slice2)) ∈
        synthesize fields .slice2 direction := by
      rw [synthesize, header, if_neg hsize]
      exact List.mem_append_left _ (List.mem_singleton_self _)
    rcases exists_same_slice1 h hmem with ⟨form, other, hsame⟩ | ⟨other, format, older, hsame⟩
    · simp [Instruction.same] at hsame
    · simp [Instruction.same] at hsame

/-- If the blocks of the two encodings agree, they are equal. -/
theorem synthesize_eq_of_same {fields : List Field} {direction : Direction}
    (h : (synthesize fields .slice1 direction).same (synthesize fields .slice2 direction) = true) :
    synthesize fields .slice1 direction = synthesize fields .slice2 direction := by
  have hrequired := required_of_same_synthesize h
  rw [synthesize_of_required hrequired, synthesize_of_required hrequired]

end Layout

end SliceRecords
