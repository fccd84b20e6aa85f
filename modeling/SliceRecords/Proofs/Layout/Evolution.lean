import SliceRecords.Proofs.Layout.TagOrder
import SliceRecords.Proofs.Sorting.Stability

/-!
# Adding a tagged field

A tagged field can join a struct without disturbing what the struct has on the wire: its own
instructions come in at one place behind the fields without tags, and all others stay as they are.
This is what lets two peers differ in the tagged fields that they know. Main statement:
`exists_split_synthesize_insert`.
-/

namespace SliceRecords.Layout

variable {front back : List Field} {field : Field}

/-- A tagged field is not among the fields without tags. -/
theorem untaggedFields_insert (h : field.isTagged = true) :
    untaggedFields (front ++ field :: back) = untaggedFields (front ++ back) := by
  simp [untaggedFields, h]

/-- A tagged field needs no presence bit. -/
theorem bitSequenceSize_insert (h : field.isTagged = true) (encoding : Encoding) :
    bitSequenceSize (front ++ field :: back) encoding =
      bitSequenceSize (front ++ back) encoding := by
  have hbit : field.usesBitSequence encoding = false := by simp [Field.usesBitSequence, h]
  simp [bitSequenceSize, hbit]

/-- A tagged field more leaves the header as it is. -/
theorem header_insert (h : field.isTagged = true) (encoding : Encoding) (direction : Direction) :
    header (front ++ field :: back) encoding direction =
      header (front ++ back) encoding direction := by
  rw [header, header, bitSequenceSize_insert h]

/-- A tagged field comes somewhere among the tagged fields and leaves these in their order, also if
it shares its tag with some of them. -/
theorem exists_split_taggedFields_insert (h : field.isTagged = true)
    (hordered : ∀ other ∈ front ++ field :: back, other.hasOrderedTag = true) :
    ∃ before after, taggedFields (front ++ back) = before ++ after ∧
      taggedFields (front ++ field :: back) = before ++ field :: after := by
  have hothers : ∀ other ∈ front ++ back, other.hasOrderedTag = true := by
    intro other hother
    apply hordered other
    rcases List.mem_append.mp hother with hfront | hback
    · exact List.mem_append_left _ hfront
    · exact List.mem_append_right _ (List.mem_cons_of_mem field hback)
  rw [taggedFields_eq_mergeSort hothers, taggedFields_eq_mergeSort hordered, List.filter_append,
    List.filter_append, List.filter_cons_of_pos h]
  exact Sorting.exists_split_mergeSort_insert _ _ field

/-- A tagged field that joins a list of fields, wherever in the list, adds its own instructions at
one place and changes no others. The presence bits and the fields without tags come before that
place, so only tagged fields come behind it. Tags may be equal; what is not a number is no tag, and
no document has such a one. -/
theorem exists_split_synthesize_insert (h : field.isTagged = true)
    (hordered : ∀ other ∈ front ++ field :: back, other.hasOrderedTag = true) (encoding : Encoding)
    (direction : Direction) :
    ∃ before after : Block,
      synthesize (front ++ back) encoding direction = before ++ after ∧
      synthesize (front ++ field :: back) encoding direction =
        before ++ field.instructions encoding direction ++ after ∧
      header (front ++ field :: back) encoding direction =
        header (front ++ back) encoding direction ∧
      (header (front ++ back) encoding direction ++ (untaggedFields (front ++ back)).flatMap
        fun other => other.instructions encoding direction) <+: before ∧
      ∀ instruction ∈ after, ∃ other ∈ front ++ back,
          other.isTagged = true ∧ instruction ∈ other.instructions encoding direction := by
  obtain ⟨earlier, later, hwithout, hwith⟩ := exists_split_taggedFields_insert h hordered
  let code (fields : List Field) : Block := fields.flatMap fun other =>
    other.instructions encoding direction
  refine ⟨header (front ++ back) encoding direction ++ code (untaggedFields (front ++ back)) ++
    code earlier, code later, ?_, ?_, header_insert h encoding direction, ?_, ?_⟩
  · rw [synthesize, wireOrder, hwithout]
    simp only [code, List.flatMap_append, List.append_assoc]
  · rw [synthesize, wireOrder, hwith, header_insert h, untaggedFields_insert h]
    simp only [code, List.flatMap_append, List.flatMap_cons, List.append_assoc]
  · exact List.prefix_append _ _
  · intro instruction hinstruction
    obtain ⟨other, hother, hmem⟩ := List.mem_flatMap.mp hinstruction
    have htagged : other ∈ taggedFields (front ++ back) := by
      rw [hwithout]
      exact List.mem_append_right _ hother
    obtain ⟨hin, hothertag⟩ := List.mem_filter.mp ((taggedFields_perm _).mem_iff.mp htagged)
    exact ⟨other, hin, hothertag, hmem⟩

/-- A field of an optional primitive type with a tag. -/
def optionalField (name : String) (keyword : Primitive) (tag : Option Number) : Field :=
  { name
    type := { kind := .primitive, name := some keyword.keyword, optional := true }
    tag }

/-- Among fields with and without tags, one joins with a tag that another one
has, written differently. -/
theorem exists_split_synthesize_insert_equal :
    let front := [optionalField "first" .string (some (.integer 1)), optionalField "bit" .bool none]
    let back := [optionalField "last" .int32 (some (.double (.ofDecimal false 10 (-1))))]
    let field := optionalField "new" .varint32 (some (.integer 1))
    (∀ other ∈ front ++ field :: back, other.hasOrderedTag = true) ∧
      ∃ before after : Block,
        synthesize (front ++ back) .slice2 .encode = before ++ after ∧
        synthesize (front ++ field :: back) .slice2 .encode =
          before ++ field.instructions .slice2 .encode ++ after ∧
        [.bitSequence .encode (.integer 1),
          .untagged .encode .bitSequence (optionalField "bit" .bool none)] <+: before := by
  intro front back field
  have htagged : field.isTagged = true := rfl
  have hordered : ∀ other ∈ front ++ field :: back, other.hasOrderedTag = true := by decide +kernel
  obtain ⟨before, after, hwithout, hwith, _, hprefix, _⟩ :=
    exists_split_synthesize_insert htagged hordered .slice2 .encode
  exact ⟨hordered, before, after, hwithout, hwith, hprefix⟩

end SliceRecords.Layout
