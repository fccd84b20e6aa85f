import SliceRecords.Proofs.Layout.Evolution

/-!
# The parts of a synthesized block

A block that codes fields under one encoding opens the presence bits, if there are any, then has one
instruction for each field without a tag, as declared, and last one for each tagged field that the
encoding has a frame for, by increasing tag. It opens as many presence bits as its instructions use.
Main statement: `synthesize_isLaidOut`.
-/

open scoped List

namespace SliceRecords

namespace Instruction

/-- The direction of an instruction; the framing of a struct shows none. -/
def direction? : Instruction → Option Direction
  | untagged direction _ _ => some direction
  | tagged direction _ _ _ _ => some direction
  | bitSequence direction _ => some direction
  | guarded direction _ => some direction
  | branch direction _ _ => some direction
  | skipTagged | tagEndMarker | blank => none

/-- An instruction that opens the presence bits. -/
def opensBits : Instruction → Bool
  | bitSequence _ _ => true
  | _ => false

/-- An instruction for a field whose presence a bit tells. -/
def usesBit : Instruction → Bool
  | untagged _ .bitSequence _ => true
  | _ => false

/-- The instruction of a tagged field: a frame of an encoding. -/
def Frames (encoding : Encoding) (direction : Direction) (field : Field)
    (instruction : Instruction) : Prop :=
  ∃ format size, instruction = .tagged direction field encoding format size

variable {encoding : Encoding} {direction : Direction} {field : Field} {instruction : Instruction}

/-- An instruction that frames a field opens no bit sequence. -/
theorem Frames.opensBits_eq_false (h : Frames encoding direction field instruction) :
    instruction.opensBits = false := by
  obtain ⟨format, size, rfl⟩ := h
  rfl

/-- An instruction that frames a field uses no bit. -/
theorem Frames.usesBit_eq_false (h : Frames encoding direction field instruction) :
    instruction.usesBit = false := by
  obtain ⟨format, size, rfl⟩ := h
  rfl

end Instruction

namespace Field

/-- The form in which a field without a tag travels under an encoding. -/
def form (field : Field) (encoding : Encoding) : FieldForm :=
  if field.isOptional then
    match encoding with
    | .slice1 => .nullable
    | .slice2 => .bitSequence
  else .plain

/-- A tagged field that an encoding has a frame for: the newer one has a frame for every type, the
older one for the types that have a tag format. -/
def isFramed (field : Field) (encoding : Encoding) : Bool :=
  field.isTagged && (encoding == .slice2 || field.type.asRequired.tagFormat.isSome)

/-- A field whose tag equals a number. -/
def hasTag (field : Field) (tag : Number) : Bool :=
  Instruction.sameNumber field.tag (some tag)

/-- A field without a tag has one instruction. -/
theorem instructions_of_untagged {field : Field} (h : field.isTagged = false) (encoding : Encoding)
    (direction : Direction) :
    field.instructions encoding direction = [.untagged direction (field.form encoding) field] := by
  unfold instructions form
  rw [h]
  cases field.isOptional <;> cases encoding <;> rfl

/-- A tagged field has one instruction if the encoding has a frame for it, and none if not. -/
theorem instructions_of_tagged {field : Field} (h : field.isTagged = true) (encoding : Encoding)
    (direction : Direction) :
    (field.isFramed encoding = true ∧
     ∃ instruction, Instruction.Frames encoding direction field instruction ∧
       field.instructions encoding direction = [instruction]) ∨
    (field.isFramed encoding = false ∧ field.instructions encoding direction = []) := by
  unfold instructions isFramed
  rw [h]
  cases encoding with
  | slice1 =>
    cases hformat : field.type.asRequired.tagFormat with
    | none => exact .inr ⟨rfl, rfl⟩
    | some format => exact .inl ⟨rfl, _, ⟨some format, none, rfl⟩, rfl⟩
  | slice2 => exact .inl ⟨rfl, _, ⟨none, _, rfl⟩, rfl⟩

/-- Whether a bit tells the presence of a field without a tag. -/
theorem usesBit_form (field : Field) (encoding : Encoding) (direction : Direction) :
    Instruction.usesBit (.untagged direction (field.form encoding) field) =
      (encoding == .slice2 && field.isOptional) := by
  unfold form
  cases field.isOptional <;> cases encoding <;> rfl

/-- The place of a field with a tag is that of the tag. -/
theorem tagPlace_of_hasTag {field : Field} {tag : Number} (h : field.hasTag tag = true) :
    field.tagPlace = tag.place := by
  unfold hasTag at h
  cases htag : field.tag with
  | none => simp [htag, Instruction.sameNumber] at h
  | some number =>
    rw [htag] at h
    have hplace : number.place = tag.place := Number.place_eq_of_same h
    rw [tagPlace, htag, Option.map_some, Option.getD_some, hplace]

/-- Fields of equal tags may travel in either order. -/
theorem tagAtMost_of_hasTag {a b : Field} {tag : Number} (ha : a.hasTag tag = true)
    (hb : b.hasTag tag = true) : a.TagAtMost b :=
  (tagPlace_of_hasTag ha).trans_le (tagPlace_of_hasTag hb).ge

end Field

namespace Layout

/-- What the parts of a block are, and the order in which the tagged fields travel. The order
of tags is that of numbers, so it is stated for tags that have a place among these; what is
not a number is no tag. -/
structure IsLaidOut (fields : List Field) (encoding : Encoding) (direction : Direction)
    (opening plain framed : Block) (order : List Field) : Prop where
  /-- The newer encoding opens a presence bit for each optional field without a tag. -/
  opening_eq : opening =
    if encoding = .slice2 ∧ 0 < (untaggedFields fields).countP Field.isOptional then
      [.bitSequence direction (.integer ((untaggedFields fields).countP Field.isOptional))]
    else []
  /-- Fields without tags travel as declared. -/
  plain_eq : plain =
    (untaggedFields fields).map fun field => .untagged direction (field.form encoding) field
  /-- Tagged fields travel in their frames. -/
  framed_order : List.Forall₂ (Instruction.Frames encoding direction) order framed
  /-- Every tagged field that has a frame travels once. -/
  order_perm : order ~ fields.filter fun field => field.isFramed encoding
  /-- Tags never decrease. -/
  order_sorted : (∀ field ∈ fields, field.hasOrderedTag = true) → order.Pairwise Field.TagAtMost
  /-- Equal tags travel as declared. -/
  order_stable : (∀ field ∈ fields, field.hasOrderedTag = true) → ∀ tag,
    (order.filter fun field => field.hasTag tag) =
      (fields.filter fun field => field.isFramed encoding).filter fun field => field.hasTag tag
  /-- Presence bits are opened in one place. -/
  opensBits_eq : ∀ instruction ∈ plain ++ framed, instruction.opensBits = false
  /-- As many presence bits are used as there are. -/
  countP_usesBit : (opening ++ plain ++ framed).countP Instruction.usesBit =
    if encoding = .slice2 then (untaggedFields fields).countP Field.isOptional else 0
  /-- All instructions have the direction of the block. -/
  direction_eq : ∀ instruction ∈ opening ++ plain ++ framed, instruction.direction? = some direction

variable {fields : List Field} {encoding : Encoding} {direction : Direction}

/-- The newer encoding has a presence bit for each optional field without a tag. -/
theorem bitSequenceSize_slice2 (fields : List Field) :
    bitSequenceSize fields .slice2 = (untaggedFields fields).countP Field.isOptional := by
  rw [bitSequenceSize, untaggedFields, List.countP_filter]
  exact List.countP_congr fun field _ => by simp [Field.usesBitSequence]

/-- The header is a bit sequence with a bit for each optional untagged field, under the second
encoding and if there are such fields. -/
theorem header_eq (fields : List Field) (encoding : Encoding) (direction : Direction) :
    header fields encoding direction =
      if encoding = .slice2 ∧ 0 < (untaggedFields fields).countP Field.isOptional then
        [.bitSequence direction (.integer ((untaggedFields fields).countP Field.isOptional))]
      else [] := by
  cases encoding with
  | slice1 => simp
  | slice2 =>
    rw [header, bitSequenceSize_slice2]
    by_cases hnone : (untaggedFields fields).countP Field.isOptional = 0
    · simp [hnone]
    · simp [hnone, Nat.pos_of_ne_zero hnone]

/-- Each untagged field has one instruction, of its form under the encoding. -/
theorem flatMap_instructions_untaggedFields (fields : List Field) (encoding : Encoding)
    (direction : Direction) :
    ((untaggedFields fields).flatMap fun field => field.instructions encoding direction) =
      (untaggedFields fields).map fun field => .untagged direction (field.form encoding) field := by
  rw [List.map_eq_flatMap]
  apply List.flatMap_congr
  intro field hfield
  have huntagged : field.isTagged = false := by simpa using (List.mem_filter.mp hfield).2
  exact Field.instructions_of_untagged huntagged encoding direction

/-- The instructions of tagged fields frame those that the encoding has a frame for, one by one. -/
theorem forall₂_flatMap_instructions (h : ∀ field ∈ fields, field.isTagged = true)
    (encoding : Encoding) (direction : Direction) :
    List.Forall₂ (Instruction.Frames encoding direction)
      (fields.filter fun field => field.isFramed encoding)
      (fields.flatMap fun field => field.instructions encoding direction) := by
  induction fields with
  | nil => exact .nil
  | cons field rest ih =>
    obtain ⟨htagged, hrest⟩ := List.forall_mem_cons.mp h
    rw [List.flatMap_cons]
    rcases Field.instructions_of_tagged htagged encoding direction with
      ⟨hframed, instruction, hframes, hone⟩ | ⟨hunframed, hnone⟩
    · rw [List.filter_cons, if_pos hframed, hone]
      exact .cons hframes (ih hrest)
    · rw [List.filter_cons, if_neg (by simp [hunframed]), hnone, List.nil_append]
      exact ih hrest

/-- Tagged fields have tags. -/
theorem isTagged_of_mem_taggedFields {field : Field} (h : field ∈ taggedFields fields) :
    field.isTagged = true :=
  (List.mem_filter.mp ((taggedFields_perm fields).mem_iff.mp h)).2

/-- The tagged fields that an encoding has a frame for, in the order in which they travel. -/
def framedOrder (fields : List Field) (encoding : Encoding) : List Field :=
  (taggedFields fields).filter fun field => field.isFramed encoding

/-- What has a frame is tagged. -/
theorem filter_isFramed_filter_isTagged (fields : List Field) (encoding : Encoding) :
    ((fields.filter Field.isTagged).filter fun field => field.isFramed encoding) =
      fields.filter fun field => field.isFramed encoding := by
  rw [List.filter_filter]
  apply List.filter_congr
  intro field _
  simp only [Field.isFramed]
  cases field.isTagged <;> simp

/-- The framed fields are all the fields that are framed, in some order. -/
theorem framedOrder_perm (fields : List Field) (encoding : Encoding) :
    framedOrder fields encoding ~ fields.filter fun field => field.isFramed encoding := by
  rw [← filter_isFramed_filter_isTagged]
  exact (taggedFields_perm fields).filter _

/-- If no tag is without order, the framed fields are in the order of their tags. -/
theorem pairwise_framedOrder (h : ∀ field ∈ fields, field.hasOrderedTag = true)
    (encoding : Encoding) : (framedOrder fields encoding).Pairwise Field.TagAtMost := by
  rw [framedOrder, taggedFields_eq_mergeSort h]
  exact (List.pairwise_mergeSort' Field.TagAtMost _).filter _

/-- Framed fields with the same tag keep their declared order. -/
theorem filter_hasTag_framedOrder (h : ∀ field ∈ fields, field.hasOrderedTag = true)
    (encoding : Encoding) (tag : Number) :
    ((framedOrder fields encoding).filter fun field => field.hasTag tag) = (fields.filter
      fun field => field.isFramed encoding).filter fun field => field.hasTag tag := by
  have hstable : ((taggedFields fields).filter fun field => field.hasTag tag) =
      (fields.filter Field.isTagged).filter fun field => field.hasTag tag := by
    rw [taggedFields_eq_mergeSort h]
    exact Sorting.filter_mergeSort fun _ _ _ _ ha hb => Field.tagAtMost_of_hasTag ha hb
  rw [framedOrder, List.filter_comm, hstable, List.filter_comm, filter_isFramed_filter_isTagged]

/-- The instructions of the fields without tags and those of the tagged
fields follow the opening. -/
theorem synthesize_eq (fields : List Field) (encoding : Encoding) (direction : Direction) :
    synthesize fields encoding direction = header fields encoding direction ++
      ((untaggedFields fields).map fun field => .untagged direction (field.form encoding) field) ++
      (taggedFields fields).flatMap fun field => field.instructions encoding direction := by
  rw [synthesize, wireOrder, List.flatMap_append, flatMap_instructions_untaggedFields,
    List.append_assoc]

/-- The tagged fields that the encoding has a frame for are framed one by one. -/
theorem forall₂_framedOrder (fields : List Field) (encoding : Encoding) (direction : Direction) :
    List.Forall₂ (Instruction.Frames encoding direction) (framedOrder fields encoding)
      ((taggedFields fields).flatMap fun field => field.instructions encoding direction) :=
  forall₂_flatMap_instructions (fun _ => isTagged_of_mem_taggedFields) encoding direction

/-- Each instruction of the tagged fields frames one of them. -/
theorem exists_frames_of_mem {instruction : Instruction}
    (h : instruction ∈
      (taggedFields fields).flatMap fun field => field.instructions encoding direction) :
    ∃ field, Instruction.Frames encoding direction field instruction := by
  obtain ⟨field, _, hframes⟩ :=
    exists_mem_of_forall₂ (forall₂_framedOrder fields encoding direction) h
  exact ⟨field, hframes⟩

/-- The fields do not open presence bits. -/
theorem opensBits_of_mem_fields {instruction : Instruction}
    (h : instruction ∈ ((untaggedFields fields).map fun field =>
        Instruction.untagged direction (field.form encoding) field) ++
      (taggedFields fields).flatMap fun field => field.instructions encoding direction) :
    instruction.opensBits = false := by
  rcases List.mem_append.mp h with hplain | hframed
  · obtain ⟨field, _, rfl⟩ := List.mem_map.mp hplain
    rfl
  · obtain ⟨field, hframes⟩ := exists_frames_of_mem hframed
    exact hframes.opensBits_eq_false

/-- A block uses as many presence bits as there are optional fields without a
tag, if it has such bits. -/
theorem countP_usesBit_synthesize (fields : List Field) (encoding : Encoding)
    (direction : Direction) :
    (synthesize fields encoding direction).countP Instruction.usesBit =
      if encoding = .slice2 then (untaggedFields fields).countP Field.isOptional else 0 := by
  have hopening : (header fields encoding direction).countP Instruction.usesBit = 0 := by
    rw [header_eq]
    split <;> rfl
  have hframed : ((taggedFields fields).flatMap fun field =>
      field.instructions encoding direction).countP Instruction.usesBit = 0 := by
    rw [List.countP_eq_zero]
    intro instruction hmem
    obtain ⟨field, hframes⟩ := exists_frames_of_mem hmem
    simp [hframes.usesBit_eq_false]
  rw [synthesize_eq, List.countP_append, List.countP_append, hopening, hframed, List.countP_map,
    Nat.zero_add, Nat.add_zero]
  cases encoding <;> simp [Function.comp_def, Field.usesBit_form]

/-- What is synthesized for a direction goes in this direction. -/
theorem direction?_of_mem_synthesize {instruction : Instruction}
    (h : instruction ∈ synthesize fields encoding direction) :
    instruction.direction? = some direction := by
  revert instruction
  apply forall_mem_synthesize
  · exact fun _ => rfl
  · exact fun _ _ _ => rfl
  · exact fun _ _ _ _ _ => rfl

/-- A block that codes fields has three parts: the opening of the presence bits, the fields without
tags, and the tagged fields. -/
theorem synthesize_isLaidOut (fields : List Field) (encoding : Encoding) (direction : Direction) :
    ∃ (opening plain framed : Block) (order : List Field),
      synthesize fields encoding direction = opening ++ plain ++ framed ∧
        IsLaidOut fields encoding direction opening plain framed order := by
  have hblock := synthesize_eq fields encoding direction
  refine ⟨_, _, _, framedOrder fields encoding, hblock, ?_⟩
  constructor
  · exact header_eq fields encoding direction
  · rfl
  · exact forall₂_framedOrder fields encoding direction
  · exact framedOrder_perm fields encoding
  · exact fun hordered => pairwise_framedOrder hordered encoding
  · exact fun hordered => filter_hasTag_framedOrder hordered encoding
  · exact fun _ => opensBits_of_mem_fields
  · rw [← hblock]
    exact countP_usesBit_synthesize fields encoding direction
  · rw [← hblock]
    exact fun _ => direction?_of_mem_synthesize

/-- Two fields of one tag, written differently, stay in their places under the older encoding, which
leaves out a field between them. -/
theorem synthesize_isLaidOut_equal :
    let fields := [optionalField "last" .string (some (.integer 2)), optionalField "bit" .bool none,
      optionalField "new" .varint32 (some (.integer 1)),
      optionalField "same" .int32 (some (.double (.ofDecimal false 20 (-1))))]
    (∀ field ∈ fields, field.hasOrderedTag = true) ∧
      ∃ (opening plain framed : Block) (order : List Field),
        synthesize fields .slice1 .encode = opening ++ plain ++ framed ∧ opening = [] ∧
        plain.length = 1 ∧ order.Pairwise Field.TagAtMost ∧
        (order.filter fun field => field.hasTag (.integer 2)).map Field.name =
          ["last", "same"] := by
  intro fields
  have hordered : ∀ field ∈ fields, field.hasOrderedTag = true := by decide +kernel
  obtain ⟨opening, plain, framed, order, hblock, hparts⟩ :=
    synthesize_isLaidOut fields .slice1 .encode
  refine ⟨hordered, opening, plain, framed, order, hblock, hparts.opening_eq, ?_,
    hparts.order_sorted hordered, ?_⟩
  · rw [hparts.plain_eq, List.length_map]
    decide +kernel
  · rw [hparts.order_stable hordered]
    decide +kernel

end Layout

end SliceRecords
