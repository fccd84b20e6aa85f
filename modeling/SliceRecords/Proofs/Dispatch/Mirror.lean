import SliceRecords.Proofs.Dispatch.Selection

/-!
# Decoding mirrors encoding

The block that decodes a list of fields is the mirror image of the block that encodes it: each
instruction that writes becomes the one that reads, in the same place of the same guards and
branches. Only the size of a tagged value is left out, which a reader takes from the wire. Main
statement: `generate_decode`.
-/

namespace SliceRecords

namespace Instruction

mutual

/-- The instruction that reads what an instruction writes; what does not write stays as it is. -/
def mirror : Instruction → Instruction
  | untagged .encode form field => untagged .decode form field
  | tagged .encode field encoding format _ => tagged .decode field encoding format none
  | bitSequence .encode size => bitSequence .decode size
  | guarded .encode block => guarded .decode (mirrorBlock block)
  | branch .encode slice1 slice2 => branch .decode (mirrorBlock slice1) (mirrorBlock slice2)
  | instruction => instruction

/-- A block of instructions that read what those of a block write. -/
def mirrorBlock : List Instruction → List Instruction
  | [] => []
  | instruction :: rest => mirror instruction :: mirrorBlock rest

end

/-- A block is mirrored instruction by instruction. -/
theorem mirrorBlock_eq_map (block : Block) : mirrorBlock block = block.map mirror := by
  induction block with
  | nil => rfl
  | cons instruction rest ih => rw [mirrorBlock, ih, List.map_cons]

/-- What an instruction does to the wire, whether it writes or reads: a field in its form or frame,
or the presence bits. -/
inductive Visit where
  | untagged (form : FieldForm) (field : Field)
  | tagged (field : Field) (encoding : Encoding) (format : Option TagFormat)
  | presenceBits (size : Number)

/-- The visit of an instruction that is about the fields. -/
def visit? : Instruction → Option Visit
  | untagged _ form field => some (.untagged form field)
  | tagged _ field encoding format _ => some (.tagged field encoding format)
  | bitSequence _ size => some (.presenceBits size)
  | _ => none

end Instruction

open Instruction

/-- The instructions that decode a field mirror those that encode it. -/
theorem Field.instructions_decode (field : Field) (encoding : Encoding) :
    field.instructions encoding .decode = mirrorBlock (field.instructions encoding .encode) := by
  unfold instructions
  cases htagged : field.isTagged with
  | false =>
    cases hoptional : field.isOptional <;> cases encoding <;> simp [mirrorBlock, mirror]
  | true =>
    cases encoding with
    | slice1 => cases field.type.asRequired.tagFormat <;> simp [mirrorBlock, mirror]
    | slice2 => simp [mirrorBlock, mirror]

namespace Layout

/-- The header of decoding mirrors that of encoding. -/
theorem header_decode (fields : List Field) (encoding : Encoding) :
    header fields encoding .decode = mirrorBlock (header fields encoding .encode) := by
  unfold header
  by_cases hzero : bitSequenceSize fields encoding = 0
  · simp [hzero, mirrorBlock]
  · simp [hzero, mirrorBlock, mirror]

/-- Under one encoding, reading mirrors writing. -/
theorem synthesize_decode (fields : List Field) (encoding : Encoding) :
    synthesize fields encoding .decode = mirrorBlock (synthesize fields encoding .encode) := by
  rw [synthesize, synthesize, mirrorBlock_eq_map, List.map_append, List.map_flatMap, header_decode,
    mirrorBlock_eq_map]
  congr 2
  funext field
  rw [Field.instructions_decode, mirrorBlock_eq_map]

/-- The blocks of the two encodings agree exactly if no field is optional,
whichever way they code. -/
theorem same_synthesize_iff {fields : List Field} {direction : Direction} :
    (synthesize fields .slice1 direction).same (synthesize fields .slice2 direction) = true ↔
      ∀ field ∈ fields, field.isOptional = false := by
  constructor
  · exact required_of_same_synthesize
  · intro hrequired
    rw [synthesize_of_required hrequired, synthesize_of_required hrequired]
    exact Block.same_self _

end Layout

namespace Dispatch

/-- Merging takes the same decisions for reading as for writing. -/
theorem merge_decode (fields : List Field) :
    merge (Layout.synthesize fields .slice1 .decode) (Layout.synthesize fields .slice2 .decode)
        .decode =
      (merge (Layout.synthesize fields .slice1 .encode) (Layout.synthesize fields .slice2 .encode)
        .encode).map mirrorBlock := by
  have hempty (block : Block) : (mirrorBlock block).isEmpty = block.isEmpty := by
    cases block <;> rfl
  unfold merge
  by_cases hrequired : ∀ field ∈ fields, field.isOptional = false
  · rw [if_pos (Layout.same_synthesize_iff.mpr hrequired),
      if_pos (Layout.same_synthesize_iff.mpr hrequired), Layout.synthesize_decode]
    rfl
  · rw [if_neg (mt Layout.same_synthesize_iff.mp hrequired),
      if_neg (mt Layout.same_synthesize_iff.mp hrequired)]
    simp only [Layout.synthesize_decode, hempty]
    split
    · rfl
    · split
      · simp [Except.map, mirrorBlock, mirror]
      · simp [Except.map, mirrorBlock, mirror]

/-- What a block does to the wire under one encoding, in order. -/
def visits (encoding : Encoding) (block : Block) : List Visit :=
  (select encoding block).filterMap visit?

/-- The visits of a block are those of its instructions, in order. -/
theorem visits_eq_flatMap (encoding : Encoding) (block : Block) :
    visits encoding block = block.flatMap fun i => (selected encoding i).filterMap visit? := by
  rw [visits, select_eq_flatMap, List.filterMap_flatMap]

/-- If instructions visit like their mirror images, a block of them does. -/
theorem visits_mirrorBlock_of_forall {encoding : Encoding} {block : Block}
    (h : ∀ i ∈ block, (selected encoding i.mirror).filterMap visit? =
      (selected encoding i).filterMap visit?) :
    visits encoding (mirrorBlock block) = visits encoding block := by
  rw [visits_eq_flatMap, visits_eq_flatMap, mirrorBlock_eq_map, List.flatMap_map]
  exact List.flatMap_congr h

/-- An instruction and its mirror image visit the same. -/
theorem filterMap_visit?_selected_mirror (encoding : Encoding) (instruction : Instruction) :
    (selected encoding instruction.mirror).filterMap visit? =
      (selected encoding instruction).filterMap visit? := by
  induction instruction with
  | untagged direction form field => cases direction <;> rfl
  | tagged direction field format size => cases direction <;> rfl
  | bitSequence direction size => cases direction <;> rfl
  | skipTagged => rfl
  | tagEndMarker => rfl
  | blank => rfl
  | guarded direction block ih =>
    cases direction with
    | decode => rfl
    | encode =>
      cases encoding with
      | slice1 => rfl
      | slice2 => exact visits_mirrorBlock_of_forall ih
  | branch direction slice1 slice2 ih₁ ih₂ =>
    cases direction with
    | decode => rfl
    | encode =>
      cases encoding with
      | slice1 => exact visits_mirrorBlock_of_forall ih₁
      | slice2 => exact visits_mirrorBlock_of_forall ih₂

/-- A block and its mirror image visit the same. -/
theorem visits_mirrorBlock (encoding : Encoding) (block : Block) :
    visits encoding (mirrorBlock block) = visits encoding block :=
  visits_mirrorBlock_of_forall fun i _ => filterMap_visit?_selected_mirror encoding i

/-- For every list of encodings, the block that decodes fields is the mirror image of the
one that encodes them. -/
theorem map_mirrorBlock_generate (fields : List Field) (encodings : List Encoding) :
    (generate fields encodings .encode).map mirrorBlock = generate fields encodings .decode := by
  rcases encodings with _ | ⟨first, _ | ⟨second, _ | ⟨third, rest⟩⟩⟩
  · rfl
  · simp [generate, Except.map, Layout.synthesize_decode]
  · cases first <;> cases second
    · rfl
    · exact (merge_decode fields).symm
    · rfl
    · rfl
  · cases first <;> cases second <;> rfl

/-- Decoding mirrors encoding, whatever the fields and the encodings: the block to decode is the
mirror image of the block to encode, there is no block to decode exactly if there is none to encode,
and under each encoding both visit the same fields in the same order, with the same tags, tag
formats and number of presence bits. -/
theorem generate_decode (fields : List Field) (encodings : List Encoding) :
    generate fields encodings .decode = (generate fields encodings .encode).map mirrorBlock ∧
      ((∃ error, generate fields encodings .decode = .error error) ↔
        ∃ error, generate fields encodings .encode = .error error) ∧
      ∀ encoding, (generate fields encodings .decode).map (visits encoding) =
        (generate fields encodings .encode).map (visits encoding) := by
  have hmirror := map_mirrorBlock_generate fields encodings
  refine ⟨hmirror.symm, ?_, ?_⟩
  · rw [← hmirror]
    cases generate fields encodings .encode <;> simp [Except.map]
  · intro encoding
    rw [← hmirror]
    cases generate fields encodings .encode with
    | error error => rfl
    | ok block => exact congrArg Except.ok (visits_mirrorBlock encoding block)

end Dispatch

end SliceRecords
