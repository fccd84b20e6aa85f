import SliceRecords.Proofs.Code.Declarations
import SliceRecords.Proofs.Layout.Canonical

/-!
# What the code on the wire depends on

The code that encodes and decodes a struct is made from the names, types and tags of its fields
alone, and does not show where the tagged ones are declared. Peers whose structs differ in nothing
else therefore have the same code. Main statement: `structBody_eq_of_agreesOnWire`.
-/

open scoped List

namespace SliceRecords

/-- Structs that differ at most in documentation, default values and access, and in the places at
which the fields with tags are declared. -/
structure Struct.AgreesOnWire (a b : Struct) : Prop where
  encodings : a.encodings = b.encodings
  isCompact : a.isCompact = b.isCompact
  /-- The fields without tags have the same names and types in declared order. -/
  untagged : (Layout.untaggedFields a.fields).map Field.bare =
    (Layout.untaggedFields b.fields).map Field.bare
  /-- The tagged fields have the same names, types and tags in some order. -/
  tagged : (a.fields.filter Field.isTagged).map Field.bare ~
    (b.fields.filter Field.isTagged).map Field.bare
  /-- No two tags have the same value. -/
  tagsDiffer : (a.fields.filter Field.isTagged).Pairwise Field.TagsDiffer

namespace Dispatch

open Instruction

/-- Merging does not look at the documentation of fields. -/
theorem merge_bareBlock (slice1 slice2 : Block) (direction : Direction) :
    merge (bareBlock slice1) (bareBlock slice2) direction =
      (merge slice1 slice2 direction).map bareBlock := by
  have hempty (block : Block) : (bareBlock block).isEmpty = block.isEmpty := by
    cases block <;> rfl
  unfold merge
  rw [Block.same_bareBlock, hempty, hempty]
  split
  · rfl
  · split
    · rfl
    · split <;> simp [Except.map, bareBlock, bare]

/-- Fields that have the same synthesized blocks up to documentation have the same generated block,
for every list of encodings. -/
theorem map_bareBlock_generate_congr {as bs : List Field} {direction : Direction}
    (h : ∀ encoding, bareBlock (Layout.synthesize as encoding direction) =
      bareBlock (Layout.synthesize bs encoding direction)) (encodings : List Encoding) :
    (generate as encodings direction).map bareBlock =
      (generate bs encodings direction).map bareBlock := by
  rcases encodings with _ | ⟨first, _ | ⟨second, _ | ⟨third, rest⟩⟩⟩
  · rfl
  · exact congrArg Except.ok (h first)
  · cases first <;> cases second
    · rfl
    · change (merge _ _ direction).map bareBlock = (merge _ _ direction).map bareBlock
      rw [← merge_bareBlock, ← merge_bareBlock, h, h]
    · rfl
    · rfl
  · cases first <;> cases second <;> rfl

/-- Framing is about no field, so a body with bare fields has the framing of the struct. -/
theorem map_bareBlock_body (struct : Struct) (direction : Direction) :
    (body struct direction).map bareBlock =
      ((generate struct.fields struct.encodings.toList direction).map bareBlock).map
        (· ++ struct.framing direction) := by
  have hframing : (struct.framing direction).map bare = struct.framing direction := by
    unfold Struct.framing
    split
    · rfl
    · cases direction <;> rfl
  unfold body
  cases generate struct.fields struct.encodings.toList direction with
  | error error => rfl
  | ok block =>
    change Except.ok (bareBlock (block ++ struct.framing direction)) =
      Except.ok (bareBlock block ++ struct.framing direction)
    rw [bareBlock_eq_map, List.map_append, hframing, bareBlock_eq_map]

/-- Structs that agree on the wire have the same body up to documentation. -/
theorem map_bareBlock_body_eq {a b : Struct} (h : a.AgreesOnWire b) (direction : Direction) :
    (body a direction).map bareBlock = (body b direction).map bareBlock := by
  have horder := Layout.map_bare_wireOrder_eq h.untagged h.tagged h.tagsDiffer
  have hgenerate := map_bareBlock_generate_congr
    (fun encoding => Layout.bareBlock_synthesize_congr horder encoding direction) b.encodings.toList
  have hframing : a.framing direction = b.framing direction := by
    unfold Struct.framing
    rw [h.isCompact]
  rw [map_bareBlock_body, map_bareBlock_body, h.encodings, hgenerate, hframing]

end Dispatch

namespace Code

variable (namespaceName : String)

/-- If the code of instructions is made from bare fields, so is that of a block of them. -/
theorem blockPieces_bareBlock_of_forall {block : List Instruction}
    (h : ∀ i ∈ block, instructionPieces namespaceName i.bare = instructionPieces namespaceName i) :
    blockPieces namespaceName (Instruction.bareBlock block) = blockPieces namespaceName block := by
  induction block with
  | nil => rfl
  | cons instruction rest ih =>
    rw [Instruction.bareBlock, blockPieces, blockPieces, h instruction List.mem_cons_self,
      ih fun i hi => h i (List.mem_cons_of_mem instruction hi)]

/-- The code of an instruction is made from bare fields. -/
theorem instructionPieces_bare (instruction : Instruction) :
    instructionPieces namespaceName instruction.bare =
      instructionPieces namespaceName instruction := by
  induction instruction with
  | untagged direction form field => cases direction <;> cases form <;> rfl
  | tagged direction field encoding format size => cases direction <;> rfl
  | guarded direction block ih =>
    rw [Instruction.bare, instructionPieces, instructionPieces,
      blockPieces_bareBlock_of_forall namespaceName ih]
  | branch direction slice1 slice2 ih₁ ih₂ =>
    rw [Instruction.bare, instructionPieces, instructionPieces,
      blockPieces_bareBlock_of_forall namespaceName ih₁,
      blockPieces_bareBlock_of_forall namespaceName ih₂]
  | _ => rfl

/-- A block of bare fields is rendered as the block is. -/
theorem renderBlock_bareBlock (block : SliceRecords.Block) :
    renderBlock namespaceName (Instruction.bareBlock block) = renderBlock namespaceName block := by
  rw [renderBlock, renderBlock,
    blockPieces_bareBlock_of_forall namespaceName fun i _ => instructionPieces_bare namespaceName i]

/-- The code of a body is the code of the body with bare fields. -/
theorem structBody_eq (struct : Struct) (direction : Direction) :
    structBody namespaceName struct direction =
      ((Dispatch.body struct direction).map Instruction.bareBlock).mapError .dispatch >>=
        fun block => (renderBlock namespaceName block).mapError .render := by
  unfold structBody
  cases Dispatch.body struct direction with
  | error error => rfl
  | ok block =>
    change (renderBlock namespaceName block).mapError GenerationError.render =
      (renderBlock namespaceName (Instruction.bareBlock block)).mapError GenerationError.render
    rw [renderBlock_bareBlock]

/-- The code that encodes or decodes a struct does not show where its tagged fields are declared,
nor the documentation, default values, access or origin of the struct and its fields: in every
namespace it is the same for structs that agree in all else. Their tags are to differ in value,
since equal tags travel as declared. -/
theorem structBody_eq_of_agreesOnWire {a b : Struct} (h : a.AgreesOnWire b)
    (direction : Direction) :
    structBody namespaceName a direction = structBody namespaceName b direction := by
  rw [structBody_eq, structBody_eq, Dispatch.map_bareBlock_body_eq h direction]

/-- A struct with two tagged fields in front of another one, and the same struct with the other
field between them, the greater tag first, and documentation. -/
theorem structBody_eq_of_agreesOnWire_documented :
    ∃ a b : Struct, a.fields.map Field.name = ["note", "mark", "value"] ∧
      b.fields.map Field.name = ["mark", "value", "note"] ∧ b.isReadonly = true ∧ a.AgreesOnWire b ∧
      (∀ direction, structBody "Demo" a direction = structBody "Demo" b direction) ∧
      ∃ code, structBody "Demo" a .encode = .ok code := by
  let note : Field :=
    { name := "note"
      type := { kind := .primitive, name := some "string", optional := true }
      tag := some (.integer 1) }
  let mark : Field :=
    { name := "mark"
      type := { kind := .enum, name := some "Demo::Mark", optional := true }
      tag := some (.integer 7) }
  let value : Field := { name := "value", type := { kind := .primitive, name := some "int32" } }
  let plain : Struct := { name := "Reading", fields := [note, mark, value], encodings := .both }
  let documented : Struct :=
    { name := "Reading"
      fields :=
        [{ mark with doc := some "How it was taken." },
         { value with defaultValue := some (.bool true) },
         { note with deprecated := some "Use mark." }]
      encodings := .both
      doc := some "A reading."
      isReadonly := true }
  have hagree : plain.AgreesOnWire documented :=
    { encodings := rfl
      isCompact := rfl
      untagged := rfl
      tagged := List.Perm.swap mark.bare note.bare []
      tagsDiffer := by decide }
  have hwell : ∀ field ∈ plain.fields, field.type.WellFormed := by
    simp only [plain, List.forall_mem_cons]
    exact ⟨.primitive .string true none none none,
      .named .enum "Demo::Mark" true none none none (by decide) (by decide) (by decide),
      .primitive .int32 false none none none, List.forall_mem_nil _⟩
  exact ⟨plain, documented, rfl, rfl, rfl, hagree,
    fun direction => structBody_eq_of_agreesOnWire "Demo" hagree direction,
    exists_structBody "Demo" hwell .encode⟩

end Code

end SliceRecords
