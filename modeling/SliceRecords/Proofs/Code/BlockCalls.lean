import SliceRecords.Proofs.Code.FieldCalls
import SliceRecords.Proofs.Dispatch.Mirror

/-!
# Encoding and decoding code calls the same methods

The code of a block calls the methods of its instructions in order, in whatever guards and branches
these stand. The block that decodes fields is the mirror image of the block that encodes them, so
the texts of both call the same methods in the same order. Main statement: `callees_generate`.
-/

namespace SliceRecords

namespace Instruction

/-- The codecs of a block are those of its instructions, in order. -/
theorem blockCodecs_eq_flatMap (block : Block) : blockCodecs block = block.flatMap codecs := by
  induction block with
  | nil => rfl
  | cons instruction rest ih => rw [blockCodecs, ih, List.flatMap_cons]

/-- A mirrored block has the codecs of the block if its instructions do. -/
theorem blockCodecs_mirrorBlock_of_forall {block : Block}
    (h : ∀ i ∈ block, i.mirror.codecs = i.codecs) :
    blockCodecs (mirrorBlock block) = blockCodecs block := by
  rw [blockCodecs_eq_flatMap, blockCodecs_eq_flatMap, mirrorBlock_eq_map, List.flatMap_map]
  exact List.flatMap_congr h

/-- Reading calls the methods that writing calls. -/
theorem codecs_mirror (instruction : Instruction) :
    instruction.mirror.codecs = instruction.codecs := by
  induction instruction with
  | untagged direction form field => cases direction <;> cases form <;> rfl
  | tagged direction field encoding format size => cases direction <;> rfl
  | bitSequence direction size => cases direction <;> rfl
  | guarded direction block ih =>
    cases direction with
    | decode => rfl
    | encode => simp only [mirror, codecs, blockCodecs_mirrorBlock_of_forall ih]
  | branch direction slice1 slice2 ih₁ ih₂ =>
    cases direction with
    | decode => rfl
    | encode =>
      simp only [mirror, codecs, blockCodecs_mirrorBlock_of_forall ih₁,
        blockCodecs_mirrorBlock_of_forall ih₂]
  | _ => rfl

/-- Mirroring keeps the codecs of a block, and with them their order. -/
theorem blockCodecs_mirrorBlock (block : Block) :
    blockCodecs (mirrorBlock block) = blockCodecs block :=
  blockCodecs_mirrorBlock_of_forall fun i _ => codecs_mirror i

/-- An instruction that codes fields in a direction, of well-formed types with plain names. -/
inductive CodesFields (direction : Direction) : Instruction → Prop where
  | untagged {form : FieldForm} {field : Field} : field.type.WellFormed → field.type.HasPlainNames →
    CodesFields direction (.untagged direction form field)
  | tagged {field : Field} {encoding : Encoding} {format : Option TagFormat}
      {size : Option Number} : field.type.WellFormed → field.type.HasPlainNames →
      CodesFields direction (.tagged direction field encoding format size)
  | bitSequence {size : Number} : CodesFields direction (.bitSequence direction size)
  | guarded {block : Block} : (∀ inner ∈ block, CodesFields direction inner) →
    CodesFields direction (.guarded direction block)
  | branch {slice1 slice2 : Block} : (∀ inner ∈ slice1, CodesFields direction inner) →
    (∀ inner ∈ slice2, CodesFields direction inner) →
    CodesFields direction (.branch direction slice1 slice2)

end Instruction

namespace Code

variable {namespaceName : String}

/-- Opening the sequence of presence bits makes no calls. -/
theorem callees_bitSequencePieces {direction : Direction} {size : Number} {pieces : List String}
    (h : instructionPieces namespaceName (.bitSequence direction size) = .ok pieces) :
    pieces.flatMap (callees direction) = [] := by
  cases direction with
  | encode =>
    simp only [instructionPieces, Result.pure_eq_ok_iff] at h
    subst h
    rw [List.flatMap_singleton]
    change callees .encode
      ("var bitSequenceWriter = encoder.GetBitSequenceWriter(" ++ size.text ++ ");") = []
    rw [callees_enclosed (by decide) (by decide), callees_numberText]
  | decode =>
    simp only [instructionPieces, Result.pure_eq_ok_iff] at h
    subst h
    rw [List.flatMap_singleton]
    change callees .decode
      ("var bitSequenceReader = decoder.GetBitSequenceReader(" ++ size.text ++ ");") = []
    rw [callees_enclosed (by decide) (by decide), callees_numberText]

/-- The condition of a guard makes no calls. -/
theorem callees_guardLine (direction : Direction) :
    callees direction (guardLine direction) = [] := by
  apply callees_eq_of_calls
  cases direction <;> decide

/-- The condition of a branch makes no calls. -/
theorem callees_branchLine (direction : Direction) :
    callees direction (branchLine direction) = [] := by
  apply callees_eq_of_calls
  cases direction <;> decide

/-- If the pieces of each instruction call its methods, those of a block call the
methods of the block. -/
theorem callees_blockPieces_of_forall {direction : Direction} {block : List Instruction}
    (hblock : ∀ instruction ∈ block, ∀ {pieces : List String},
      instructionPieces namespaceName instruction = .ok pieces →
      pieces.flatMap (callees direction) = instruction.codecs)
    {pieces : List String} (h : blockPieces namespaceName block = .ok pieces) :
    pieces.flatMap (callees direction) = Instruction.blockCodecs block := by
  induction block generalizing pieces with
  | nil =>
    cases h
    rfl
  | cons instruction rest ih =>
    simp only [blockPieces, Result.bind_eq_ok_iff, Result.pure_eq_ok_iff] at h
    obtain ⟨first, hfirst, others, hothers, rfl⟩ := h
    have hhead := hblock instruction List.mem_cons_self hfirst
    have htail := ih (fun i hi => hblock i (List.mem_cons_of_mem instruction hi)) hothers
    rw [List.flatMap_append, hhead, htail, Instruction.blockCodecs]

/-- The code of an inner block calls what its pieces call. -/
theorem callees_innerBlock {direction : Direction} (pieces : List String) :
    callees direction (Block.ofLines pieces).indent.text = pieces.flatMap (callees direction) := by
  rw [Block.callees_indent_text, Block.callees_text_ofLines]

/-- The pieces of an instruction call its methods. -/
theorem callees_instructionPieces {direction : Direction} {instruction : Instruction}
    (hcodes : instruction.CodesFields direction) {pieces : List String}
    (h : instructionPieces namespaceName instruction = .ok pieces) :
    pieces.flatMap (callees direction) = instruction.codecs := by
  induction hcodes generalizing pieces with
  | @untagged form field hwell hnames =>
    rw [instructionPieces] at h
    cases direction with
    | encode => exact callees_encodeUntagged hwell hnames h
    | decode => exact callees_decodeUntagged hwell hnames h
  | tagged hwell hnames =>
    cases direction with
    | encode =>
      rw [instructionPieces] at h
      exact callees_encodeTagged hwell hnames h
    | decode =>
      simp only [instructionPieces, Result.bind_eq_ok_iff, Result.pure_eq_ok_iff] at h
      obtain ⟨text, htext, rfl⟩ := h
      rw [List.flatMap_singleton, callees_decodeTagged hwell hnames htext]
      rfl
  | bitSequence => exact callees_bitSequencePieces h
  | guarded _ ih =>
    simp only [instructionPieces, Result.bind_eq_ok_iff, Result.pure_eq_ok_iff] at h
    obtain ⟨inner, hinner, rfl⟩ := h
    simp only [List.flatMap_cons, List.flatMap_nil, callees_guardLine, callees_braces.1,
      callees_braces.2, callees_innerBlock, callees_blockPieces_of_forall ih hinner,
      List.nil_append, List.append_nil]
    rfl
  | branch _ _ ih₁ ih₂ =>
    have helse : callees direction "else // Slice2" = [] := callees_eq_nil_of_dot_notMem (by decide)
    simp only [instructionPieces, Result.bind_eq_ok_iff, Result.pure_eq_ok_iff] at h
    obtain ⟨older, holder, newer, hnewer, rfl⟩ := h
    simp only [List.flatMap_cons, List.flatMap_nil, callees_branchLine, callees_braces.1,
      callees_braces.2, callees_innerBlock, helse, callees_blockPieces_of_forall ih₁ holder,
      callees_blockPieces_of_forall ih₂ hnewer, List.nil_append, List.append_nil]
    rfl

/-- The code of a block of fields calls the methods of the block. -/
theorem callees_renderBlock {direction : Direction} {block : SliceRecords.Block}
    (hcodes : ∀ instruction ∈ block, instruction.CodesFields direction) {code : Block}
    (h : renderBlock namespaceName block = .ok code) :
    callees direction code.text = Instruction.blockCodecs block := by
  simp only [renderBlock, Result.bind_eq_ok_iff, Result.pure_eq_ok_iff] at h
  obtain ⟨pieces, hpieces, rfl⟩ := h
  rw [Block.callees_text_ofLines]
  exact callees_blockPieces_of_forall (fun i hi => callees_instructionPieces (hcodes i hi)) hpieces

end Code

/-- The instructions of fields of well-formed types with plain names code fields. -/
theorem Layout.codesFields_of_synthesize {fields : List Field}
    (hwell : ∀ field ∈ fields, field.type.WellFormed)
    (hnames : ∀ field ∈ fields, field.type.HasPlainNames) (encoding : Encoding)
    {direction : Direction} :
    ∀ instruction ∈ synthesize fields encoding direction, instruction.CodesFields direction := by
  apply forall_mem_synthesize
  · exact fun _ => .bitSequence
  · exact fun field hfield _ => .untagged (hwell field hfield) (hnames field hfield)
  · exact fun field hfield _ _ _ => .tagged (hwell field hfield) (hnames field hfield)

/-- The block that is generated for such fields codes fields. -/
theorem Dispatch.codesFields_of_generate {fields : List Field}
    (hwell : ∀ field ∈ fields, field.type.WellFormed)
    (hnames : ∀ field ∈ fields, field.type.HasPlainNames) {encodings : SupportedEncodings}
    {direction : Direction} {block : Block}
    (hblock : generate fields encodings.toList direction = .ok block) :
    ∀ instruction ∈ block, instruction.CodesFields direction :=
  forall_mem_generate (fun encoding => Layout.codesFields_of_synthesize hwell hnames encoding)
    .guarded .branch hblock

namespace Code

open Text

/-- For fields of well-formed types whose names are paths of identifiers without coders in them,
every set of encodings and every namespace: there is code to encode and code to decode, and the
methods that follow `encoder.Encode` in the one are those that follow `decoder.Decode` in the
other, in order. They are the methods of the block of instructions: keys before values, collections
before what they hold. -/
theorem callees_generate (fields : List Field) (encodings : SupportedEncodings)
    (namespaceName : String) (hwell : ∀ field ∈ fields, field.type.WellFormed)
    (hnames : ∀ field ∈ fields, field.type.HasPlainNames) :
    ∃ (block : SliceRecords.Block) (encoding decoding : Block),
      Dispatch.generate fields encodings.toList .encode = .ok block ∧
      Dispatch.generate fields encodings.toList .decode = .ok (Instruction.mirrorBlock block) ∧
      renderBlock namespaceName block = .ok encoding ∧
      renderBlock namespaceName (Instruction.mirrorBlock block) = .ok decoding ∧
      calls "encoder.Encode".toList encoding.text.toList =
        calls "decoder.Decode".toList decoding.text.toList ∧
      callees .encode encoding.text = Instruction.blockCodecs block := by
  obtain ⟨block, hblock, _⟩ := Dispatch.generate_toList fields encodings .encode
  have hmirror : Dispatch.generate fields encodings.toList .decode =
      .ok (Instruction.mirrorBlock block) := by
    rw [← Dispatch.map_mirrorBlock_generate, hblock]
    rfl
  obtain ⟨encoding, hencoding⟩ :=
    exists_renderBlock namespaceName (Dispatch.renderable_of_generate hwell hblock)
  obtain ⟨decoding, hdecoding⟩ :=
    exists_renderBlock namespaceName (Dispatch.renderable_of_generate hwell hmirror)
  have hwrites : callees .encode encoding.text = Instruction.blockCodecs block :=
    callees_renderBlock (Dispatch.codesFields_of_generate hwell hnames hblock) hencoding
  have hreads : callees .decode decoding.text = Instruction.blockCodecs block := by
    rw [callees_renderBlock (Dispatch.codesFields_of_generate hwell hnames hmirror) hdecoding,
      Instruction.blockCodecs_mirrorBlock]
  refine ⟨block, encoding, decoding, hblock, hmirror, hencoding, hdecoding, ?_, hwrites⟩
  have hsame : (calls (callStart .encode) encoding.text.toList).map String.ofList =
      (calls (callStart .decode) decoding.text.toList).map String.ofList :=
    hwrites.trans hreads.symm
  exact List.map_injective_iff.mpr (fun _ _ => String.ofList_injective) hsame

/-- A class of the module `Demo`. -/
def shape : TypeRef :=
  { kind := .classType, name := some "::Demo::Shape" }

/-- A dictionary of optional sequences of classes. -/
def shapeIndex : TypeRef :=
  { kind := .dictionary
    optional := true
    key := some { kind := .primitive, name := some "string" }
    value := some { kind := .sequence, optional := true, element := some shape } }

/-- The type of the index of shapes is well-formed. -/
theorem wellFormed_shapeIndex : shapeIndex.WellFormed :=
  .dictionary none true none _ _ (.primitive .string false none none none)
    (.sequence none true _ none none
      (.named .classType "::Demo::Shape" false none none none (by decide) (by decide) (by decide)))

/-- A type that names nothing but shapes has plain names. -/
theorem hasPlainNames_of_shape {type : TypeRef} (h : type.userNames = ["::Demo::Shape"]) :
    type.HasPlainNames := by
  intro name hname
  rw [h, List.mem_singleton] at hname
  subst hname
  refine ⟨["Demo", "Shape"], by decide, ?_⟩
  simp only [List.forall_mem_cons]
  exact ⟨⟨by decide, by decide⟩, ⟨by decide, by decide⟩, List.forall_mem_nil _⟩

/-- A tagged dictionary and an optional class, under both encodings. -/
theorem callees_generate_nested :
    ∃ (fields : List Field) (block : SliceRecords.Block) (encoding decoding : Block),
      Dispatch.generate fields [.slice1, .slice2] .encode = .ok block ∧
      renderBlock "Demo" block = .ok encoding ∧
      renderBlock "Demo" (Instruction.mirrorBlock block) = .ok decoding ∧
      calls "encoder.Encode".toList encoding.text.toList =
        calls "decoder.Decode".toList decoding.text.toList ∧
      callees .encode encoding.text = ["NullableClass", "Tagged", "DictionaryWithOptionalValueType",
        "String", "Sequence", "Class", "Class", "Tagged", "DictionaryWithOptionalValueType",
        "String", "Sequence", "Class"] := by
  let fields : List Field :=
    [{ name := "index"
       type := shapeIndex
       tag := some (.integer 3)
       optional_of_tag := fun _ => rfl },
      { name := "outline", type := { shape with optional := true } }]
  have hoptional : TypeRef.WellFormed { shape with optional := true } :=
    .named .classType "::Demo::Shape" true none none none (by decide) (by decide) (by decide)
  have hwell : ∀ field ∈ fields, field.type.WellFormed := by
    simp only [fields, List.forall_mem_cons]
    exact ⟨wellFormed_shapeIndex, hoptional, List.forall_mem_nil _⟩
  have hnames : ∀ field ∈ fields, field.type.HasPlainNames := by
    simp only [fields, List.forall_mem_cons]
    exact ⟨hasPlainNames_of_shape rfl, hasPlainNames_of_shape rfl, List.forall_mem_nil _⟩
  have hcodecs : (Dispatch.generate fields [.slice1, .slice2] .encode).toOption.map
      Instruction.blockCodecs = some ["NullableClass", "Tagged", "DictionaryWithOptionalValueType",
      "String", "Sequence", "Class", "Class", "Tagged", "DictionaryWithOptionalValueType", "String",
      "Sequence", "Class"] := by decide +kernel
  obtain ⟨block, encoding, decoding, hblock, _, hencoding, hdecoding, hsame, hcallees⟩ :=
    callees_generate fields .both "Demo" hwell hnames
  change Dispatch.generate fields [.slice1, .slice2] .encode = .ok block at hblock
  rw [hblock] at hcodecs
  exact ⟨fields, block, encoding, decoding, hblock, hencoding, hdecoding, hsame,
    hcallees.trans (Option.some.inj hcodecs)⟩

end Code

end SliceRecords
