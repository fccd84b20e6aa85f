import SliceRecords.Code.Body
import SliceRecords.Proofs.Code.BlockText
import SliceRecords.Proofs.Dispatch.Selection
import SliceRecords.Proofs.Result

/-!
# Lines of code of instructions

Every instruction has code that begins with the opening of a statement and ends with a semicolon or
a brace, so nothing is trimmed where the code of instructions is put together, and the lines of a
block are the lines of its instructions. An arm of a dispatch has the lines of its own block, one
level further in. Main statements: `text_renderBlock`, `blockLines_append`, `blockLines_guarded`
and `blockLines_branch`.
-/

namespace SliceRecords.Code

open Text

variable {namespaceName : String}

/-- The openings of the statements of an instruction that does not dispatch. -/
def statementOpenings : List String :=
  ["encoder.", "decoder.", "this.", "var", "bitSequenceWriter.", "if (this."]

/-- What a statement begins with opens a line. -/
theorem isOpeningText_of_mem {opening : String} (h : opening ∈ statementOpenings) :
    isOpeningText opening = true := by
  have hall : ∀ text ∈ statementOpenings, isOpeningText text = true := by decide +kernel
  exact hall opening h

/-- Pieces that begin with the opening of a statement and end with a visible character. -/
def AreStatements (pieces : List String) : Prop :=
  ∃ opening ∈ statementOpenings, Block.Bounded opening pieces

/-- A member is named behind its receiver. -/
theorem isPrefix_member (field : Field) : "this.".toList <+: (member field).toList :=
  isPrefix_append (by decide) _

/-- The text that encodes a value calls the encoder, or a method of the value. -/
theorem isPrefix_encodeExpression {type : TypeRef} {target text : String}
    (h : encodeExpression namespaceName type target = .ok text) :
    "encoder.".toList <+: text.toList ∨ target.toList <+: text.toList := by
  obtain ⟨kind, name, optional, element, key, value⟩ := type
  cases kind with
  | struct =>
    right
    simp only [encodeExpression, Result.pure_eq_ok_iff] at h
    subst h
    exact isPrefix_append (List.prefix_refl _) _
  | primitive | enum | custom =>
    left
    simp only [encodeExpression, Result.bind_eq_ok_iff, Result.pure_eq_ok_iff] at h
    obtain ⟨_, _, rfl⟩ := h
    simp only [String.append_assoc]
    exact isPrefix_append (by decide) _
  | classType | proxy =>
    left
    simp only [encodeExpression, Result.pure_eq_ok_iff] at h
    subst h
    simp only [String.append_assoc]
    exact isPrefix_append (by decide) _
  | sequence =>
    left
    simp only [encodeExpression, Result.bind_eq_ok_iff, Result.pure_eq_ok_iff] at h
    obtain ⟨_, _, _, _, _, _, rfl⟩ := h
    simp only [String.append_assoc]
    exact isPrefix_append (by decide) _
  | dictionary =>
    left
    simp only [encodeExpression, Result.bind_eq_ok_iff, Result.pure_eq_ok_iff] at h
    obtain ⟨_, _, _, _, _, _, _, _, _, _, rfl⟩ := h
    simp only [String.append_assoc]
    exact isPrefix_append (by decide) _

/-- A statement that encodes a value of a member. -/
theorem areStatements_encodeExpression {type : TypeRef} {target text : String}
    (htarget : "this.".toList <+: target.toList)
    (h : encodeExpression namespaceName type target = .ok text) : AreStatements [text ++ ";"] := by
  rcases isPrefix_encodeExpression h with hencoder | hmember
  · exact ⟨"encoder.", by decide, Block.bounded_piece hencoder (by decide)⟩
  · exact ⟨"this.", by decide, Block.bounded_piece (htarget.trans hmember) (by decide)⟩

/-- Encoding a field that may be null is a statement. -/
theorem areStatements_encodeNullable {field : Field} {text : String}
    (h : encodeNullable namespaceName field = .ok text) : AreStatements [text] := by
  unfold encodeNullable at h
  split at h
  · cases h
    exact ⟨"encoder.", by decide, Block.bounded_piece (isPrefix_append (by decide) _) (by decide)⟩
  · cases h
    exact ⟨"encoder.", by decide, Block.bounded_piece (isPrefix_append (by decide) _) (by decide)⟩
  · simp only [Result.bind_eq_ok_iff, Result.pure_eq_ok_iff] at h
    obtain ⟨expression, hexpression, rfl⟩ := h
    refine areStatements_encodeExpression ?_ hexpression
    split
    · exact isPrefix_append (isPrefix_member field) _
    · exact isPrefix_append (isPrefix_member field) _

/-- A statement that assigns to a member, from what follows the member to what
closes the statement. -/
theorem areStatements_assignment (field : Field) (operator value : String) {closing : String}
    (h : endsVisibly closing = true) :
    AreStatements [member field ++ operator ++ value ++ closing] :=
  ⟨"this.", by decide,
   Block.bounded_piece (isPrefix_append (isPrefix_append (isPrefix_member field) operator) value) h⟩

/-- Decoding a field that may be null is a statement. -/
theorem areStatements_decodeNullable {field : Field} {text : String}
    (h : decodeNullable namespaceName field = .ok text) : AreStatements [text] := by
  unfold decodeNullable at h
  dsimp only at h
  split at h
  all_goals
    simp only [Result.bind_eq_ok_iff, Result.pure_eq_ok_iff] at h
    obtain ⟨part, _, rfl⟩ := h
    exact areStatements_assignment field _ _ (by decide)

/-- Statements that run if a member has a value. -/
theorem areStatements_presence (field : Field) (statement : String) :
    AreStatements [s!"if ({member field} != null)", "\x7b", statement, "\x7d"] := by
  have hline : s!"if ({member field} != null)" =
      "if (this." ++ (memberName field.name ++ " != null)") := by
    change "if (" ++ ("this." ++ memberName field.name) ++ " != null)" = _
    rw [← String.append_assoc, ← String.append_assoc]
    rfl
  refine ⟨"if (this.", by decide, ⟨_, rfl, ?_⟩, ⟨"\x7d", rfl, by decide⟩⟩
  rw [hline]
  exact isPrefix_append (List.prefix_refl _) _

/-- The pieces for a field without a tag are statements. -/
theorem areStatements_untaggedPieces {direction : Direction} {form : FieldForm} {field : Field}
    {pieces : List String} (h : untaggedPieces namespaceName direction form field = .ok pieces) :
    AreStatements pieces := by
  cases form with
  | plain =>
    cases direction with
    | encode =>
      simp only [untaggedPieces, Result.bind_eq_ok_iff, Result.pure_eq_ok_iff] at h
      obtain ⟨expression, hexpression, rfl⟩ := h
      exact areStatements_encodeExpression (isPrefix_member field) hexpression
    | decode =>
      simp only [untaggedPieces, Result.bind_eq_ok_iff, Result.pure_eq_ok_iff] at h
      obtain ⟨expression, _, rfl⟩ := h
      exact areStatements_assignment field _ _ (by decide)
  | nullable =>
    cases direction with
    | encode =>
      simp only [untaggedPieces, Result.bind_eq_ok_iff, Result.pure_eq_ok_iff] at h
      obtain ⟨text, htext, rfl⟩ := h
      exact areStatements_encodeNullable htext
    | decode =>
      simp only [untaggedPieces, Result.bind_eq_ok_iff, Result.pure_eq_ok_iff] at h
      obtain ⟨text, htext, rfl⟩ := h
      exact areStatements_decodeNullable htext
  | bitSequence =>
    cases direction with
    | encode =>
      simp only [untaggedPieces, Result.bind_eq_ok_iff, Result.pure_eq_ok_iff] at h
      obtain ⟨expression, _, rfl⟩ := h
      exact ⟨"bitSequenceWriter.", by decide,
        ⟨_, rfl, isPrefix_append (isPrefix_append (by decide) _) _⟩, ⟨"\x7d", rfl, by decide⟩⟩
    | decode =>
      simp only [untaggedPieces, Result.bind_eq_ok_iff, Result.pure_eq_ok_iff] at h
      obtain ⟨expression, _, rfl⟩ := h
      exact areStatements_assignment field _ _ (by decide)

/-- Encoding a tagged field is a statement. -/
theorem areStatements_encodeTagged {field : Field} {encoding : Encoding} {format : Option TagFormat}
    {size : Option Number} {pieces : List String}
    (h : encodeTagged namespaceName field encoding format size = .ok pieces) :
    AreStatements pieces := by
  simp only [encodeTagged, Result.bind_eq_ok_iff] at h
  obtain ⟨action, _, h⟩ := h
  split at h
  all_goals
    simp only [Result.bind_eq_ok_iff, Result.pure_eq_ok_iff] at h
    obtain ⟨frame, _, rfl⟩ := h
    exact areStatements_presence field _

/-- Decoding a tagged field is a statement. -/
theorem areStatements_decodeTagged {field : Field} {encoding : Encoding} {format : Option TagFormat}
    {text : String} (h : decodeTagged namespaceName field encoding format = .ok text) :
    AreStatements [text] := by
  simp only [decodeTagged, Result.bind_eq_ok_iff] at h
  obtain ⟨function, _, h⟩ := h
  split at h
  · rw [Result.pure_eq_ok_iff] at h
    subst h
    refine ⟨"this.", by decide, ⟨_, rfl, ?_⟩,
      ⟨_, rfl, endsVisibly_append (endsVisibly_append (by decide) _) _⟩⟩
    simp only [String.append_assoc]
    exact isPrefix_append (isPrefix_member field) _
  · cases h
  · rw [Result.pure_eq_ok_iff] at h
    subst h
    refine ⟨"this.", by decide, ⟨_, rfl, ?_⟩, ⟨_, rfl, endsVisibly_append (by decide) _⟩⟩
    simp only [String.append_assoc]
    exact isPrefix_append (isPrefix_member field) _

/-- The pieces of an instruction that does not dispatch are statements. -/
theorem areStatements_instructionPieces {instruction : Instruction}
    (hflat : instruction.dispatchDirection? = none) {pieces : List String}
    (h : instructionPieces namespaceName instruction = .ok pieces) : AreStatements pieces := by
  cases instruction with
  | untagged direction form field =>
    rw [instructionPieces] at h
    exact areStatements_untaggedPieces h
  | tagged direction field encoding format size =>
    cases direction with
    | encode =>
      rw [instructionPieces] at h
      exact areStatements_encodeTagged h
    | decode =>
      simp only [instructionPieces, Result.bind_eq_ok_iff, Result.pure_eq_ok_iff] at h
      obtain ⟨text, htext, rfl⟩ := h
      exact areStatements_decodeTagged htext
  | bitSequence direction size =>
    cases direction with
    | encode =>
      cases h
      exact ⟨"var", by decide, Block.bounded_piece (isPrefix_append (by decide) _) (by decide)⟩
    | decode =>
      cases h
      exact ⟨"var", by decide, Block.bounded_piece (isPrefix_append (by decide) _) (by decide)⟩
  | skipTagged =>
    cases h
    exact ⟨"decoder.", by decide, ⟨_, rfl, by decide⟩, ⟨_, rfl, by decide⟩⟩
  | tagEndMarker =>
    cases h
    exact ⟨"encoder.", by decide, ⟨_, rfl, by decide⟩, ⟨_, rfl, by decide⟩⟩
  | guarded => cases hflat
  | branch => cases hflat
  | blank => cases h

/-- The condition of a guard opens a statement. -/
theorem isOpeningText_guardLine (direction : Direction) :
    isOpeningText (guardLine direction) = true := by
  cases direction <;> decide +kernel

/-- The condition of a branch opens a statement. -/
theorem isOpeningText_branchLine (direction : Direction) :
    isOpeningText (branchLine direction) = true := by
  cases direction <;> decide +kernel

/-- The pieces of an instruction begin with a line that can be told and end
with a visible character. -/
theorem exists_bounded_instructionPieces {instruction : Instruction} {pieces : List String}
    (h : instructionPieces namespaceName instruction = .ok pieces) :
    ∃ opening, isOpeningText opening = true ∧ Block.Bounded opening pieces := by
  by_cases hflat : instruction.dispatchDirection? = none
  · obtain ⟨opening, hopening, hbounded⟩ := areStatements_instructionPieces hflat h
    exact ⟨opening, isOpeningText_of_mem hopening, hbounded⟩
  · cases instruction with
    | guarded direction block =>
      simp only [instructionPieces, Result.bind_eq_ok_iff, Result.pure_eq_ok_iff] at h
      obtain ⟨inner, _, rfl⟩ := h
      exact ⟨guardLine direction, isOpeningText_guardLine direction, ⟨_, rfl, List.prefix_refl _⟩,
        ⟨"\x7d", rfl, by decide⟩⟩
    | branch direction slice1 slice2 =>
      simp only [instructionPieces, Result.bind_eq_ok_iff, Result.pure_eq_ok_iff] at h
      obtain ⟨older, _, newer, _, rfl⟩ := h
      exact ⟨branchLine direction, isOpeningText_branchLine direction, ⟨_, rfl, List.prefix_refl _⟩,
        ⟨"\x7d", rfl, by decide⟩⟩
    | _ => exact absurd rfl hflat

/-- The lines of the code of a block. -/
def blockLines (namespaceName : String) (block : SliceRecords.Block) :
    Except RenderError (List String) :=
  Block.cleanLines <$> blockPieces namespaceName block

/-- The pieces of a block are those of its front, then those of the rest. -/
theorem blockPieces_append (a b : SliceRecords.Block) :
    blockPieces namespaceName (a ++ b) = do
      let front ← blockPieces namespaceName a
      let rest ← blockPieces namespaceName b
      return front ++ rest := by
  induction a with
  | nil =>
    rw [List.nil_append]
    cases blockPieces namespaceName b <;> rfl
  | cons instruction a ih =>
    simp only [List.cons_append, blockPieces, ih, bind_assoc, pure_bind, List.append_assoc]

/-- The lines of two blocks in a row are those of the first, then those of the second. -/
theorem blockLines_append (a b : SliceRecords.Block) :
    blockLines namespaceName (a ++ b) = do
      let front ← blockLines namespaceName a
      let rest ← blockLines namespaceName b
      return front ++ rest := by
  rw [blockLines, blockLines, blockLines, blockPieces_append]
  cases blockPieces namespaceName a with
  | error error => rfl
  | ok front =>
    cases blockPieces namespaceName b with
    | error error => rfl
    | ok rest => exact congrArg Except.ok (Block.cleanLines_append front rest)

/-- The lines of the pieces of a block are normal, and there are some unless the block is empty. -/
theorem isNormal_of_blockPieces {block : SliceRecords.Block} {pieces : List String}
    (h : blockPieces namespaceName block = .ok pieces) :
    IsNormal (Block.cleanLines pieces) ∧ (block ≠ [] → Block.cleanLines pieces ≠ []) := by
  induction block generalizing pieces with
  | nil =>
    cases h
    exact ⟨isNormal_nil, absurd rfl⟩
  | cons instruction rest ih =>
    simp only [blockPieces, Result.bind_eq_ok_iff, Result.pure_eq_ok_iff] at h
    obtain ⟨first, hfirst, others, hothers, rfl⟩ := h
    obtain ⟨opening, hopening, hbounded⟩ := exists_bounded_instructionPieces hfirst
    rw [Block.cleanLines_append]
    refine ⟨(hbounded.isNormal_cleanLines hopening).append (ih hothers).1, fun _ => ?_⟩
    exact List.append_ne_nil_of_left_ne_nil hbounded.cleanLines_ne_nil _

/-- The lines of a block are normal. -/
theorem isNormal_of_blockLines {block : SliceRecords.Block} {ls : List String}
    (h : blockLines namespaceName block = .ok ls) : IsNormal ls ∧ (block ≠ [] → ls ≠ []) := by
  rw [blockLines, Result.map_eq_ok_iff] at h
  obtain ⟨pieces, hpieces, rfl⟩ := h
  exact isNormal_of_blockPieces hpieces

/-- The text of the code of a block has the lines of the block. -/
theorem text_renderBlock (namespaceName : String) (block : SliceRecords.Block) :
    Block.text <$> renderBlock namespaceName block =
      unlines <$> blockLines namespaceName block := by
  unfold renderBlock blockLines
  cases hpieces : blockPieces namespaceName block with
  | error error => rfl
  | ok pieces => exact congrArg Except.ok (Block.text_ofLines (isNormal_of_blockPieces hpieces).1)

/-- An arm of a dispatch: lines one level further in, between braces. -/
def armLines (arm : List String) : List String :=
  "\x7b" :: arm.map Block.indentLine ++ ["\x7d"]

/-- A piece between braces has the lines of an arm if its own lines are those
of the arm, indented. -/
theorem cleanLines_between {inner : String} {arm : List String}
    (h : Block.cleanLines [inner] = arm.map Block.indentLine) :
    Block.cleanLines ["\x7b", inner, "\x7d"] = armLines arm := by
  have hopen : Block.cleanLines ["\x7b"] = ["\x7b"] := Block.cleanLines_line (by decide)
  have hclose : Block.cleanLines ["\x7d"] = ["\x7d"] := Block.cleanLines_line (by decide)
  rw [Block.cleanLines_cons, Block.cleanLines_cons _ ["\x7d"], h, hopen, hclose]
  simp only [armLines, List.cons_append, List.nil_append]

/-- The lines of an indented block between braces. -/
theorem cleanLines_braces (block : Block) :
    Block.cleanLines ["\x7b", block.indent.text, "\x7d"] = armLines (lines block.text) := by
  apply cleanLines_between
  rw [Block.text_indent]
  apply Block.cleanLines_unlines (by simp [lines_ne_nil])
  · exact List.forall_mem_map.mpr fun line hline =>
      Block.newline_notMem_indentLine (newline_notMem_of_mem_lines hline)
  · exact List.forall_mem_map.mpr fun line hline =>
      Block.isTrimmed_indentLine (Block.isTrimmed_of_mem_lines hline)

/-- The lines of an arm behind its condition are those of the text of its block. -/
theorem cleanLines_arm {condition : String} (hcondition : isOpeningText condition = true)
    (block : Block) :
    Block.cleanLines [condition, "\x7b", block.indent.text, "\x7d"] =
      condition :: armLines (lines block.text) := by
  rw [Block.cleanLines_cons, Block.cleanLines_line hcondition, cleanLines_braces,
    List.singleton_append]

/-- The lines of a guard: its condition and its arm. -/
theorem blockLines_guarded (direction : Direction) (block : SliceRecords.Block) :
    blockLines namespaceName [.guarded direction block] =
      (fun arm => guardLine direction :: armLines (lines arm.text)) <$>
        renderBlock namespaceName block := by
  rw [blockLines, renderBlock, blockPieces, instructionPieces]
  cases blockPieces namespaceName block with
  | error error => rfl
  | ok pieces =>
    exact congrArg Except.ok
      (cleanLines_arm (isOpeningText_guardLine direction) (Block.ofLines pieces))

/-- The lines of a branch: its condition and its first arm, then its second one. -/
theorem blockLines_branch (direction : Direction) (slice1 slice2 : SliceRecords.Block) :
    blockLines namespaceName [.branch direction slice1 slice2] = do
      let older ← renderBlock namespaceName slice1
      let newer ← renderBlock namespaceName slice2
      return branchLine direction :: armLines (lines older.text) ++
        "else // Slice2" :: armLines (lines newer.text) := by
  rw [blockLines, renderBlock, renderBlock, blockPieces, instructionPieces]
  cases blockPieces namespaceName slice1 with
  | error error => rfl
  | ok older =>
    cases blockPieces namespaceName slice2 with
    | error error => rfl
    | ok newer =>
      have hpieces := Block.cleanLines_append
        [branchLine direction, "\x7b", (Block.ofLines older).indent.text, "\x7d"]
        ["else // Slice2", "\x7b", (Block.ofLines newer).indent.text, "\x7d"]
      rw [cleanLines_arm (isOpeningText_branchLine direction),
        cleanLines_arm (by decide +kernel)] at hpieces
      exact congrArg Except.ok hpieces

end SliceRecords.Code
