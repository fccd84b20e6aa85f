import SliceRecords.Proofs.Code.Composition
import SliceRecords.Proofs.Code.Declarations

/-!
# The arms of a dispatch in generated text

What generated code does under one encoding can be read off its text: of a dispatch on the live
encoding at the start, the arm of that encoding is kept and moved one level out, and the conditions
and braces are dropped. What is left of the body of a struct is the code for its fields under that
encoding and its framing, line for line. Main statement: `text_arms`.
-/

namespace SliceRecords

/-- A set of encodings is not empty. -/
theorem SupportedEncodings.exists_mem (encodings : SupportedEncodings) :
    ∃ encoding, encoding ∈ encodings := by
  cases encodings with
  | only encoding => exact ⟨encoding, List.mem_singleton_self encoding⟩
  | both => exact ⟨.slice1, by decide⟩

namespace Dispatch

/-- Two blocks merge to the second one if they agree, to a guard if the first one is empty, and to a
branch of two blocks that are not empty. -/
theorem cases_of_merge {slice1 slice2 merged : Block} {direction : Direction}
    (h : merge slice1 slice2 direction = .ok merged) :
    (slice1.same slice2 = true ∧ merged = slice2) ∨
      (slice1 = [] ∧ slice2 ≠ [] ∧ merged = [.guarded direction slice2]) ∨
      (slice1 ≠ [] ∧ slice2 ≠ [] ∧ merged = [.branch direction slice1 slice2]) := by
  unfold merge at h
  split at h
  · rename_i hsame
    cases h
    exact .inl ⟨hsame, rfl⟩
  split at h
  · cases h
  rename_i hslice2
  rw [List.isEmpty_iff] at hslice2
  split at h
  · rename_i hslice1
    cases h
    exact .inr (.inl ⟨List.isEmpty_iff.mp hslice1, hslice2, rfl⟩)
  · rename_i hslice1
    rw [List.isEmpty_iff] at hslice1
    cases h
    exact .inr (.inr ⟨hslice1, hslice2, rfl⟩)

/-- The block that is generated for a set of encodings: the block of each of them, or, for both of
them, a guard of a block that is not empty or a branch on two blocks that are not empty. -/
theorem arms_of_generate {fields : List Field} {encodings : SupportedEncodings}
    {direction : Direction} {block : Block}
    (h : generate fields encodings.toList direction = .ok block) :
    (∀ encoding ∈ encodings, block = Layout.synthesize fields encoding direction) ∨
    encodings = .both ∧
    ((Layout.synthesize fields .slice1 direction = [] ∧
      Layout.synthesize fields .slice2 direction ≠ [] ∧
      block = [.guarded direction (Layout.synthesize fields .slice2 direction)]) ∨
     (Layout.synthesize fields .slice1 direction ≠ [] ∧
      Layout.synthesize fields .slice2 direction ≠ [] ∧
      block = [.branch direction (Layout.synthesize fields .slice1 direction)
        (Layout.synthesize fields .slice2 direction)])) := by
  cases encodings with
  | only encoding =>
    left
    intro other hother
    cases h
    rw [List.mem_singleton.mp hother]
  | both =>
    rcases cases_of_merge h with ⟨hsame, rfl⟩ | harms
    · left
      intro encoding _
      cases encoding with
      | slice1 => exact (Layout.synthesize_eq_of_same hsame).symm
      | slice2 => rfl
    · exact .inr ⟨rfl, harms⟩

end Dispatch

namespace Code

open Text

variable {namespaceName : String} {direction : Direction}

/-- A line one level further out. -/
def outdentLine (line : String) : String :=
  String.ofList (line.toList.drop Block.indentation.length)

/-- The lines in the braces with which lines begin, and the lines behind the braces. -/
def splitArm (ls : List String) : List String × List String :=
  let inner := ls.tail
  (inner.takeWhile (· ≠ "\x7d"), (inner.dropWhile (· ≠ "\x7d")).tail)

/-- The lines that count under an encoding. If the lines begin with a dispatch, these are the lines
of the selected arm, one level further out, and the lines behind the dispatch. -/
def keptLines (encoding : Encoding) (direction : Direction) : List String → List String
  | [] => []
  | first :: rest =>
    if first = guardLine direction then
      let arm := splitArm rest
      match encoding with
      | .slice1 => arm.2
      | .slice2 => arm.1.map outdentLine ++ arm.2
    else if first = branchLine direction then
      let older := splitArm rest
      let newer := splitArm older.2.tail
      match encoding with
      | .slice1 => older.1.map outdentLine ++ newer.2
      | .slice2 => newer.1.map outdentLine ++ newer.2
    else first :: rest

/-- The text of the lines that count under an encoding. -/
def keepArm (encoding : Encoding) (direction : Direction) (text : String) : String :=
  unlines (keptLines encoding direction (lines text))

/-- Taking a line out again undoes putting it in, unless blanks at its end were lost. -/
theorem outdentLine_indentLine {line : String} (h : IsTrimmed line) :
    outdentLine (Block.indentLine line) = line := by
  unfold Block.indentLine outdentLine
  split
  · rename_i hblank
    rw [h.isBlankText_iff.mp hblank]
    rfl
  · rw [String.toList_append]
    exact String.ofList_toList

/-- So the lines of an arm are found again one level further out. -/
theorem map_outdentLine_indentLine {arm : List String} (h : ∀ line ∈ arm, IsTrimmed line) :
    (arm.map Block.indentLine).map outdentLine = arm := by
  rw [List.map_map]
  exact (List.map_congr_left fun line hline => outdentLine_indentLine (h line hline)).trans
    (List.map_id arm)

/-- An indented line closes no arm. -/
theorem indentLine_ne_brace (line : String) : Block.indentLine line ≠ "\x7d" := by
  unfold Block.indentLine
  split
  · decide
  · intro h
    have hhead := congrArg (fun text : String => text.toList.head?) h
    simp [Block.indentation] at hhead

/-- An arm ends with its closing brace. -/
theorem splitArm_armLines (arm rest : List String) :
    splitArm (armLines arm ++ rest) = (arm.map Block.indentLine, rest) := by
  have hopen : ∀ line ∈ arm.map Block.indentLine, decide (line ≠ "\x7d") = true := by
    rw [List.forall_mem_map]
    exact fun line _ => decide_eq_true (indentLine_ne_brace line)
  have htail : (armLines arm ++ rest).tail = arm.map Block.indentLine ++ "\x7d" :: rest := by
    simp [armLines]
  rw [splitArm, htail, List.takeWhile_append_of_pos hopen, List.dropWhile_append_of_pos hopen]
  simp

/-- The lines of a guard are skipped under the first encoding and read without their arm's braces
under the second one. -/
theorem keptLines_guard (encoding : Encoding) {arm : List String} (h : ∀ line ∈ arm, IsTrimmed line)
    (rest : List String) :
    keptLines encoding direction (guardLine direction :: armLines arm ++ rest) =
      match encoding with
      | .slice1 => rest
      | .slice2 => arm ++ rest := by
  rw [List.cons_append, keptLines, if_pos rfl, splitArm_armLines]
  dsimp only
  rw [map_outdentLine_indentLine h]

/-- Of a branch, the lines of the arm for the encoding are read. -/
theorem keptLines_branch (encoding : Encoding) {older newer : List String}
    (holder : ∀ line ∈ older, IsTrimmed line) (hnewer : ∀ line ∈ newer, IsTrimmed line)
    (rest : List String) :
    keptLines encoding direction
        (branchLine direction :: armLines older ++ "else // Slice2" :: armLines newer ++ rest) =
      match encoding with
      | .slice1 => older ++ rest
      | .slice2 => newer ++ rest := by
  have hcondition : branchLine direction ≠ guardLine direction := by cases direction <;> decide
  rw [List.append_assoc, List.cons_append, keptLines, if_neg hcondition, if_pos rfl,
    splitArm_armLines]
  dsimp only
  rw [List.cons_append, List.tail_cons, splitArm_armLines]
  dsimp only
  rw [map_outdentLine_indentLine holder, map_outdentLine_indentLine hnewer]

/-- Lines that begin with a statement are kept under both encodings. -/
theorem keptLines_of_head? (encoding : Encoding) {ls : List String}
    (h : ∀ line ∈ ls.head?, ∃ opening ∈ statementOpenings, opening.toList <+: line.toList) :
    keptLines encoding direction ls = ls := by
  -- `if (this.` and the conditions of a dispatch part after `if (`.
  have hother : ∀ opening ∈ statementOpenings, ¬opening.toList <+: (guardLine direction).toList ∧
      ¬opening.toList <+: (branchLine direction).toList := by cases direction <;> decide +kernel
  cases ls with
  | nil => rfl
  | cons first rest =>
    obtain ⟨opening, hopening, hopens⟩ := h first rfl
    obtain ⟨hguard, hbranch⟩ := hother opening hopening
    rw [keptLines, if_neg, if_neg]
    · rintro rfl
      exact hbranch hopens
    · rintro rfl
      exact hguard hopens

/-- Keeping an arm of normal lines keeps lines of them. -/
theorem keepArm_unlines (encoding : Encoding) (direction : Direction) {ls : List String}
    (h : IsNormal ls) :
    keepArm encoding direction (unlines ls) = unlines (keptLines encoding direction ls) := by
  by_cases hne : ls = []
  · -- The text of no lines has one line, which is empty.
    subst hne
    have hkept : keptLines encoding direction [""] = [""] := by cases direction <;> rfl
    rw [keepArm, unlines_nil, lines_empty, hkept, unlines_singleton, keptLines, unlines_nil]
  · rw [keepArm, lines_unlines hne h.noBreak]

/-- The lines of a block that is not empty are the lines of the text of its code. -/
theorem blockLines_eq_lines {block : SliceRecords.Block} (hne : block ≠ []) :
    blockLines namespaceName block =
      (fun code => lines code.text) <$> renderBlock namespaceName block := by
  have htext : (fun code => lines code.text) <$> renderBlock namespaceName block =
      lines <$> Block.text <$> renderBlock namespaceName block := (Functor.map_map _ _ _).symm
  rw [htext, text_renderBlock]
  cases hlines : blockLines namespaceName block with
  | error error => rfl
  | ok ls =>
    obtain ⟨hnormal, hls⟩ := isNormal_of_blockLines hlines
    exact congrArg Except.ok (lines_unlines (hls hne) hnormal.noBreak).symm

/-- The code of two blocks in a row has the text of the first one, then that of the second one. An
empty block has no text. -/
theorem text_renderBlock_append (a b : SliceRecords.Block) :
    Block.text <$> renderBlock namespaceName (a ++ b) = do
      let front ← renderBlock namespaceName a
      let rest ← renderBlock namespaceName b
      return if a.isEmpty then rest.text else if b.isEmpty then front.text
        else front.text ++ "\n" ++ rest.text := by
  have hnil : renderBlock namespaceName [] = .ok {} := rfl
  by_cases ha : a = []
  · subst ha
    exact (bind_pure_comp Block.text (renderBlock namespaceName b)).symm
  by_cases hb : b = []
  · subst hb
    have hfront : a.isEmpty = false := by simpa using ha
    rw [List.append_nil, hnil, hfront]
    exact (bind_pure_comp Block.text (renderBlock namespaceName a)).symm
  have hjoin (front rest : Block) : unlines (lines front.text ++ lines rest.text) =
      front.text ++ "\n" ++ rest.text := by
    rw [unlines_append (lines_ne_nil _) (lines_ne_nil _), unlines_lines, unlines_lines]
  rw [text_renderBlock, blockLines_append, blockLines_eq_lines ha, blockLines_eq_lines hb]
  simp [ha, hb, hjoin]

/-- The code of a guard has the condition, and the text of its block with every
line indented, in braces. -/
theorem text_renderBlock_guarded (direction : Direction) (block : SliceRecords.Block) :
    Block.text <$> renderBlock namespaceName [.guarded direction block] =
      (fun arm => unlines (guardLine direction :: armLines (lines arm.text))) <$>
        renderBlock namespaceName block := by
  rw [text_renderBlock, blockLines_guarded, Functor.map_map]

/-- The code of a branch has the text of either block in braces of its own. -/
theorem text_renderBlock_branch (direction : Direction) (slice1 slice2 : SliceRecords.Block) :
    Block.text <$> renderBlock namespaceName [.branch direction slice1 slice2] = do
      let older ← renderBlock namespaceName slice1
      let newer ← renderBlock namespaceName slice2
      return unlines (branchLine direction :: armLines (lines older.text) ++
        "else // Slice2" :: armLines (lines newer.text)) := by
  rw [text_renderBlock, blockLines_branch]
  simp only [map_bind, map_pure]

/-- The first line of a block that does not dispatch begins with a statement. -/
theorem exists_opening_of_head? {block : SliceRecords.Block}
    (hflat : ∀ i ∈ block, i.dispatchDirection? = none) {ls : List String}
    (h : blockLines namespaceName block = .ok ls) :
    ∀ line ∈ ls.head?, ∃ opening ∈ statementOpenings, opening.toList <+: line.toList := by
  intro line hline
  rw [blockLines, Result.map_eq_ok_iff] at h
  obtain ⟨pieces, hpieces, rfl⟩ := h
  cases block with
  | nil =>
    cases hpieces
    cases hline
  | cons instruction rest =>
    simp only [blockPieces, Result.bind_eq_ok_iff, Result.pure_eq_ok_iff] at hpieces
    obtain ⟨first, hfirst, others, _, rfl⟩ := hpieces
    obtain ⟨opening, hopening, hbounded⟩ :=
      areStatements_instructionPieces (hflat instruction List.mem_cons_self) hfirst
    obtain ⟨whole, hwhole, hopens⟩ := hbounded.exists_head? (isOpeningText_of_mem hopening)
    have hhead : whole ∈ (Block.cleanLines (first ++ others)).head? := by
      rw [Block.cleanLines_append, List.head?_append, Option.mem_def.mp hwhole]
      rfl
    rw [Option.mem_unique hline hhead]
    exact ⟨opening, hopening, hopens⟩

/-- Of the lines of the body of a struct, those that count under an encoding are the lines of its
fields under that encoding and of its framing. -/
theorem blockLines_kept {struct : Struct} {body : SliceRecords.Block}
    (hbody : Dispatch.body struct direction = .ok body) {ls : List String}
    (h : blockLines namespaceName body = .ok ls) {encoding : Encoding}
    (hencoding : encoding ∈ struct.encodings) :
    blockLines namespaceName
      (Layout.synthesize struct.fields encoding direction ++ struct.framing direction) =
      .ok (keptLines encoding direction ls) := by
  simp only [Dispatch.body, Result.bind_eq_ok_iff, Result.pure_eq_ok_iff] at hbody
  obtain ⟨block, hblock, rfl⟩ := hbody
  rcases Dispatch.arms_of_generate hblock with
    hshared | ⟨_, ⟨hslice1, hslice2, rfl⟩ | ⟨hslice1, hslice2, rfl⟩⟩
  · have hflat : ∀ i ∈ block ++ struct.framing direction, i.dispatchDirection? = none := by
      rw [List.forall_mem_append, hshared encoding hencoding]
      exact ⟨fun _ hi => (Layout.flat_of_mem_synthesize hi).1,
        Dispatch.framing_flat struct direction⟩
    rw [← hshared encoding hencoding, keptLines_of_head? encoding (exists_opening_of_head? hflat h),
      h]
  · simp only [blockLines_append, blockLines_guarded, Result.bind_eq_ok_iff, Result.map_eq_ok_iff,
      Result.pure_eq_ok_iff] at h
    obtain ⟨_, ⟨arm, harm, rfl⟩, framing, hframing, rfl⟩ := h
    rw [blockLines_append, keptLines_guard encoding fun line => Block.isTrimmed_of_mem_lines,
      hframing]
    cases encoding with
    | slice1 =>
      rw [hslice1]
      rfl
    | slice2 =>
      rw [blockLines_eq_lines hslice2, harm]
      rfl
  · simp only [blockLines_append, blockLines_branch, Result.bind_eq_ok_iff,
      Result.pure_eq_ok_iff] at h
    obtain ⟨_, ⟨older, holder, newer, hnewer, rfl⟩, framing, hframing, rfl⟩ := h
    rw [blockLines_append, keptLines_branch encoding (fun line => Block.isTrimmed_of_mem_lines)
      fun line => Block.isTrimmed_of_mem_lines, hframing]
    cases encoding with
    | slice1 =>
      rw [blockLines_eq_lines hslice1, holder]
      rfl
    | slice2 =>
      rw [blockLines_eq_lines hslice2, hnewer]
      rfl

/-- The code of a struct is the rendered form of its body. -/
theorem structBody_eq_ok_iff {struct : Struct} {code : Block} :
    structBody namespaceName struct direction = .ok code ↔
    ∃ body, Dispatch.body struct direction = .ok body ∧
      renderBlock namespaceName body = .ok code := by
  simp [structBody]

/-- What counts under an encoding in the text of the body of a struct is the text of its fields
under that encoding and of its framing. -/
theorem keepArm_structBody {struct : Struct} {code : Block}
    (h : structBody namespaceName struct direction = .ok code) {encoding : Encoding}
    (hencoding : encoding ∈ struct.encodings) :
    ∃ plan, renderBlock namespaceName
      (Layout.synthesize struct.fields encoding direction ++ struct.framing direction) = .ok plan ∧
      keepArm encoding direction code.text = plan.text := by
  obtain ⟨body, hbody, hcode⟩ := structBody_eq_ok_iff.mp h
  have htext := text_renderBlock namespaceName body
  rw [hcode] at htext
  obtain ⟨ls, hlines, hls⟩ := Result.map_eq_ok_iff.mp htext.symm
  have hplan := text_renderBlock namespaceName
    (Layout.synthesize struct.fields encoding direction ++ struct.framing direction)
  rw [blockLines_kept hbody hlines hencoding] at hplan
  obtain ⟨plan, hrender, hkept⟩ := Result.map_eq_ok_iff.mp hplan
  refine ⟨plan, hrender, ?_⟩
  rw [hkept, ← hls, keepArm_unlines encoding direction (isNormal_of_blockLines hlines).1]

/-- Two blocks can be rendered one after the other exactly if each of them can be. -/
theorem exists_renderBlock_append_iff {a b : SliceRecords.Block} :
    (∃ code, renderBlock namespaceName (a ++ b) = .ok code) ↔
    (∃ code, renderBlock namespaceName a = .ok code) ∧
    ∃ code, renderBlock namespaceName b = .ok code := by
  simp [renderBlock, blockPieces_append]

/-- A guard can be rendered exactly if its block can be. -/
theorem exists_renderBlock_guarded_iff {block : SliceRecords.Block} :
    (∃ code, renderBlock namespaceName [.guarded direction block] = .ok code) ↔
      ∃ code, renderBlock namespaceName block = .ok code := by
  simp [renderBlock, blockPieces, instructionPieces]

/-- A branch can be rendered exactly if both of its arms can be. -/
theorem exists_renderBlock_branch_iff {slice1 slice2 : SliceRecords.Block} :
    (∃ code, renderBlock namespaceName [.branch direction slice1 slice2] = .ok code) ↔
      (∃ code, renderBlock namespaceName slice1 = .ok code) ∧
        ∃ code, renderBlock namespaceName slice2 = .ok code := by
  simp [renderBlock, blockPieces, instructionPieces]

/-- The body of a struct has code exactly if its fields have code under each
encoding that it supports. -/
theorem exists_structBody_iff {struct : Struct} :
    (∃ code, structBody namespaceName struct direction = .ok code) ↔
    ∀ encoding ∈ struct.encodings, ∃ plan, renderBlock namespaceName
        (Layout.synthesize struct.fields encoding direction ++ struct.framing direction) =
        .ok plan := by
  constructor
  · rintro ⟨code, hcode⟩ encoding hencoding
    obtain ⟨plan, hplan, _⟩ := keepArm_structBody hcode hencoding
    exact ⟨plan, hplan⟩
  intro hplans
  obtain ⟨block, hblock, _⟩ := Dispatch.generate_toList struct.fields struct.encodings direction
  have hbody : Dispatch.body struct direction = .ok (block ++ struct.framing direction) := by
    simp [Dispatch.body, hblock]
  suffices hcode :
      ∃ code, renderBlock namespaceName (block ++ struct.framing direction) = .ok code by
    obtain ⟨code, hcode⟩ := hcode
    exact ⟨code, structBody_eq_ok_iff.mpr ⟨_, hbody, hcode⟩⟩
  simp only [exists_renderBlock_append_iff] at hplans ⊢
  rcases Dispatch.arms_of_generate hblock with hshared | ⟨hboth, harms⟩
  · obtain ⟨encoding, hencoding⟩ := struct.encodings.exists_mem
    rw [hshared encoding hencoding]
    exact hplans encoding hencoding
  · have hslice1 := hplans .slice1 (by rw [hboth]; decide)
    have hslice2 := hplans .slice2 (by rw [hboth]; decide)
    rcases harms with ⟨_, _, rfl⟩ | ⟨_, _, rfl⟩
    · exact ⟨exists_renderBlock_guarded_iff.mpr hslice2.1, hslice2.2⟩
    · exact ⟨exists_renderBlock_branch_iff.mpr ⟨hslice1.1, hslice2.1⟩, hslice2.2⟩

/-- The text of generated code is put together from the texts of its parts. Two blocks in a row have
the text of the first one, a line feed and the text of the second one, and an empty block adds
nothing. A guard and a branch have the texts of their blocks, every line indented, in braces behind
the conditions. The body of a struct has code exactly if its fields have code under each encoding
that it supports, and what its text keeps of a dispatch under such an encoding is the text of the
fields under this encoding and of the framing. -/
theorem text_arms (namespaceName : String) :
    (∀ a b : SliceRecords.Block,
      Block.text <$> renderBlock namespaceName (a ++ b) = do
        let front ← renderBlock namespaceName a
        let rest ← renderBlock namespaceName b
        return if a.isEmpty then rest.text else if b.isEmpty then front.text
          else front.text ++ "\n" ++ rest.text) ∧
    (∀ (direction : Direction) (block : SliceRecords.Block),
      Block.text <$> renderBlock namespaceName [.guarded direction block] =
        (fun arm => unlines (guardLine direction :: armLines (lines arm.text))) <$>
          renderBlock namespaceName block) ∧
    (∀ (direction : Direction) (slice1 slice2 : SliceRecords.Block),
      Block.text <$> renderBlock namespaceName [.branch direction slice1 slice2] = do
        let older ← renderBlock namespaceName slice1
        let newer ← renderBlock namespaceName slice2
        return unlines (branchLine direction :: armLines (lines older.text) ++
          "else // Slice2" :: armLines (lines newer.text))) ∧
    ∀ (struct : Struct) (direction : Direction),
      ((∃ code, structBody namespaceName struct direction = .ok code) ↔
       ∀ encoding ∈ struct.encodings, ∃ plan, renderBlock namespaceName
           (Layout.synthesize struct.fields encoding direction ++ struct.framing direction) =
           .ok plan) ∧
      ∀ code, structBody namespaceName struct direction = .ok code →
        ∀ encoding ∈ struct.encodings, ∃ plan, renderBlock namespaceName
            (Layout.synthesize struct.fields encoding direction ++ struct.framing direction) =
            .ok plan ∧
            keepArm encoding direction code.text = plan.text := by
  refine ⟨text_renderBlock_append, text_renderBlock_guarded, text_renderBlock_branch,
    fun struct direction => ⟨exists_structBody_iff, ?_⟩⟩
  intro code hcode encoding hencoding
  exact keepArm_structBody hcode hencoding

/-- The text of a guard and of a branch, and both arms of the body of a
struct with a tagged field. -/
theorem text_arms_tagged :
    (Block.text <$> renderBlock "Demo" [.guarded .encode [.tagEndMarker]] =
       .ok (unlines ["if (encoder.Encoding != SliceEncoding.Slice1) // Slice2 only", "\x7b",
         "    encoder.EncodeVarInt32(Slice2Definitions.TagEndMarker);", "\x7d"])) ∧
    (Block.text <$>
       renderBlock "Demo" [.branch .decode [.bitSequence .decode (.integer 2)] [.skipTagged]] =
       .ok (unlines ["if (decoder.Encoding == SliceEncoding.Slice1)", "\x7b",
         "    var bitSequenceReader = decoder.GetBitSequenceReader(2);", "\x7d", "else // Slice2",
         "\x7b", "    decoder.SkipTagged();", "\x7d"])) ∧
    ∃ (struct : Struct) (code older newer : Block),
      struct.fields.map Field.isTagged = [true, false] ∧
      structBody "Demo" struct .encode = .ok code ∧
      renderBlock "Demo" (Layout.synthesize struct.fields .slice1 .encode ++ [.tagEndMarker]) =
        .ok older ∧
      keepArm .slice1 .encode code.text = older.text ∧
      renderBlock "Demo" (Layout.synthesize struct.fields .slice2 .encode ++ [.tagEndMarker]) =
        .ok newer ∧
      keepArm .slice2 .encode code.text = newer.text := by
  obtain ⟨_, hguarded, hbranch, hstruct⟩ := text_arms "Demo"
  refine ⟨?_, ?_, ?_⟩
  · exact (hguarded .encode [.tagEndMarker]).trans (by decide +kernel)
  · exact (hbranch .decode [.bitSequence .decode (.integer 2)] [.skipTagged]).trans
      (by decide +kernel)
  · let struct : Struct :=
      { name := "Reading"
        fields :=
          [{ name := "note"
             type := { kind := .primitive, name := some "string", optional := true }
             tag := some (.integer 1) },
            { name := "value", type := { kind := .primitive, name := some "int32" } }]
        encodings := .both }
    have hwell : ∀ field ∈ struct.fields, field.type.WellFormed := by
      simp only [struct, List.forall_mem_cons]
      exact ⟨.primitive .string true none none none, .primitive .int32 false none none none,
        List.forall_mem_nil _⟩
    obtain ⟨code, hcode⟩ := exists_structBody "Demo" hwell .encode
    obtain ⟨older, holder, hslice1⟩ := (hstruct struct .encode).2 code hcode .slice1 (by decide)
    obtain ⟨newer, hnewer, hslice2⟩ := (hstruct struct .encode).2 code hcode .slice2 (by decide)
    exact ⟨struct, code, older, newer, rfl, hcode, holder, hslice1, hnewer, hslice2⟩

end Code

end SliceRecords
