import SliceRecords.Proofs.Code.Composition
import SliceRecords.Proofs.Code.References
import SliceRecords.Proofs.Code.Stacking

/-!
# Members of a declaration

The text of a declaration of a type is what stands in front of it, and its members between braces:
the texts of the blocks that are not blank, in order, one empty line apart and one level further in,
however many blocks are added and whatever they hold. Main statement: `Container.text_build`.
-/

namespace SliceRecords

namespace Text

/-- Texts can be cut into their lines before they are put together. -/
theorem unlines_flatMap_lines_append {parts rest : List String} (hparts : parts ≠ [])
    (hrest : rest ≠ []) : unlines (parts.flatMap lines ++ rest) = unlines (parts ++ rest) := by
  have hlines : parts.flatMap lines ≠ [] := by
    obtain ⟨part, others, rfl⟩ := List.exists_cons_of_ne_nil hparts
    simp [lines_ne_nil]
  rw [unlines_append hlines hrest, unlines_append hparts hrest, ← lines_unlines_eq_flatMap hparts,
    unlines_lines]

/-- A text begins with its first line. -/
theorem isPrefix_of_mem_head?_lines {text line : String} (h : line ∈ (lines text).head?) :
    line.toList <+: text.toList := by
  obtain ⟨rest, hlines⟩ := List.head?_eq_some_iff.mp h
  rw [← unlines_lines text, hlines]
  by_cases hnil : rest = []
  · rw [hnil, unlines_singleton]
  · rw [unlines, String.intercalate_cons_of_ne_nil hnil]
    exact isPrefix_append (isPrefix_append List.prefix_rfl "\n") _

/-- A trimmed line that is not blank can open a line. -/
theorem IsTrimmed.isOpeningText {line : String} (h : IsTrimmed line)
    (hvisible : isBlankText line = false) (hbreak : '\n' ∉ line.toList) :
    isOpeningText line = true := by
  refine isOpeningText_iff.mpr ⟨?_, hbreak⟩
  have hne : line.toList ≠ [] := by
    rw [ne_eq, String.toList_eq_nil_iff, ← h.isBlankText_iff, hvisible]
    exact Bool.false_ne_true
  have hlast := List.getLast?_eq_some_getLast hne
  exact endsVisibly_iff.mpr ⟨_, hlast, isTrimmed_iff.mp h _ hlast⟩

end Text

namespace Code

open Text

/-- A comment begins with slashes. -/
theorem CommentTag.isPrefix_text (comment : CommentTag) : "///".toList <+: comment.text.toList := by
  have hslashes : "///".toList <+: "/// <".toList := by decide
  unfold CommentTag.text
  extract_lets opening content
  have hopening (rest : String) : "///".toList <+: ("/// <" ++ opening ++ rest).toList :=
    isPrefix_append (isPrefix_append hslashes opening) rest
  split
  · exact hopening " />"
  split
  · rename_i line _
    change _ <+: ("/// <" ++ opening ++ ">" ++ line ++ "</" ++ comment.tag ++ ">").toList
    exact isPrefix_append
      (isPrefix_append (isPrefix_append (isPrefix_append (hopening ">") line) "</") _) ">"
  · rw [List.singleton_append, List.cons_append, unlines,
      String.intercalate_cons_of_ne_nil (by simp)]
    exact isPrefix_append (isPrefix_append (hopening ">") "\n") _

/-- What stands in front of a declaration does not begin with a blank. -/
theorem Preamble.exists_opening {preamble : Preamble} (h : preamble.pieces ≠ []) :
    ∃ opening, isOpeningText opening = true ∧
      ∃ piece ∈ preamble.pieces.head?, opening.toList <+: piece.toList := by
  cases hcomments : preamble.comments with
  | cons comment rest =>
    exact ⟨"///", by decide, comment.text, by simp [pieces, hcomments], comment.isPrefix_text⟩
  | nil =>
    cases hattributes : preamble.attributes with
    | cons text rest =>
      refine ⟨"[", by decide, s!"[{text}]", by simp [pieces, hcomments, hattributes], ?_⟩
      change _ <+: ("[" ++ text ++ "]").toList
      exact isPrefix_append (isPrefix_append (by decide) text) "]"
    | nil => exact (h (by simp [pieces, hcomments, hattributes])).elim

/-- Trimmed texts with a header that does not begin with a blank line are
bounded, whatever follows. -/
theorem Preamble.exists_bounded (preamble : Preamble) {header : String}
    (htrimmed : ∀ line ∈ lines header, IsTrimmed line)
    (hheader : ∀ line ∈ (lines header).head?, isBlankText line = false) (inner : List String) :
    ∃ opening, isOpeningText opening = true ∧
      Block.Bounded opening (preamble.pieces ++ [header, "\x7b"] ++ inner ++ ["\x7d"]) := by
  have hlast : ∃ piece ∈ (preamble.pieces ++ [header, "\x7b"] ++ inner ++ ["\x7d"]).getLast?,
      endsVisibly piece = true :=
    ⟨"\x7d", List.getLast?_concat, by decide⟩
  by_cases hpieces : preamble.pieces = []
  · obtain ⟨line, rest, hlines⟩ := List.exists_cons_of_ne_nil (lines_ne_nil header)
    have hfirst : line ∈ (lines header).head? := by simp [hlines]
    have hmem := List.mem_of_mem_head? hfirst
    have hopening :=
      (htrimmed line hmem).isOpeningText (hheader line hfirst) (newline_notMem_of_mem_lines hmem)
    exact ⟨line, hopening, ⟨header, by simp [hpieces], isPrefix_of_mem_head?_lines hfirst⟩, hlast⟩
  · obtain ⟨opening, hopening, piece, hpiece, hprefix⟩ := Preamble.exists_opening hpieces
    exact ⟨opening, hopening, ⟨piece, by simp [Option.mem_def.mp hpiece], hprefix⟩, hlast⟩

/-- The lines of texts one empty line apart, each line that is not blank one level further in. -/
def memberLines (texts : List String) : List String :=
  [""].intercalate (texts.map fun text => (lines text).map Block.indentLine)

/-- The lines of texts one empty line apart, one level further in, are those of the members. -/
theorem map_indentLine_lines_stacked {texts : List String} (h : texts ≠ []) :
    (lines (Block.stacked texts)).map Block.indentLine = memberLines texts := by
  induction texts with
  | nil => exact (h rfl).elim
  | cons text rest ih =>
    cases rest with
    | nil => simp [Block.stacked, memberLines, List.intercalate]
    | cons next others =>
      have hstacked : Block.stacked (text :: next :: others) =
          text ++ "\n\n" ++ Block.stacked (next :: others) :=
        String.intercalate_cons_of_ne_nil (List.cons_ne_nil next others)
      have hblank : Block.indentLine "" = "" := by decide
      rw [hstacked, Block.lines_append_gap_append, List.map_append, List.map_cons, hblank,
        ih (List.cons_ne_nil next others)]
      simp [memberLines, List.intercalate]

/-- The pieces of a body between braces have its normal lines, one level further in. -/
theorem cleanLines_body (body : Block) :
    Block.cleanLines (["\x7b"] ++ (if body.isEmpty then [] else [body.indent.text]) ++ ["\x7d"]) =
      armLines (Block.normalLines body.content) := by
  by_cases hempty : body.isEmpty = true
  · rw [if_pos hempty, Block.normalLines_eq_nil_iff.mpr hempty]
    decide
  · have hne : body.text ≠ "" := mt Block.text_eq_empty_iff.mp hempty
    rw [if_neg hempty, List.singleton_append, List.cons_append, List.singleton_append,
      cleanLines_braces, Block.lines_text_of_ne_empty hne]

/-- The pieces of a body of blocks between braces have the lines of their texts. -/
theorem cleanLines_foldl_addBlock (blocks : List Block) :
    Block.cleanLines (["\x7b"] ++
        (if (blocks.foldl Block.addBlock {}).isEmpty then []
          else [(blocks.foldl Block.addBlock {}).indent.text]) ++ ["\x7d"]) =
      "\x7b" :: memberLines (Block.visibleTexts blocks) ++ ["\x7d"] := by
  have htext := Block.text_foldl_addBlock blocks
  rw [cleanLines_body]
  by_cases hnil : Block.visibleTexts blocks = []
  · have hempty : (blocks.foldl Block.addBlock {}).isEmpty = true := by
      rw [← Block.text_eq_empty_iff, htext, hnil]
      rfl
    rw [Block.normalLines_eq_nil_iff.mpr hempty, hnil]
    rfl
  · have hne : (blocks.foldl Block.addBlock {}).text ≠ "" := by
      rw [htext]
      exact (Block.isNormal_lines_stacked hnil fun _ => Block.isNormal_of_mem_visibleTexts).ne_empty
    rw [← Block.lines_text_of_ne_empty hne, htext, armLines, map_indentLine_lines_stacked hnil]

/-- A method under a comment prints what stands in front of it, its header, and
its body between braces. -/
theorem Method.lines_text_build (method : Method) (hne : method.preamble.comments ≠ []) :
    lines method.build.text =
      Block.cleanLines method.preamble.pieces ++ Block.cleanLines [method.header] ++
        armLines (Block.normalLines method.body.content) := by
  obtain ⟨comment, rest, hcomments⟩ := List.exists_cons_of_ne_nil hne
  have hbounded : Block.Bounded "///" (method.preamble.pieces ++ [method.header, "\x7b"] ++
      (if method.body.isEmpty then [] else [method.body.indent.text]) ++ ["\x7d"]) :=
    ⟨⟨comment.text, by simp [Preamble.pieces, hcomments], comment.isPrefix_text⟩,
      ⟨"\x7d", List.getLast?_concat, by decide⟩⟩
  rw [build, braced, hbounded.lines_text_ofLines (by decide), ← cleanLines_body,
    ← Block.cleanLines_append, ← Block.cleanLines_append]
  simp only [List.append_assoc, List.cons_append, List.nil_append]

/-- Trimmed lines stay as they are in the text of a declaration, and its members
stand between braces. -/
theorem text_braced_foldl_addBlock {preamble : Preamble} {header : String}
    (htrimmed : ∀ piece ∈ preamble.pieces ++ [header], ∀ line ∈ lines piece, IsTrimmed line)
    (hheader : ∀ line ∈ (lines header).head?, isBlankText line = false) (blocks : List Block) :
    (braced preamble header (blocks.foldl Block.addBlock {})).text = unlines (preamble.pieces ++
      [header, "\x7b"] ++ memberLines (Block.visibleTexts blocks) ++ ["\x7d"]) := by
  have hlines : ∀ line ∈ lines header, IsTrimmed line := htrimmed header (by simp)
  have hfront : Block.cleanLines (preamble.pieces ++ [header]) =
      (preamble.pieces ++ [header]).flatMap lines :=
    (List.map_congr_left fun line hline =>
      have ⟨piece, hpiece, hmem⟩ := List.mem_flatMap.mp hline
      htrimmed piece hpiece line hmem).trans (List.map_id _)
  have hsplit (inner : List String) : preamble.pieces ++ [header, "\x7b"] ++ inner ++ ["\x7d"] =
      preamble.pieces ++ [header] ++ (["\x7b"] ++ inner ++ ["\x7d"]) := by simp
  rw [braced]
  obtain ⟨opening, hopening, hbounded⟩ :=
    preamble.exists_bounded hlines hheader
      (if (blocks.foldl Block.addBlock {}).isEmpty then []
      else [(blocks.foldl Block.addBlock {}).indent.text])
  rw [Block.text_ofLines (hbounded.isNormal_cleanLines hopening), hsplit, hsplit,
    Block.cleanLines_append, hfront, cleanLines_foldl_addBlock,
    unlines_flatMap_lines_append (by simp) (by simp)]
  rfl

/-- The text of a declaration of trimmed lines under a header that does not begin with a blank line:
the preamble, the header, and between braces the texts of the blocks that are not blank, in order,
one empty line apart and four spaces further in; a raw text counts as the block that holds it.
Without a declaration, blocks that are added one after the other have the texts of those that are
not empty, one empty line apart. -/
theorem Container.text_build (type name : String) (preamble : Preamble) (blocks : List Block) :
    ((∀ piece ∈ preamble.pieces ++ [s!"{type} {name}"], ∀ line ∈ lines piece, IsTrimmed line) →
     (∀ line ∈ (lines s!"{type} {name}").head?, isBlankText line = false) →
     (blocks.foldl addBlock { type, name, preamble }).build.text =
       unlines (preamble.pieces ++ [s!"{type} {name}", "\x7b"] ++
         memberLines ((blocks.filter fun block => !isBlankText block.content).map Block.text) ++
         ["\x7d"])) ∧
    (blocks.foldl Block.addBlock {}).text =
      "\n\n".intercalate ((blocks.map Block.text).filter (· ≠ "")) := by
  refine ⟨fun htrimmed hheader => ?_, Block.text_foldl_addBlock blocks⟩
  have hvisible : ∀ block ∈ blocks.filter fun block => !block.isEmpty, block.text ≠ "" := by
    intro block hblock
    rw [ne_eq, Block.text_eq_empty_iff]
    simpa using (List.mem_filter.mp hblock).2
  rw [Container.foldl_addBlock, List.nil_append, build, body,
    text_braced_foldl_addBlock htrimmed hheader, Block.visibleTexts_of_forall hvisible]
  rfl

/-- A preamble of a comment and an attribute. -/
def pointPreamble : Preamble :=
  { comments := [⟨"summary", "A point.", none, none⟩], attributes := ["A"] }

/-- Blocks that are blank, have indented or empty lines, or have blanks at their ends. -/
def pointBlocks : List Block :=
  [⟨"int X;\n\n    int Y;  \n"⟩, ⟨" \n"⟩, ⟨"\nint Z;"⟩]

/-- Under a comment and an attribute a blank block leaves no trace, and blanks at the ends of the
others are gone. -/
theorem Container.text_build_documented :
    (pointBlocks.foldl addBlock
      { type := "class", name := "Point", preamble := pointPreamble }).build.text =
      unlines ["/// <summary>A point.</summary>", "[A]", "class Point", "\x7b", "    int X;", "",
        "        int Y;", "", "    int Z;", "\x7d"] := by
  have htrimmed :
      ∀ piece ∈ pointPreamble.pieces ++ ["class Point"], ∀ line ∈ lines piece, IsTrimmed line := by
    unfold IsTrimmed
    decide +kernel
  rw [(Container.text_build "class" "Point" pointPreamble pointBlocks).1 htrimmed
    (by decide +kernel)]
  decide +kernel

end Code

end SliceRecords
