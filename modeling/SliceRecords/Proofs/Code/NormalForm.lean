import Mathlib.Data.List.Forall2
import Mathlib.Logic.Function.Iterate
import SliceRecords.Proofs.Code.Stacking

/-!
# Normal forms and levels of indentation

The text of a block is the normal form of its content: the lines that are left between the blank
ones at both ends, each without the blanks at its end. Indenting moves the lines that are not blank
and nothing else, so it can be undone, and blocks compare at every level of indentation as they did
before. Main statements: `normalLines_eq_iff`, `unindent?_text_indent` and
`text_isNormalForm_and_unindents`.
-/

namespace SliceRecords

namespace Text

/-- A line is another one with blanks behind it. -/
def ExtendsByBlanks (line kept : String) : Prop :=
  ∃ blanks, isBlankText blanks = true ∧ line = kept ++ blanks

/-- A line is its trimmed form with blanks behind it. -/
theorem extendsByBlanks_trimEnd (line : String) : ExtendsByBlanks line (trimEnd isBlank line) := by
  obtain ⟨blanks, happend, hblanks⟩ := exists_dropTrailing_append isBlank line.toList
  refine ⟨String.ofList blanks, ?_, ?_⟩
  · rwa [isBlankText, String.toList_ofList, List.all_eq_true]
  · rw [trimEnd, ← String.ofList_append, happend, String.ofList_toList]

/-- Blanks behind a trimmed line are what trimming takes away. -/
theorem ExtendsByBlanks.trimEnd_eq {line kept : String} (h : ExtendsByBlanks line kept)
    (hkept : IsTrimmed kept) : trimEnd isBlank line = kept := by
  obtain ⟨blanks, hblanks, rfl⟩ := h
  rw [trimEnd_append_eq, if_pos (trimEnd_eq_empty_iff.mpr hblanks), hkept]

/-- Trimmed lines are found again by trimming lines that extend them by blanks. -/
theorem map_trimEnd_eq_of_extendsByBlanks {ls kept : List String}
    (h : List.Forall₂ ExtendsByBlanks ls kept) (hkept : ∀ line ∈ kept, IsTrimmed line) :
    ls.map (trimEnd isBlank) = kept := by
  induction h with
  | nil => rfl
  | cons hline _ ih =>
    obtain ⟨hfirst, hrest⟩ := List.forall_mem_cons.mp hkept
    rw [List.map_cons, hline.trimEnd_eq hfirst, ih hrest]

end Text

namespace Code.Block

open Text

/-- Normal lines are what a content keeps if they are its lines, up to blanks at the ends of lines
and up to blank lines at both ends. -/
structure IsNormalForm (content : String) (ls : List String) : Prop where
  normal : IsNormal ls
  kept : ∃ front middle last, lines content = front ++ middle ++ last ∧
    (∀ line ∈ front ++ last, isBlankText line = true) ∧ List.Forall₂ ExtendsByBlanks middle ls

/-- The normal lines of a text are its normal form. -/
theorem isNormalForm_normalLines (content : String) :
    IsNormalForm content (normalLines content) := by
  refine ⟨isNormal_normalLines content, ?_⟩
  obtain ⟨first, last, happend, hempty⟩ :=
    exists_append_dropEnds_append String.isEmpty ((lines content).map (trimEnd isBlank))
  -- What is dropped and what is kept are trimmed lines: go back to the lines they come from.
  obtain ⟨outer, lastLines, hlines, houter, hlast⟩ := List.map_eq_append_iff.mp happend.symm
  obtain ⟨firstLines, middle, rfl, hfirst, hmiddle⟩ := List.map_eq_append_iff.mp houter
  refine ⟨firstLines, middle, lastLines, hlines, ?_, ?_⟩
  · intro line hline
    have htrimmed : trimEnd isBlank line ∈ first ++ last := by
      rw [← hfirst, ← hlast, ← List.map_append]
      exact List.mem_map_of_mem hline
    exact trimEnd_eq_empty_iff.mp (String.isEmpty_iff.mp (hempty _ htrimmed))
  · rw [normalLines, ← hmiddle, List.forall₂_map_right_iff, List.forall₂_same]
    exact fun line _ => extendsByBlanks_trimEnd line

/-- A content has one normal form. -/
theorem IsNormalForm.normalLines_eq {content : String} {ls : List String}
    (h : IsNormalForm content ls) : normalLines content = ls := by
  obtain ⟨front, middle, last, hlines, hblank, hkept⟩ := h.kept
  have hmiddle : middle.map (trimEnd isBlank) = ls :=
    map_trimEnd_eq_of_extendsByBlanks hkept h.normal.trimmed
  have hempty : ∀ line ∈ (front ++ last).map (trimEnd isBlank), line = "" :=
    List.forall_mem_map.mpr fun line hline => trimEnd_eq_empty_iff.mpr (hblank line hline)
  rw [List.map_append] at hempty
  rw [normalLines, hlines, List.map_append, List.map_append, hmiddle]
  exact h.normal.dropEnds_append_append hempty

/-- There is no other normal form of a text. -/
theorem normalLines_eq_iff {content : String} {ls : List String} :
    normalLines content = ls ↔ IsNormalForm content ls := by
  constructor
  · rintro rfl
    exact isNormalForm_normalLines content
  · exact IsNormalForm.normalLines_eq

/-- The text of a block is the normal form of its content. -/
theorem text_eq_iff {block : Block} {t : String} :
    block.text = t ↔ ∃ ls, IsNormalForm block.content ls ∧ t = unlines ls := by
  constructor
  · rintro rfl
    exact ⟨normalLines block.content, normalLines_eq_iff.mp rfl, by rw [text]⟩
  · rintro ⟨ls, hls, rfl⟩
    rw [text, normalLines_eq_iff.mpr hls]

/-- The text of a block is in normal form. -/
theorem text_text (block : Block) : (⟨block.text⟩ : Block).text = block.text := by
  by_cases hempty : block.text = ""
  · rw [hempty, text_eq_empty_iff]
    rfl
  · exact text_mk_of_isNormal (isNormal_lines_text hempty)

/-- A line one level further out: a blank line as it is, another one without the four spaces with
which it has to begin. -/
def unindentLine? (line : String) : Option String :=
  if isBlankText line then some line
  else (line.toList.dropPrefix? (List.replicate 4 ' ')).map String.ofList

/-- A text one level further out, if all of its lines that are not blank begin with four spaces. -/
def unindent? (t : String) : Option String :=
  ((lines t).mapM unindentLine?).map unlines

/-- A text is another one, one level further in: it has as many lines, the same ones of them are
blank, and without four spaces in front of each of the others it is the other text. -/
structure IsOneLevelIn (inner outer : String) : Prop where
  length_lines : (lines inner).length = (lines outer).length
  isBlankText_lines : (lines inner).map isBlankText = (lines outer).map isBlankText
  unindent? : unindent? inner = some outer

/-- Indenting a trimmed line can be undone. -/
theorem unindentLine?_indentLine {line : String} (h : IsTrimmed line) :
    unindentLine? (indentLine line) = some line := by
  have hspaces : (indentation.toList == List.replicate 4 ' ') = true := by decide
  rw [unindentLine?, isBlankText_indentLine]
  by_cases hblank : isBlankText line = true
  · rw [if_pos hblank, indentLine, if_pos hblank, h.isBlankText_iff.mp hblank]
  · rw [if_neg hblank, indentLine, if_neg hblank, String.toList_append,
      List.dropPrefix?_append_of_beq line.toList hspaces, Option.map_some, String.ofList_toList]

/-- Indented lines can all be taken back out. -/
theorem mapM_unindentLine?_map_indentLine {ls : List String} (h : ∀ line ∈ ls, IsTrimmed line) :
    (ls.map indentLine).mapM unindentLine? = some ls := by
  induction ls with
  | nil => rfl
  | cons line rest ih =>
    obtain ⟨hline, hrest⟩ := List.forall_mem_cons.mp h
    rw [List.map_cons, List.mapM_cons, unindentLine?_indentLine hline, ih hrest]
    rfl

/-- Indenting a block can be undone. -/
theorem unindent?_text_indent (block : Block) : unindent? block.indent.text = some block.text := by
  rw [unindent?, lines_text_indent,
    mapM_unindentLine?_map_indentLine fun _ => isTrimmed_of_mem_lines, Option.map_some,
    unlines_lines]

example : unindent? "    a;\n\n        b;" = some "a;\n\n    b;" := by decide +kernel

/-- The text of an indented block lies one level further in than that of the block. -/
theorem isOneLevelIn_indent (block : Block) : IsOneLevelIn block.indent.text block.text := by
  refine ⟨?_, ?_, unindent?_text_indent block⟩
  · rw [lines_text_indent, List.length_map]
  · rw [lines_text_indent, List.map_map]
    exact List.map_congr_left fun line _ => isBlankText_indentLine line

/-- Blocks are equal exactly if they have the same text. -/
theorem same_iff {a b : Block} : a.same b = true ↔ a.text = b.text := by
  rw [same, beq_iff_eq]

/-- Blocks are the same exactly if they are one level further in. -/
theorem same_indent (a b : Block) : a.indent.same b.indent = a.same b := by
  rw [Bool.eq_iff_iff, same_iff, same_iff]
  constructor
  · intro h
    have hout := unindent?_text_indent a
    rw [h, unindent?_text_indent b] at hout
    exact (Option.some.inj hout).symm
  · intro h
    rw [text_indent, text_indent, h]

/-- Blocks compare in the same way at every level of indentation. -/
theorem same_iterate_indent (levels : Nat) (a b : Block) :
    (indent^[levels] a).same (indent^[levels] b) = a.same b := by
  induction levels with
  | zero => rfl
  | succ levels ih =>
    rw [Function.iterate_succ_apply', Function.iterate_succ_apply', same_indent, ih]

/-- The text of a block is the one normal form of its content. It is its own normal form, and it is
empty exactly if the block is. Indenting moves the lines of the text that are not blank by four
spaces and nothing else. Blocks are the same exactly if their texts are equal, and at every level of
indentation exactly if they are the same to begin with. -/
theorem text_isNormalForm_and_unindents (block other : Block) (levels : Nat) :
    (∀ t, block.text = t ↔ ∃ ls, IsNormalForm block.content ls ∧ t = unlines ls) ∧
      (⟨block.text⟩ : Block).text = block.text ∧
      (block.isEmpty = true ↔ block.text = "") ∧
      IsOneLevelIn block.indent.text block.text ∧
      (block.same other = true ↔ block.text = other.text) ∧
      (indent^[levels] block).same (indent^[levels] other) = block.same other := by
  refine ⟨fun t => text_eq_iff, text_text block, text_eq_empty_iff.symm, ?_, same_iff, ?_⟩
  · exact isOneLevelIn_indent block
  · exact same_iterate_indent levels block other

end Code.Block

end SliceRecords
