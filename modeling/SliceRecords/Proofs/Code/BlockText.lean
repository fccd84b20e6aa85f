import SliceRecords.Code.Block
import SliceRecords.Proofs.Text.NormalLines

/-!
# Texts of blocks

The text of a block is made of normal lines, and indenting a block indents these lines. A block that
is put together from pieces has the lines of the pieces without blanks at their ends, if the first
and the last of them are not empty. Main statements: `text_ofLines` and `text_indent`.
-/

namespace SliceRecords.Code.Block

open Text

/-- The normal lines of a text are normal. -/
theorem isNormal_normalLines (content : String) : IsNormal (normalLines content) := by
  apply isNormal_dropEnds
  · intro line hline
    obtain ⟨whole, hwhole, rfl⟩ := List.mem_map.mp hline
    exact newline_notMem_trimEnd (newline_notMem_of_mem_lines hwhole)
  · intro line hline
    obtain ⟨whole, _, rfl⟩ := List.mem_map.mp hline
    exact isTrimmed_trimEnd whole

/-- Normal lines that are put together are the lines of the normal text. -/
theorem normalLines_unlines {ls : List String} (h : IsNormal ls) :
    normalLines (unlines ls) = ls := by
  cases ls with
  | nil => rfl
  | cons first rest =>
    rw [normalLines, lines_unlines (List.cons_ne_nil first rest) h.noBreak,
      map_trimEnd_eq_self h.trimmed]
    simpa using h.dropEnds_append (List.forall_mem_nil _)

/-- Indenting a trimmed line leaves it trimmed. -/
theorem isTrimmed_indentLine {line : String} (h : IsTrimmed line) :
    IsTrimmed (indentLine line) := by
  unfold indentLine
  split
  · rfl
  · rename_i hblank
    rw [h.isBlankText_iff] at hblank
    exact h.append hblank indentation

/-- Indenting a line adds no line feed. -/
theorem newline_notMem_indentLine {line : String} (h : '\n' ∉ line.toList) :
    '\n' ∉ (indentLine line).toList := by
  unfold indentLine
  split
  · simp
  · simp [indentation, h]

/-- A line is blank one level further in exactly if it is blank. -/
theorem isBlankText_indentLine (line : String) :
    isBlankText (indentLine line) = isBlankText line := by
  have hspaces : isBlankText indentation = true := by decide
  unfold indentLine
  split
  · rename_i hblank
    rw [hblank]
    rfl
  · rw [isBlankText, String.toList_append, List.all_append]
    exact congrArg (· && isBlankText line) hspaces

/-- A trimmed line that is not empty is not empty one level further in. -/
theorem indentLine_ne_empty {line : String} (h : IsTrimmed line) (hne : line ≠ "") :
    indentLine line ≠ "" := by
  rw [indentLine, if_neg (by rwa [h.isBlankText_iff])]
  simp [indentation]

/-- Normal lines stay normal one level further in. -/
theorem isNormal_map_indentLine {ls : List String} (h : IsNormal ls) :
    IsNormal (ls.map indentLine) := by
  constructor
  · exact List.forall_mem_map.mpr fun line hline => newline_notMem_indentLine (h.noBreak line hline)
  · exact List.forall_mem_map.mpr fun line hline => isTrimmed_indentLine (h.trimmed line hline)
  · intro line hline
    rw [List.head?_map, Option.mem_def, Option.map_eq_some_iff] at hline
    obtain ⟨whole, hwhole, rfl⟩ := hline
    exact indentLine_ne_empty (h.trimmed whole (List.mem_of_mem_head? hwhole)) (h.head whole hwhole)
  · intro line hline
    rw [List.getLast?_map, Option.mem_def, Option.map_eq_some_iff] at hline
    obtain ⟨whole, hwhole, rfl⟩ := hline
    exact indentLine_ne_empty (h.trimmed whole (List.mem_of_getLast? hwhole)) (h.last whole hwhole)

/-- The lines of the text of a block are trimmed. -/
theorem isTrimmed_of_mem_lines {block : Block} {line : String} (h : line ∈ lines block.text) :
    IsTrimmed line := by
  have hnormal := isNormal_normalLines block.content
  by_cases hne : normalLines block.content = []
  · rw [text, hne, unlines_nil, lines_empty, List.mem_singleton] at h
    subst h
    rfl
  · rw [text, lines_unlines hne hnormal.noBreak] at h
    exact hnormal.trimmed line h

/-- The text of an indented block is that of the block with every line indented. -/
theorem text_indent (block : Block) :
    block.indent.text = unlines ((lines block.text).map indentLine) := by
  have hnormal := isNormal_normalLines block.content
  have hindent : block.indent.content = unlines ((lines block.text).map indentLine) := by
    rw [indent]
  rw [text, hindent]
  cases hlines : normalLines block.content with
  | nil =>
    have hblank : unlines ((lines block.text).map indentLine) = unlines [] := by
      rw [text, hlines, unlines_nil, lines_empty, List.map_singleton, unlines_singleton]
      rfl
    rw [hblank, normalLines_unlines isNormal_nil]
  | cons first rest =>
    rw [hlines] at hnormal
    rw [text, hlines, lines_unlines (List.cons_ne_nil first rest) hnormal.noBreak,
      normalLines_unlines (isNormal_map_indentLine hnormal)]

/-- So the lines of an indented block are those of the block, each of them indented. -/
theorem lines_text_indent (block : Block) :
    lines block.indent.text = (lines block.text).map indentLine := by
  have hbreak : ∀ line ∈ (lines block.text).map indentLine, '\n' ∉ line.toList :=
    List.forall_mem_map.mpr fun _ hline =>
      newline_notMem_indentLine (newline_notMem_of_mem_lines hline)
  rw [text_indent, lines_unlines (mt List.map_eq_nil_iff.mp (lines_ne_nil block.text)) hbreak]

/-- Adding lines adds each of them with a line feed behind it. -/
theorem content_foldl_addLine (lines : List String) (block : Block) :
    (lines.foldl addLine block).content = block.content ++ unlines (lines ++ [""]) := by
  induction lines generalizing block with
  | nil => simp [unlines]
  | cons line rest ih =>
    have hrest : rest ++ [""] ≠ [] := by simp
    rw [List.foldl_cons, ih, unlines, unlines, List.cons_append,
      String.intercalate_cons_of_ne_nil hrest, addLine]
    simp only [String.append_assoc]

/-- A block of lines holds them with a line feed behind each. -/
theorem content_ofLines (lines : List String) :
    (ofLines lines).content = unlines (lines ++ [""]) := by
  rw [ofLines, content_foldl_addLine]
  exact String.empty_append

/-- The lines of pieces of code, without blanks at their ends. -/
def cleanLines (pieces : List String) : List String :=
  (pieces.flatMap lines).map (trimEnd isBlank)

/-- The clean lines of pieces are those of the pieces in front, then those of the others. -/
@[simp] theorem cleanLines_append (a b : List String) :
    cleanLines (a ++ b) = cleanLines a ++ cleanLines b := by
  simp [cleanLines]

/-- The clean lines of the first piece come first. -/
theorem cleanLines_cons (piece : String) (rest : List String) :
    cleanLines (piece :: rest) = cleanLines [piece] ++ cleanLines rest :=
  cleanLines_append [piece] rest

/-- A line that does not end with a blank is a clean line. -/
theorem cleanLines_line {line : String} (h : isOpeningText line = true) :
    cleanLines [line] = [line] := by
  obtain ⟨hend, hbreak⟩ := isOpeningText_iff.mp h
  rw [cleanLines, List.flatMap_singleton, lines_of_notMem hbreak, List.map_singleton,
    isTrimmed_of_endsVisibly hend]

/-- Trimmed lines that are put together are clean lines. -/
theorem cleanLines_unlines {ls : List String} (hne : ls ≠ [])
    (hbreak : ∀ line ∈ ls, '\n' ∉ line.toList) (htrimmed : ∀ line ∈ ls, IsTrimmed line) :
    cleanLines [unlines ls] = ls := by
  rw [cleanLines, List.flatMap_singleton, lines_unlines hne hbreak, map_trimEnd_eq_self htrimmed]

/-- The normal lines of a block of pieces are the clean ones of the pieces, if these are normal. -/
theorem normalLines_ofLines {pieces : List String} (h : IsNormal (cleanLines pieces)) :
    normalLines (ofLines pieces).content = cleanLines pieces := by
  have hlines :
      (lines (ofLines pieces).content).map (trimEnd isBlank) = cleanLines pieces ++ [""] := by
    rw [content_ofLines, lines_unlines_eq_flatMap (by simp), List.flatMap_append, List.map_append]
    rfl
  rw [normalLines, hlines, h.dropEnds_append (by simp)]

/-- The text of a block of pieces with normal lines has these lines. -/
theorem text_ofLines {pieces : List String} (h : IsNormal (cleanLines pieces)) :
    (ofLines pieces).text = unlines (cleanLines pieces) := by
  rw [text, normalLines_ofLines h]

/-- Pieces of which the first one begins with a text, and the last one does not end with a blank. -/
structure Bounded (opening : String) (pieces : List String) : Prop where
  first : ∃ piece ∈ pieces.head?, opening.toList <+: piece.toList
  last : ∃ piece ∈ pieces.getLast?, endsVisibly piece = true

section Bounded

variable {opening : String} {pieces : List String}

/-- A piece between what it begins and what it ends with. -/
theorem bounded_piece {front rest : String} (hfront : opening.toList <+: front.toList)
    (hrest : endsVisibly rest = true) : Bounded opening [front ++ rest] :=
  ⟨⟨_, rfl, isPrefix_append hfront rest⟩, ⟨_, rfl, endsVisibly_append hrest front⟩⟩

/-- Pieces that are bounded stay so when others that are bounded follow. -/
theorem Bounded.append {other : String} {more : List String} (h : Bounded opening pieces)
    (hmore : Bounded other more) : Bounded opening (pieces ++ more) := by
  obtain ⟨piece, hpiece, hopens⟩ := h.first
  obtain ⟨last, hlast, hvisible⟩ := hmore.last
  exact ⟨⟨piece, by simp [Option.mem_def.mp hpiece], hopens⟩,
    ⟨last, by simp [List.getLast?_append, Option.mem_def.mp hlast], hvisible⟩⟩

/-- Pieces that are bounded have a line. -/
theorem Bounded.cleanLines_ne_nil (h : Bounded opening pieces) : cleanLines pieces ≠ [] := by
  obtain ⟨piece, hpiece, _⟩ := h.first
  obtain ⟨rest, rfl⟩ := List.head?_eq_some_iff.mp hpiece
  simp [cleanLines, lines_ne_nil]

/-- The first clean line begins as the pieces do. -/
theorem Bounded.exists_head? (h : Bounded opening pieces)
    (hopening : isOpeningText opening = true) :
    ∃ line ∈ (cleanLines pieces).head?, opening.toList <+: line.toList := by
  obtain ⟨piece, hpiece, hopens⟩ := h.first
  obtain ⟨rest, rfl⟩ := List.head?_eq_some_iff.mp hpiece
  obtain ⟨hend, hbreak⟩ := isOpeningText_iff.mp hopening
  obtain ⟨c, hc, hvisible⟩ := endsVisibly_iff.mp hend
  obtain ⟨line, hline, hstart⟩ := exists_head?_lines hopens hbreak
  refine ⟨trimEnd isBlank line, ?_, isPrefix_trimEnd ?_ hstart⟩
  · obtain ⟨others, hothers⟩ := List.head?_eq_some_iff.mp hline
    simp [cleanLines, hothers]
  · intro d hd
    rwa [Option.mem_unique hd hc]

/-- The last clean line is not empty. -/
theorem Bounded.ne_of_mem_getLast? (h : Bounded opening pieces) :
    ∀ line ∈ (cleanLines pieces).getLast?, line ≠ "" := by
  rintro line hline rfl
  obtain ⟨piece, hpiece, hend⟩ := h.last
  obtain ⟨c, hc, hvisible⟩ := endsVisibly_iff.mp hend
  have hbreak : c ≠ '\n' := by
    rintro rfl
    revert hvisible
    decide
  obtain ⟨whole, hwhole, hlast⟩ := exists_getLast?_lines hc hbreak
  have htrimmed : trimEnd isBlank whole = whole :=
    isTrimmed_of_endsVisibly (endsVisibly_iff.mpr ⟨c, hlast, hvisible⟩)
  have hmem : whole ∈ (cleanLines pieces).getLast? := by
    obtain ⟨front, rfl⟩ := List.getLast?_eq_some_iff.mp hpiece
    obtain ⟨others, hothers⟩ := List.getLast?_eq_some_iff.mp hwhole
    simp [cleanLines, hothers, htrimmed]
  rw [Option.mem_unique hmem hline] at hlast
  cases hlast

/-- Pieces that are bounded by visible characters have normal lines. -/
theorem Bounded.isNormal_cleanLines (h : Bounded opening pieces)
    (hopening : isOpeningText opening = true) : IsNormal (cleanLines pieces) := by
  constructor
  · intro line hline
    obtain ⟨whole, hwhole, rfl⟩ := List.mem_map.mp hline
    obtain ⟨piece, _, hpiece⟩ := List.mem_flatMap.mp hwhole
    exact newline_notMem_trimEnd (newline_notMem_of_mem_lines hpiece)
  · intro line hline
    obtain ⟨whole, _, rfl⟩ := List.mem_map.mp hline
    exact isTrimmed_trimEnd whole
  · rintro line hline rfl
    obtain ⟨first, hfirst, hstart⟩ := h.exists_head? hopening
    rw [Option.mem_unique hfirst hline] at hstart
    have hempty : opening = "" := String.toList_eq_nil_iff.mp (List.prefix_nil.mp hstart)
    subst hempty
    revert hopening
    decide
  · exact h.ne_of_mem_getLast?

/-- The lines of a block of pieces that are bounded by visible characters are the
clean ones of the pieces. -/
theorem Bounded.lines_text_ofLines (h : Bounded opening pieces)
    (hopening : isOpeningText opening = true) :
    lines (ofLines pieces).text = cleanLines pieces := by
  have hnormal := h.isNormal_cleanLines hopening
  rw [text_ofLines hnormal, lines_unlines h.cleanLines_ne_nil hnormal.noBreak]

end Bounded

end SliceRecords.Code.Block
