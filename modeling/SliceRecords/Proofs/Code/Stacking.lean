import SliceRecords.Code.Declaration
import SliceRecords.Proofs.Code.BlockText

/-!
# Blocks one empty line apart

A block that is put together from others holds the texts of those that are not empty, in order and
one empty line apart, and nothing else. Main statement: `text_foldl_addBlock`.
-/

namespace SliceRecords

namespace Text

/-- A property of all characters but the separator holds of a list if it holds of its parts. -/
theorem forall_mem_iff_forall_mem_split {α : Type} [DecidableEq α] {separator : α} {P : α → Prop}
    (hseparator : P separator) (items : List α) :
    (∀ c ∈ items, P c) ↔ ∀ part ∈ split separator items, ∀ c ∈ part, P c := by
  induction items with
  | nil => simp [split]
  | cons item rest ih =>
    obtain ⟨part, parts, hparts⟩ := List.exists_cons_of_ne_nil (split_ne_nil separator rest)
    rw [hparts] at ih
    rw [List.forall_mem_cons, ih, split, hparts]
    split
    · rename_i hitem
      simp [hitem, hseparator]
    · simp [and_assoc]

/-- A text is blank exactly if all of its lines are. -/
theorem isBlankText_iff_lines {text : String} :
    isBlankText text = true ↔ ∀ line ∈ lines text, isBlankText line = true := by
  have hbreak : isBlank '\n' = true := by decide
  simp only [isBlankText, List.all_eq_true, lines, splitAt, List.forall_mem_map,
    String.toList_ofList]
  exact forall_mem_iff_forall_mem_split (P := fun c => isBlank c = true) hbreak text.toList

/-- Nothing is left of a line without the blanks at its end exactly if it is blank. -/
theorem trimEnd_eq_empty_iff {line : String} :
    trimEnd isBlank line = "" ↔ isBlankText line = true := by
  rw [trimEnd, String.ofList_eq_empty_iff, dropTrailing_eq_rdropWhile, List.rdropWhile_eq_nil_iff,
    isBlankText, List.all_eq_true]

/-- Dropping at both ends leaves nothing exactly if everything may be dropped. -/
theorem dropEnds_eq_nil_iff {α : Type} {p : α → Bool} {items : List α} :
    dropEnds p items = [] ↔ ∀ item ∈ items, p item = true := by
  rw [dropEnds, dropTrailing_eq_rdropWhile, List.rdropWhile_eq_nil_iff]
  constructor
  · intro h
    rw [← List.dropWhile_eq_nil_iff]
    by_contra hne
    have hstays := List.head_dropWhile_not p hne
    rw [h _ (List.head_mem hne)] at hstays
    cases hstays
  · exact fun h item hitem => h item ((List.dropWhile_sublist p).subset hitem)

/-- Normal lines with an empty line between them are normal, unless one side is missing. -/
theorem IsNormal.append_empty {a b : List String} (ha : IsNormal a) (hb : IsNormal b)
    (hane : a ≠ []) (hbne : b ≠ []) : IsNormal (a ++ "" :: b) := by
  obtain ⟨first, rest, rfl⟩ := List.exists_cons_of_ne_nil hane
  constructor
  · exact List.forall_mem_append.mpr ⟨ha.noBreak, List.forall_mem_cons.mpr ⟨by simp, hb.noBreak⟩⟩
  · exact List.forall_mem_append.mpr ⟨ha.trimmed, List.forall_mem_cons.mpr ⟨rfl, hb.trimmed⟩⟩
  · exact ha.head
  · intro line hline
    rw [List.getLast?_append, List.getLast?_cons_of_ne_nil hbne] at hline
    refine hb.last line ?_
    rwa [List.getLast?_eq_some_getLast hbne] at hline ⊢

/-- A text of normal lines is not empty. -/
theorem IsNormal.ne_empty {text : String} (h : IsNormal (lines text)) : text ≠ "" := by
  intro hempty
  rw [hempty, lines_empty] at h
  exact h.head "" rfl rfl

end Text

namespace Code.Block

open Text

/-- A block has no normal lines exactly if it holds nothing but blanks. -/
theorem normalLines_eq_nil_iff {block : Block} :
    normalLines block.content = [] ↔ block.isEmpty = true := by
  rw [normalLines, dropEnds_eq_nil_iff, isEmpty, isBlankText_iff_lines, List.forall_mem_map]
  simp only [String.isEmpty_iff, trimEnd_eq_empty_iff]

/-- A block has an empty text exactly if it holds nothing but blanks. -/
theorem text_eq_empty_iff {block : Block} : block.text = "" ↔ block.isEmpty = true := by
  rw [← normalLines_eq_nil_iff]
  constructor
  · intro htext
    by_contra hne
    have hnormal := isNormal_normalLines block.content
    have hempty : normalLines block.content = [""] := by
      rw [← lines_unlines hne hnormal.noBreak, ← text, htext, lines_empty]
    exact hnormal.head "" (by rw [hempty]; rfl) rfl
  · intro hnil
    rw [text, hnil, unlines_nil]

/-- A declaration has a text: at least its braces. -/
theorem text_braced_ne_empty (preamble : Preamble) (header : String) (body : Block) :
    (braced preamble header body).text ≠ "" := by
  rw [ne_eq, text_eq_empty_iff, isEmpty, isBlankText_iff_lines, braced, content_ofLines,
    lines_unlines_eq_flatMap (by simp)]
  intro hblank
  have hbrace : "\x7d" ∈ lines "\x7d" := by decide
  exact absurd (hblank "\x7d" (List.mem_flatMap.mpr ⟨"\x7d", by simp, hbrace⟩)) (by decide)

/-- The lines of a text that is not empty are the normal ones. -/
theorem lines_text_of_ne_empty {block : Block} (h : block.text ≠ "") :
    lines block.text = normalLines block.content := by
  have hne : normalLines block.content ≠ [] := by
    rwa [ne_eq, normalLines_eq_nil_iff, ← text_eq_empty_iff]
  rw [text, lines_unlines hne (isNormal_normalLines block.content).noBreak]

/-- So they are normal. -/
theorem isNormal_lines_text {block : Block} (h : block.text ≠ "") :
    IsNormal (lines block.text) := by
  rw [lines_text_of_ne_empty h]
  exact isNormal_normalLines block.content

/-- A text of normal lines is the text of the block that holds it. -/
theorem text_mk_of_isNormal {normal : String} (h : IsNormal (lines normal)) :
    (⟨normal⟩ : Block).text = normal := by
  have hlines := normalLines_unlines h
  rw [unlines_lines] at hlines
  rw [text, hlines, unlines_lines]

/-- So it is with a line feed behind it. -/
theorem text_of_isNormal {normal : String} (h : IsNormal (lines normal)) :
    (⟨normal ++ "\n"⟩ : Block).text = normal := by
  have hlines : lines (normal ++ "\n") = lines normal ++ [""] := by
    have happend := lines_append_newline_append normal ""
    rwa [String.append_empty, lines_empty] at happend
  rw [text, normalLines, hlines, List.map_append, map_trimEnd_eq_self h.trimmed]
  exact (congrArg unlines (h.dropEnds_append (by decide))).trans (unlines_lines normal)

/-- Texts one empty line apart. -/
def stacked (texts : List String) : String :=
  "\n\n".intercalate texts

/-- A text is stacked behind others with an empty line in between. -/
theorem stacked_concat {texts : List String} (h : texts ≠ []) (last : String) :
    stacked (texts ++ [last]) = stacked texts ++ "\n\n" ++ last := by
  rw [stacked, String.intercalate_append_of_ne_nil h (List.cons_ne_nil last []),
    String.intercalate_singleton]
  rfl

/-- The lines of two texts one empty line apart. -/
theorem lines_append_gap_append (a b : String) :
    lines (a ++ "\n\n" ++ b) = lines a ++ "" :: lines b := by
  have hgap : a ++ "\n\n" ++ b = a ++ "\n" ++ ("" ++ "\n" ++ b) := by
    simp only [String.append_assoc, String.empty_append]
    rfl
  rw [hgap, lines_append_newline_append, lines_append_newline_append, lines_empty]
  rfl

/-- Texts that are one empty line apart already stay so with more behind them. -/
theorem stacked_cons_stacked {front : List String} (h : front ≠ []) (rest : List String) :
    stacked (stacked front :: rest) = stacked (front ++ rest) := by
  by_cases hnil : rest = []
  · rw [hnil, List.append_nil, stacked, String.intercalate_singleton]
  · rw [stacked, stacked, stacked, String.intercalate_cons_of_ne_nil hnil,
      String.intercalate_append_of_ne_nil h hnil]

/-- What holds of the empty line and of the lines of some texts holds of their lines
one empty line apart. -/
theorem forall_mem_lines_stacked {P : String → Prop} (hempty : P "") {texts : List String}
    (h : ∀ text ∈ texts, ∀ line ∈ lines text, P line) : ∀ line ∈ lines (stacked texts), P line := by
  induction texts using List.reverseRecOn with
  | nil => exact List.forall_mem_singleton.mpr hempty
  | append_singleton front last ih =>
    obtain ⟨hfront, hlast⟩ := List.forall_mem_append.mp h
    replace hlast := hlast last List.mem_cons_self
    by_cases hnil : front = []
    · rwa [hnil, List.nil_append, stacked, String.intercalate_singleton]
    · rw [stacked_concat hnil, lines_append_gap_append]
      exact List.forall_mem_append.mpr ⟨ih hfront, List.forall_mem_cons.mpr ⟨hempty, hlast⟩⟩

/-- Texts of normal lines, one empty line apart, have normal lines. -/
theorem isNormal_lines_stacked {texts : List String} (hne : texts ≠ [])
    (h : ∀ text ∈ texts, IsNormal (lines text)) : IsNormal (lines (stacked texts)) := by
  induction texts using List.reverseRecOn with
  | nil => exact absurd rfl hne
  | append_singleton front last ih =>
    obtain ⟨hfront, hlast⟩ := List.forall_mem_append.mp h
    replace hlast := hlast last List.mem_cons_self
    by_cases hnil : front = []
    · rwa [hnil, List.nil_append, stacked, String.intercalate_singleton]
    · rw [stacked_concat hnil, lines_append_gap_append]
      exact (ih hnil hfront).append_empty hlast (lines_ne_nil _) (lines_ne_nil _)

/-- Blocks with texts have normal lines one empty line apart. -/
theorem isNormal_lines_stacked_texts {blocks : List Block} (hne : blocks ≠ [])
    (h : ∀ block ∈ blocks, block.text ≠ "") : IsNormal (lines (stacked (blocks.map text))) :=
  isNormal_lines_stacked (by simpa using hne) <| List.forall_mem_map.mpr fun block hblock =>
    isNormal_lines_text (h block hblock)

/-- The texts of the blocks that are not empty. -/
def visibleTexts (blocks : List Block) : List String :=
  (blocks.map text).filter (· ≠ "")

/-- Blocks without a text do not count. -/
theorem visibleTexts_filter (blocks : List Block) :
    visibleTexts (blocks.filter fun block => !block.isEmpty) = visibleTexts blocks := by
  rw [visibleTexts, visibleTexts, List.filter_map, List.filter_map, List.filter_filter]
  refine congrArg (List.map text) (List.filter_congr fun block _ => ?_)
  have hiff : block.text = "" ↔ block.isEmpty = true := text_eq_empty_iff
  cases hempty : block.isEmpty with
  | true => simp [hiff.mpr hempty]
  | false => simp

/-- Blocks with texts all count. -/
theorem visibleTexts_of_forall {blocks : List Block} (h : ∀ block ∈ blocks, block.text ≠ "") :
    visibleTexts blocks = blocks.map text := by
  rw [visibleTexts, List.filter_eq_self]
  exact List.forall_mem_map.mpr fun block hblock => decide_eq_true (h block hblock)

/-- The texts of blocks that are not empty have normal lines. -/
theorem isNormal_of_mem_visibleTexts {blocks : List Block} {t : String}
    (h : t ∈ visibleTexts blocks) : IsNormal (lines t) := by
  obtain ⟨hmem, hne⟩ := List.mem_filter.mp h
  obtain ⟨block, _, rfl⟩ := List.mem_map.mp hmem
  exact isNormal_lines_text (of_decide_eq_true hne)

/-- What blocks that are added one after the other hold: nothing, or their texts with a line
feed behind the last one. -/
theorem content_foldl_addBlock (blocks : List Block) :
    (blocks.foldl addBlock {}).content =
      if visibleTexts blocks = [] then "" else stacked (visibleTexts blocks) ++ "\n" := by
  induction blocks using List.reverseRecOn with
  | nil => rfl
  | append_singleton front last ih =>
    have htexts : visibleTexts (front ++ [last]) =
        visibleTexts front ++ if last.text = "" then [] else [last.text] := by
      rw [visibleTexts, visibleTexts, List.map_append, List.filter_append]
      by_cases hlast : last.text = "" <;> simp [hlast]
    rw [List.foldl_concat, htexts, addBlock, addText]
    by_cases hlast : last.text = ""
    · rw [if_pos (String.isEmpty_iff.mpr hlast), if_pos hlast, List.append_nil, ih]
    have hne : visibleTexts front ++ [last.text] ≠ [] := by simp
    rw [if_neg (mt String.isEmpty_iff.mp hlast), if_neg hlast, if_neg hne]
    by_cases hfront : visibleTexts front = []
    · rw [if_pos hfront] at ih
      have hblank : (front.foldl addBlock {}).isEmpty = true := by
        rw [isEmpty, ih]
        rfl
      rw [if_pos hblank, ih, hfront, List.nil_append, stacked, String.intercalate_singleton]
      exact congrArg (· ++ "\n") String.empty_append
    · rw [if_neg hfront] at ih
      have hnormal := isNormal_lines_stacked hfront fun _ => isNormal_of_mem_visibleTexts
      have htext : (front.foldl addBlock {}).text = stacked (visibleTexts front) := by
        rw [text, ih]
        exact text_of_isNormal hnormal
      have hvisible : ¬(front.foldl addBlock {}).isEmpty = true := by
        rw [← text_eq_empty_iff, htext]
        exact hnormal.ne_empty
      rw [if_neg hvisible, htext, stacked_concat hfront]

/-- Blocks that are added one after the other have the texts of those that are not empty,
one empty line apart. -/
theorem text_foldl_addBlock (blocks : List Block) :
    (blocks.foldl addBlock {}).text = stacked (visibleTexts blocks) := by
  rw [text, content_foldl_addBlock]
  split
  · rename_i hnil
    rw [hnil]
    rfl
  · rename_i hne
    exact text_of_isNormal (isNormal_lines_stacked hne fun _ => isNormal_of_mem_visibleTexts)

end Code.Block

end SliceRecords
