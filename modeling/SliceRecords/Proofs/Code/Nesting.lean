import SliceRecords.Proofs.Code.Composition
import SliceRecords.Proofs.Code.Stacking

/-!
# Nested lines

Lines that are indented by their braces: the depth goes up behind a line that is just an opening
brace and down in front of a line that is just a closing one, and every line that is not blank
begins with four spaces for each level. Lines that begin and end outside of all braces can be put
one after the other, and between braces one level further in. Main statements: `IsNested.append`,
`IsNested.armLines` and `isNested_lines_text_ofLines`.
-/

namespace SliceRecords.Code

open Text

/-- The number of spaces with which a line begins. -/
def leadingSpaces (line : String) : Nat :=
  (line.toList.takeWhile (· == ' ')).length

/-- The depth behind a line in front of which there is a depth, unless the line is not indented by
it. A closing brace stands one level further out, and a blank line anywhere. -/
def readLine (depth : Nat) (line : String) : Option Nat :=
  if isBlankText line then some depth
  else if trim isBlank line = "\x7d" then
    if leadingSpaces line + 4 = 4 * depth then some (depth - 1) else none
  else if leadingSpaces line = 4 * depth then
    some (if trim isBlank line = "\x7b" then depth + 1 else depth)
  else none

/-- The depth behind lines in front of which there is a depth, unless one of them is not
indented by the depth there. -/
def readLines (depth : Nat) (ls : List String) : Option Nat :=
  ls.foldlM readLine depth

/-- Lines that are indented by their braces, which all are closed. -/
def IsNested (ls : List String) : Prop :=
  readLines 0 ls = some 0

example : readLines 0 ["if (a)", "\x7b", "    b", "    \x7b", "    \x7d", "", "\x7d"] = some 0 := by
  decide +kernel

/-- Lines are read one part after the other, from the depth that the first part leads to. -/
theorem readLines_append (depth : Nat) (a b : List String) :
    readLines depth (a ++ b) = (readLines depth a).bind fun inner => readLines inner b :=
  List.foldlM_append

/-- The first line is read first. -/
theorem readLines_cons (depth : Nat) (line : String) (rest : List String) :
    readLines depth (line :: rest) = (readLine depth line).bind fun inner => readLines inner rest :=
  List.foldlM_cons

/-- The empty list of lines leaves the depth as it is. -/
theorem isNested_nil : IsNested [] := rfl

/-- Nested lines may follow each other. -/
theorem IsNested.append {a b : List String} (ha : IsNested a) (hb : IsNested b) :
    IsNested (a ++ b) := by
  unfold IsNested at ha
  rwa [IsNested, readLines_append, ha]

/-- Blank lines do not count. -/
theorem readLine_of_isBlankText {line : String} (h : isBlankText line = true) (depth : Nat) :
    readLine depth line = some depth := by
  rw [readLine, if_pos h]

/-- Blank lines leave the depth as it is. -/
theorem readLines_of_forall_isBlankText {ls : List String}
    (h : ∀ line ∈ ls, isBlankText line = true) (depth : Nat) : readLines depth ls = some depth := by
  induction ls with
  | nil => rfl
  | cons line rest ih =>
    obtain ⟨hline, hrest⟩ := List.forall_mem_cons.mp h
    rw [readLines_cons, readLine_of_isBlankText hline]
    exact ih hrest

/-- Blanks in front of a line are trimmed. -/
theorem trim_append {front : String} (hfront : ∀ c ∈ front.toList, isBlank c = true)
    (line : String) : trim isBlank (front ++ line) = trim isBlank line := by
  rw [trim, trim, String.toList_append, dropEnds, dropEnds, List.dropWhile_append_of_pos hfront]

/-- A line that fits a depth fits the next one when it is indented. -/
theorem readLine_indentLine {depth behind : Nat} {line : String}
    (h : readLine depth line = some behind) :
    readLine (depth + 1) (Block.indentLine line) = some (behind + 1) := by
  by_cases hblank : isBlankText line = true
  · rw [readLine_of_isBlankText hblank] at h
    rw [Block.indentLine, if_pos hblank, readLine_of_isBlankText (by decide), Option.some.inj h]
  have hspaces : ∀ c ∈ Block.indentation.toList, (c == ' ') = true :=
    List.all_eq_true.mp (by decide)
  have hindent : isBlankText (Block.indentation ++ line) = isBlankText line := by
    rw [← Block.isBlankText_indentLine line, Block.indentLine, if_neg hblank]
  have htrim : trim isBlank (Block.indentation ++ line) = trim isBlank line :=
    trim_append (List.all_eq_true.mp (by decide)) line
  have hleading : leadingSpaces (Block.indentation ++ line) = leadingSpaces line + 4 := by
    rw [leadingSpaces, leadingSpaces, String.toList_append, List.takeWhile_append_of_pos hspaces,
      List.length_append, Nat.add_comm]
    rfl
  rw [readLine, if_neg hblank] at h
  rw [Block.indentLine, if_neg hblank, readLine, hindent, if_neg hblank, htrim, hleading]
  split at h
  · rename_i hclosing
    rw [if_pos hclosing]
    split at h
    · rename_i hfits
      rw [if_pos (by omega), ← Option.some.inj h]
      congr 1
      omega
    · cases h
  · rename_i hclosing
    rw [if_neg hclosing]
    split at h
    · rename_i hfits
      rw [if_pos (by omega)]
      cases h
      split
      · rfl
      · rfl
    · cases h

/-- Lines that fit a depth fit the next one when they are indented. -/
theorem readLines_map_indentLine {depth behind : Nat} {ls : List String}
    (h : readLines depth ls = some behind) :
    readLines (depth + 1) (ls.map Block.indentLine) = some (behind + 1) := by
  induction ls generalizing depth with
  | nil =>
    cases h
    rfl
  | cons line rest ih =>
    rw [readLines_cons] at h
    obtain ⟨inner, hinner, hrest⟩ := Option.bind_eq_some_iff.mp h
    rw [List.map_cons, readLines_cons, readLine_indentLine hinner]
    exact ih hrest

/-- Nested lines between braces, one level further in, are nested. -/
theorem IsNested.armLines {ls : List String} (h : IsNested ls) : IsNested (armLines ls) := by
  have hopen : readLine 0 "\x7b" = some 1 := by decide +kernel
  have hclose : readLine 1 "\x7d" = some 0 := by decide +kernel
  rw [IsNested, Code.armLines, List.cons_append, readLines_cons, hopen, Option.bind_some,
    readLines_append, readLines_map_indentLine h, Option.bind_some, readLines_cons, hclose]
  rfl

/-- A text that begins with a visible character which is no brace. -/
def startsPlainly (text : String) : Bool :=
  text.toList.head?.any fun c => !isBlank c && c != '\x7b' && c != '\x7d'

/-- A text starts plainly if its first character is visible and no brace. -/
theorem startsPlainly_iff {text : String} :
    startsPlainly text = true ↔
      ∃ c rest, text.toList = c :: rest ∧ isBlank c = false ∧ c ≠ '\x7b' ∧ c ≠ '\x7d' := by
  rw [startsPlainly]
  cases text.toList with
  | nil => simp
  | cons c rest => simp [and_assoc]

/-- How a text starts does not depend on what follows. -/
theorem startsPlainly_append {a : String} (h : startsPlainly a = true) (b : String) :
    startsPlainly (a ++ b) = true := by
  obtain ⟨c, rest, hlist, hc⟩ := startsPlainly_iff.mp h
  exact startsPlainly_iff.mpr ⟨c, rest ++ b.toList, by rw [String.toList_append, hlist]; rfl, hc⟩

/-- Blanks at the end of a line do not change how it starts. -/
theorem startsPlainly_trimEnd {line : String} (h : startsPlainly line = true) :
    startsPlainly (trimEnd isBlank line) = true := by
  obtain ⟨c, rest, hlist, hvisible, hc⟩ := startsPlainly_iff.mp h
  refine startsPlainly_iff.mpr ⟨c, dropTrailing isBlank rest, ?_, hvisible, hc⟩
  rw [trimEnd, String.toList_ofList, hlist]
  exact dropTrailing_append_cons hvisible [] rest

/-- A text that starts plainly is not blank. -/
theorem not_isBlankText_of_startsPlainly {text : String} (h : startsPlainly text = true) :
    ¬isBlankText text = true := by
  obtain ⟨c, rest, hlist, hvisible, _⟩ := startsPlainly_iff.mp h
  rw [isBlankText, hlist]
  simp [hvisible]

/-- A line of code that is not indented fits outside of all braces. -/
theorem readLine_of_startsPlainly {line : String} (h : startsPlainly line = true) :
    readLine 0 line = some 0 := by
  obtain ⟨c, rest, hlist, hvisible, hopening, hclosing⟩ := startsPlainly_iff.mp h
  have htrim : trim isBlank line = String.ofList (c :: dropTrailing isBlank rest) := by
    rw [trim, hlist, dropEnds, List.dropWhile_cons_of_neg (by simp [hvisible])]
    exact congrArg String.ofList (dropTrailing_append_cons hvisible [] rest)
  have hne {brace : Char} (hc : c ≠ brace) : trim isBlank line ≠ String.ofList [brace] := by
    rw [htrim, ne_eq, String.ofList_inj]
    exact fun heq => hc (List.cons.inj heq).1
  have hleading : leadingSpaces line = 4 * 0 := by
    have hspace : ¬(c == ' ') = true := by
      rw [beq_iff_eq]
      rintro rfl
      revert hvisible
      decide
    rw [leadingSpaces, hlist, List.takeWhile_cons, if_neg hspace]
    rfl
  rw [readLine, if_neg (not_isBlankText_of_startsPlainly h), if_neg (hne hclosing), if_pos hleading,
    if_neg (hne hopening)]

/-- Lines that start plainly are nested: none of them opens or closes a brace. -/
theorem isNested_of_forall_startsPlainly {ls : List String}
    (h : ∀ line ∈ ls, startsPlainly line = true) : IsNested ls := by
  induction ls with
  | nil => exact isNested_nil
  | cons line rest ih =>
    obtain ⟨hline, hrest⟩ := List.forall_mem_cons.mp h
    rw [IsNested, readLines_cons, readLine_of_startsPlainly hline]
    exact ih hrest

/-- A piece of lines that begin with visible characters other than braces is nested. -/
theorem isNested_cleanLines_of_lines {piece : String}
    (h : ∀ line ∈ lines piece, startsPlainly line = true) :
    IsNested (Block.cleanLines [piece]) := by
  rw [Block.cleanLines, List.flatMap_singleton]
  exact isNested_of_forall_startsPlainly
    (List.forall_mem_map.mpr fun line hline => startsPlainly_trimEnd (h line hline))

/-- A piece of one line of code is nested. -/
theorem isNested_cleanLines_line {line : String} (h : startsPlainly line = true)
    (hbreak : '\n' ∉ line.toList) : IsNested (Block.cleanLines [line]) := by
  apply isNested_cleanLines_of_lines
  rw [lines_of_notMem hbreak]
  exact List.forall_mem_singleton.mpr h

/-- Pieces are nested if each of them is. -/
theorem isNested_cleanLines_of_forall {pieces : List String}
    (h : ∀ piece ∈ pieces, IsNested (Block.cleanLines [piece])) :
    IsNested (Block.cleanLines pieces) := by
  induction pieces with
  | nil => exact isNested_nil
  | cons piece rest ih =>
    obtain ⟨hpiece, hrest⟩ := List.forall_mem_cons.mp h
    rw [Block.cleanLines_cons]
    exact hpiece.append (ih hrest)

/-- An indented block between braces is nested if the block is. -/
theorem IsNested.braces {block : Block} (h : IsNested (lines block.text)) :
    IsNested (Block.cleanLines ["\x7b", block.indent.text, "\x7d"]) := by
  rw [cleanLines_braces]
  exact h.armLines

/-- Empty lines at the ends do not count. -/
theorem readLines_dropEnds (depth : Nat) (ls : List String) :
    readLines depth (dropEnds String.isEmpty ls) = readLines depth ls := by
  obtain ⟨first, last, happend, hempty⟩ := exists_append_dropEnds_append String.isEmpty ls
  have hblank : ∀ line ∈ first ++ last, isBlankText line = true := by
    intro line hline
    rw [String.isEmpty_iff.mp (hempty line hline)]
    rfl
  obtain ⟨hfirst, hlast⟩ := List.forall_mem_append.mp hblank
  have hkept : readLines depth (first ++ dropEnds String.isEmpty ls) =
      readLines depth (dropEnds String.isEmpty ls) := by
    rw [readLines_append, readLines_of_forall_isBlankText hfirst, Option.bind_some]
  conv_rhs => rw [← happend, readLines_append, hkept]
  cases readLines depth (dropEnds String.isEmpty ls) with
  | none => rfl
  | some inner => exact (readLines_of_forall_isBlankText hlast inner).symm

/-- The text of a block is nested if its content is without blanks at the ends of lines. -/
theorem isNested_lines_text {block : Block}
    (h : IsNested ((lines block.content).map (trimEnd isBlank))) : IsNested (lines block.text) := by
  rw [IsNested, ← readLines_dropEnds] at h
  rw [Block.text]
  by_cases hnil : Block.normalLines block.content = []
  · rw [hnil, unlines_nil, lines_empty]
    rfl
  · rwa [lines_unlines hnil (Block.isNormal_normalLines block.content).noBreak]

/-- A block of pieces is nested if the clean lines of these are. -/
theorem isNested_lines_text_ofLines {pieces : List String}
    (h : IsNested (Block.cleanLines pieces)) : IsNested (lines (Block.ofLines pieces).text) := by
  have hlines : (lines (Block.ofLines pieces).content).map (trimEnd isBlank) =
      Block.cleanLines pieces ++ [""] := by
    rw [Block.content_ofLines, lines_unlines_eq_flatMap (by simp), List.flatMap_append,
      List.map_append]
    rfl
  apply isNested_lines_text
  rw [hlines]
  exact h.append (readLines_of_forall_isBlankText (by simp; rfl) 0)

/-- Texts one empty line apart are nested if each of them is. -/
theorem isNested_lines_stacked {texts : List String} (h : ∀ text ∈ texts, IsNested (lines text)) :
    IsNested (lines (Block.stacked texts)) := by
  induction texts using List.reverseRecOn with
  | nil => rfl
  | append_singleton front last ih =>
    obtain ⟨hfront, hlast⟩ := List.forall_mem_append.mp h
    replace hlast := hlast last List.mem_cons_self
    by_cases hnil : front = []
    · rwa [hnil, List.nil_append, Block.stacked, String.intercalate_singleton]
    · rw [Block.stacked_concat hnil, Block.lines_append_gap_append]
      exact (ih hfront).append hlast

end SliceRecords.Code
