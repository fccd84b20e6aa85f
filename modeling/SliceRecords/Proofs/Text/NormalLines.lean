import Mathlib.Data.List.DropRight
import SliceRecords.Proofs.Text.Lines

/-!
# Normal lines

Lines without blanks at their ends, the first and the last of which are not empty. Cutting a text
into lines and putting lines together are inverse to each other on them, and trimming leaves them as
they are. Main statements: `lines_unlines` and `IsNormal.dropEnds_append`.
-/

namespace SliceRecords.Text

variable {α : Type}

/-- A separator ends the part in front of it. -/
theorem split_append_cons [DecidableEq α] (separator : α) (front rest : List α) :
    split separator (front ++ separator :: rest) =
      split separator front ++ split separator rest := by
  induction front with
  | nil => simp [split]
  | cons c front ih =>
    rw [List.cons_append, split, split]
    split
    · rw [ih, List.cons_append]
    · obtain ⟨part, parts, hparts⟩ := List.exists_cons_of_ne_nil (split_ne_nil separator front)
      rw [ih, hparts]
      rfl

/-- What stands in front of a list ends in the first part of the list. -/
theorem exists_split_append [DecidableEq α] (separator : α) (items : List α) :
    ∃ front last, ∀ {more first : List α} {rest : List (List α)},
      split separator more = first :: rest →
        split separator (items ++ more) = front ++ (last ++ first) :: rest := by
  induction items with
  | nil => exact ⟨[], [], fun hmore => hmore⟩
  | cons c items ih =>
    obtain ⟨front, last, hsplit⟩ := ih
    by_cases hc : c = separator
    · refine ⟨[] :: front, last, fun hmore => ?_⟩
      rw [List.cons_append, split, if_pos hc, hsplit hmore]
      rfl
    · cases front with
      | nil =>
        refine ⟨[], c :: last, fun hmore => ?_⟩
        rw [List.cons_append, split, if_neg hc, hsplit hmore]
        rfl
      | cons part parts =>
        refine ⟨(c :: part) :: parts, last, fun hmore => ?_⟩
        rw [List.cons_append, split, if_neg hc, hsplit hmore]
        rfl

/-- A list without separators is one part. -/
theorem split_of_notMem [DecidableEq α] {separator : α} {items : List α} (h : separator ∉ items) :
    split separator items = [items] := by
  induction items with
  | nil => rfl
  | cons c rest ih =>
    rw [List.mem_cons, not_or] at h
    rw [split, if_neg (Ne.symm h.1), ih h.2]

/-- No part holds a separator. -/
theorem notMem_of_mem_split [DecidableEq α] {separator : α} {items part : List α}
    (h : part ∈ split separator items) : separator ∉ part := by
  induction items generalizing part with
  | nil =>
    rw [split, List.mem_singleton] at h
    rw [h]
    exact List.not_mem_nil
  | cons c rest ih =>
    rw [split] at h
    split at h
    · rcases List.mem_cons.mp h with rfl | h
      · exact List.not_mem_nil
      · exact ih h
    · rename_i hc
      obtain ⟨first, parts, hparts⟩ := List.exists_cons_of_ne_nil (split_ne_nil separator rest)
      rw [hparts] at h ih
      rcases List.mem_cons.mp h with rfl | h
      · rw [List.mem_cons, not_or]
        exact ⟨Ne.symm hc, ih List.mem_cons_self⟩
      · exact ih (List.mem_cons_of_mem first h)

/-- The lines of two texts with a line feed between them are the lines of both. -/
theorem lines_append_newline_append (a b : String) :
    lines (a ++ "\n" ++ b) = lines a ++ lines b := by
  have hlist : (a ++ "\n" ++ b).toList = a.toList ++ '\n' :: b.toList := by simp
  rw [lines, splitAt, hlist, split_append_cons, List.map_append]
  rfl

/-- What stands in front of a text ends in the first line of the text. -/
theorem exists_lines_append (a : String) :
    ∃ front last, ∀ {b first : String} {rest : List String}, lines b = first :: rest →
      lines (a ++ b) = front ++ (last ++ first) :: rest := by
  obtain ⟨front, last, hsplit⟩ := exists_split_append '\n' a.toList
  refine ⟨front.map String.ofList, String.ofList last, fun {b first rest} hb => ?_⟩
  obtain ⟨part, parts, hparts⟩ := List.exists_cons_of_ne_nil (split_ne_nil '\n' b.toList)
  have hlines : lines b = String.ofList part :: parts.map String.ofList := by
    rw [lines, splitAt, hparts, List.map_cons]
  rw [hb, List.cons.injEq] at hlines
  rw [lines, splitAt, String.toList_append, hsplit hparts, hlines.1, hlines.2, List.map_append,
    List.map_cons, String.ofList_append]

/-- A text has at least one line. -/
theorem lines_ne_nil (text : String) : lines text ≠ [] := by
  intro h
  exact split_ne_nil '\n' text.toList (List.map_eq_nil_iff.mp h)

/-- A text without line feeds is one line. -/
theorem lines_of_notMem {text : String} (h : '\n' ∉ text.toList) : lines text = [text] := by
  rw [lines, splitAt, split_of_notMem h, List.map_singleton, String.ofList_toList]

/-- A text without line feeds is the start of the first line. -/
theorem lines_append_of_notMem {a b first : String} {rest : List String} (ha : '\n' ∉ a.toList)
    (hb : lines b = first :: rest) : lines (a ++ b) = (a ++ first) :: rest := by
  obtain ⟨front, last, happend⟩ := exists_lines_append a
  have hempty : '\n' ∉ "".toList := by simp
  have hself := happend (lines_of_notMem hempty)
  rw [String.append_empty, String.append_empty, lines_of_notMem ha] at hself
  cases front with
  | nil =>
    rw [happend hb, List.nil_append, (List.cons.inj hself).1]
  | cons part parts => simp at hself

/-- The empty text has one line, which is empty. -/
theorem lines_empty : lines "" = [""] :=
  lines_of_notMem (by simp)

/-- The empty list of lines makes the empty text. -/
theorem unlines_nil : unlines [] = "" :=
  String.intercalate_nil

/-- One line makes itself. -/
theorem unlines_singleton (line : String) : unlines [line] = line :=
  String.intercalate_singleton

/-- No line holds a line feed. -/
theorem newline_notMem_of_mem_lines {text line : String} (h : line ∈ lines text) :
    '\n' ∉ line.toList := by
  obtain ⟨part, hpart, rfl⟩ := List.mem_map.mp h
  rw [String.toList_ofList]
  exact notMem_of_mem_split hpart

/-- Parts that are put together have the lines of each of them. -/
theorem lines_unlines_eq_flatMap {parts : List String} (h : parts ≠ []) :
    lines (unlines parts) = parts.flatMap lines := by
  induction parts with
  | nil => exact absurd rfl h
  | cons part rest ih =>
    cases rest with
    | nil => simp [unlines]
    | cons next rest =>
      have hrest : next :: rest ≠ [] := List.cons_ne_nil next rest
      rw [unlines, String.intercalate_cons_of_ne_nil hrest, lines_append_newline_append,
        List.flatMap_cons]
      exact congrArg (lines part ++ ·) (ih hrest)

/-- Lines that are put together are cut apart again. -/
theorem lines_unlines {parts : List String} (hne : parts ≠ [])
    (h : ∀ part ∈ parts, '\n' ∉ part.toList) : lines (unlines parts) = parts := by
  rw [lines_unlines_eq_flatMap hne]
  clear hne
  induction parts with
  | nil => rfl
  | cons part rest ih =>
    rw [List.flatMap_cons, lines_of_notMem (h part List.mem_cons_self),
      ih fun other hother => h other (List.mem_cons_of_mem part hother)]
    rfl

/-- Lines with more lines behind them. -/
theorem unlines_append {a b : List String} (ha : a ≠ []) (hb : b ≠ []) :
    unlines (a ++ b) = unlines a ++ "\n" ++ unlines b :=
  String.intercalate_append_of_ne_nil ha hb

/-- A list that begins with items none of which is a separator has a first part
that begins with them. -/
theorem exists_head?_split [DecidableEq α] {separator : α} {opening : List α}
    (h : separator ∉ opening) (rest : List α) :
    ∃ part ∈ (split separator (opening ++ rest)).head?, opening <+: part := by
  induction opening with
  | nil =>
    obtain ⟨part, parts, hparts⟩ := List.exists_cons_of_ne_nil (split_ne_nil separator rest)
    exact ⟨part, by simp [hparts], List.nil_prefix⟩
  | cons c opening ih =>
    rw [List.mem_cons, not_or] at h
    obtain ⟨part, hpart, hopening⟩ := ih h.2
    obtain ⟨parts, hparts⟩ := List.head?_eq_some_iff.mp hpart
    refine ⟨c :: part, ?_, (List.cons_prefix_cons).mpr ⟨rfl, hopening⟩⟩
    rw [List.cons_append, split, if_neg (Ne.symm h.1), hparts]
    rfl

/-- A list that ends with an item which is no separator has a last part that ends with it. -/
theorem exists_getLast?_split [DecidableEq α] {separator item : α} (h : item ≠ separator)
    (front : List α) :
    ∃ part ∈ (split separator (front ++ [item])).getLast?, item ∈ part.getLast? := by
  induction front with
  | nil =>
    refine ⟨[item], ?_, rfl⟩
    rw [List.nil_append, split_of_notMem (by simpa using h.symm)]
    rfl
  | cons c front ih =>
    obtain ⟨part, hpart, hitem⟩ := ih
    obtain ⟨first, parts, hparts⟩ :=
      List.exists_cons_of_ne_nil (split_ne_nil separator (front ++ [item]))
    rw [hparts] at hpart
    rw [List.cons_append, split, hparts]
    by_cases hc : c = separator
    · refine ⟨part, ?_, hitem⟩
      rw [if_pos hc, List.getLast?_cons_cons]
      exact hpart
    · rw [if_neg hc]
      cases parts with
      | nil =>
        have hfirst : first = part := Option.some.inj hpart
        refine ⟨c :: first, rfl, ?_⟩
        rw [List.getLast?_cons, hfirst, Option.mem_def.mp hitem]
        rfl
      | cons next parts =>
        rw [List.getLast?_cons_cons] at hpart
        exact ⟨part, by rwa [List.getLast?_cons_cons], hitem⟩

/-- The first line of a text begins with what the text begins with. -/
theorem exists_head?_lines {opening text : String} (h : opening.toList <+: text.toList)
    (hbreak : '\n' ∉ opening.toList) :
    ∃ line ∈ (lines text).head?, opening.toList <+: line.toList := by
  obtain ⟨rest, hrest⟩ := h
  obtain ⟨part, hpart, hopening⟩ := exists_head?_split hbreak rest
  refine ⟨String.ofList part, ?_, by rwa [String.toList_ofList]⟩
  rw [lines, splitAt, ← hrest, List.head?_map, Option.mem_def.mp hpart]
  rfl

/-- The last line of a text ends with the character with which the text ends. -/
theorem exists_getLast?_lines {text : String} {c : Char} (h : c ∈ text.toList.getLast?)
    (hc : c ≠ '\n') : ∃ line ∈ (lines text).getLast?, c ∈ line.toList.getLast? := by
  obtain ⟨front, hfront⟩ := List.getLast?_eq_some_iff.mp h
  obtain ⟨part, hpart, hlast⟩ := exists_getLast?_split hc front
  refine ⟨String.ofList part, ?_, by rwa [String.toList_ofList]⟩
  rw [lines, splitAt, hfront, List.getLast?_map, Option.mem_def.mp hpart]
  rfl

/-- A text that ends with a character which is not blank. -/
def endsVisibly (text : String) : Bool :=
  text.toList.getLast?.any fun c => !isBlank c

/-- A text ends visibly if its last character is not blank. -/
theorem endsVisibly_iff {text : String} :
    endsVisibly text = true ↔ ∃ c ∈ text.toList.getLast?, isBlank c = false := by
  simp [endsVisibly, Option.any_eq_true]

/-- What stands in front does not change how a text ends. -/
theorem endsVisibly_append {b : String} (h : endsVisibly b = true) (a : String) :
    endsVisibly (a ++ b) = true := by
  obtain ⟨c, hc, hvisible⟩ := endsVisibly_iff.mp h
  refine endsVisibly_iff.mpr ⟨c, ?_, hvisible⟩
  rw [String.toList_append, List.getLast?_append, Option.mem_def.mp hc]
  rfl

/-- What stands at the start of a text stays there if more follows. -/
theorem isPrefix_append {opening a : String} (h : opening.toList <+: a.toList) (b : String) :
    opening.toList <+: (a ++ b).toList := by
  rw [String.toList_append]
  exact h.trans (List.prefix_append a.toList b.toList)

/-- A text that can open a line: of one line, and not blank at its end. -/
def isOpeningText (text : String) : Bool :=
  endsVisibly text && !text.toList.contains '\n'

/-- A text opens a line if it ends visibly and is on one line. -/
theorem isOpeningText_iff {text : String} :
    isOpeningText text = true ↔ endsVisibly text = true ∧ '\n' ∉ text.toList := by
  simp [isOpeningText]

/-- Dropping at the end is known to the library. -/
theorem dropTrailing_eq_rdropWhile (p : α → Bool) (items : List α) :
    dropTrailing p items = items.rdropWhile p := rfl

/-- The last element that stays does not satisfy `p`. -/
theorem eq_false_of_mem_getLast?_dropTrailing {p : α → Bool} {items : List α} {item : α}
    (h : item ∈ (dropTrailing p items).getLast?) : p item = false := by
  have hne : items.rdropWhile p ≠ [] := by
    intro hnil
    rw [dropTrailing_eq_rdropWhile, hnil] at h
    cases h
  have hstays := List.rdropWhile_last_not p items hne
  rw [dropTrailing_eq_rdropWhile, Option.mem_def, List.getLast?_eq_some_getLast hne,
    Option.some.injEq] at h
  rwa [h, Bool.not_eq_true] at hstays

/-- What stands in front of an item that stays is kept. -/
theorem dropTrailing_append_cons {p : α → Bool} {item : α} (h : p item = false)
    (front rest : List α) :
    dropTrailing p (front ++ item :: rest) = front ++ item :: dropTrailing p rest := by
  induction rest using List.reverseRecOn with
  | nil =>
    rw [dropTrailing_eq_rdropWhile, List.rdropWhile_concat_neg p front item (by simp [h])]
    rfl
  | append_singleton rest last ih =>
    simp only [dropTrailing_eq_rdropWhile] at ih ⊢
    rw [← List.cons_append, ← List.append_assoc, List.rdropWhile_concat, List.rdropWhile_concat]
    split
    · exact ih
    · simp

/-- Trimming keeps what stands at the start of a line up to a character that is not blank. -/
theorem isPrefix_trimEnd {opening line : String}
    (hvisible : ∀ c ∈ opening.toList.getLast?, isBlank c = false)
    (h : opening.toList <+: line.toList) : opening.toList <+: (trimEnd isBlank line).toList := by
  obtain ⟨rest, hrest⟩ := h
  rw [trimEnd, String.toList_ofList, ← hrest]
  rcases List.eq_nil_or_concat opening.toList with hnil | ⟨front, c, hfront⟩
  · rw [hnil]
    exact List.nil_prefix
  · rw [hfront, List.concat_eq_append] at hvisible ⊢
    have hc : isBlank c = false := hvisible c (by simp)
    rw [List.append_assoc, List.singleton_append, dropTrailing_append_cons hc]
    exact ⟨dropTrailing isBlank rest, by simp⟩

/-- Trimming a text that begins with a visible character does not reach what
stands in front of it. -/
theorem trimEnd_append {c : Char} {rest : List Char} {b : String} (hb : b.toList = c :: rest)
    (hc : isBlank c = false) (a : String) : trimEnd isBlank (a ++ b) = a ++ trimEnd isBlank b := by
  have htrim : dropTrailing isBlank (c :: rest) = c :: dropTrailing isBlank rest :=
    dropTrailing_append_cons hc [] rest
  rw [← String.toList_inj, String.toList_append, trimEnd, trimEnd, String.toList_ofList,
    String.toList_ofList, String.toList_append, hb, dropTrailing_append_cons hc, htrim]

/-- Trimming reaches what stands in front only if nothing is left behind. -/
theorem trimEnd_append_eq (a b : String) :
    trimEnd isBlank (a ++ b) =
      if trimEnd isBlank b = "" then trimEnd isBlank a else a ++ trimEnd isBlank b := by
  simp only [trimEnd, dropTrailing, String.toList_append, List.reverse_append,
    List.dropWhile_append, String.ofList_eq_empty_iff, List.reverse_eq_nil_iff, List.isEmpty_iff]
  split
  · rfl
  · simp

/-- A line without blanks at its end. -/
def IsTrimmed (line : String) : Prop :=
  trimEnd isBlank line = line

/-- Trimming makes a line trimmed. -/
theorem isTrimmed_trimEnd (line : String) : IsTrimmed (trimEnd isBlank line) := by
  rw [IsTrimmed, trimEnd, trimEnd, String.toList_ofList]
  exact congrArg String.ofList (List.rdropWhile_idempotent isBlank line.toList)

/-- Trimmed lines are left alone by trimming. -/
theorem map_trimEnd_eq_self {ls : List String} (h : ∀ line ∈ ls, IsTrimmed line) :
    ls.map (trimEnd isBlank) = ls :=
  (List.map_congr_left h).trans (List.map_id _)

/-- A trimmed line is blank only if it is empty. -/
theorem IsTrimmed.isBlankText_iff {line : String} (h : IsTrimmed line) :
    isBlankText line = true ↔ line = "" := by
  constructor
  · intro hblank
    rw [isBlankText, List.all_eq_true] at hblank
    rw [← h, trimEnd, dropTrailing_eq_rdropWhile, List.rdropWhile_eq_nil_iff.mpr hblank]
  · rintro rfl
    rfl

/-- A line is trimmed if it does not end with a blank. -/
theorem isTrimmed_iff {line : String} :
    IsTrimmed line ↔ ∀ c ∈ line.toList.getLast?, isBlank c = false := by
  rw [IsTrimmed, ← String.toList_inj, trimEnd, String.toList_ofList, dropTrailing_eq_rdropWhile,
    List.rdropWhile_eq_self_iff]
  cases hlast : line.toList.getLast? with
  | none => simp [List.getLast?_eq_none_iff.mp hlast]
  | some c =>
    have hne : line.toList ≠ [] := by
      rintro hnil
      simp [hnil] at hlast
    rw [List.getLast?_eq_some_getLast hne, Option.some.injEq] at hlast
    simp [hne, hlast]

/-- A line that ends visibly is trimmed. -/
theorem isTrimmed_of_endsVisibly {line : String} (h : endsVisibly line = true) :
    IsTrimmed line := by
  obtain ⟨c, hc, hvisible⟩ := endsVisibly_iff.mp h
  exact isTrimmed_iff.mpr fun d hd => by rw [Option.mem_unique hd hc, hvisible]

/-- A text in front of a trimmed line that is not empty leaves it trimmed. -/
theorem IsTrimmed.append {line : String} (h : IsTrimmed line) (hne : line ≠ "") (front : String) :
    IsTrimmed (front ++ line) := by
  rw [isTrimmed_iff] at h ⊢
  rwa [String.toList_append, List.getLast?_append_of_ne_nil _ (by simpa using hne)]

/-- Trimming adds no line feed. -/
theorem newline_notMem_trimEnd {line : String} (h : '\n' ∉ line.toList) :
    '\n' ∉ (trimEnd isBlank line).toList := by
  rw [trimEnd, String.toList_ofList, dropTrailing_eq_rdropWhile]
  exact fun hmem => h ((List.rdropWhile_prefix isBlank line.toList).subset hmem)

/-- Lines as a normal text has them: no blanks at the end of any, and no
empty line at either end. -/
structure IsNormal (ls : List String) : Prop where
  noBreak : ∀ line ∈ ls, '\n' ∉ line.toList
  trimmed : ∀ line ∈ ls, IsTrimmed line
  head : ∀ line ∈ ls.head?, line ≠ ""
  last : ∀ line ∈ ls.getLast?, line ≠ ""

/-- The empty list of lines is normal. -/
theorem isNormal_nil : IsNormal [] :=
  ⟨by simp, by simp, by simp, by simp⟩

/-- Normal lines stay normal when normal ones follow. -/
theorem IsNormal.append {a b : List String} (ha : IsNormal a) (hb : IsNormal b) :
    IsNormal (a ++ b) := by
  constructor
  · exact List.forall_mem_append.mpr ⟨ha.noBreak, hb.noBreak⟩
  · exact List.forall_mem_append.mpr ⟨ha.trimmed, hb.trimmed⟩
  · cases a with
    | nil => exact hb.head
    | cons first rest => exact ha.head
  · rcases List.eq_nil_or_concat b with rfl | ⟨front, last, rfl⟩
    · rw [List.append_nil]
      exact ha.last
    · intro line hline
      exact hb.last line (by simpa using hline)

/-- Trimmed lines without the empty ones at both ends are normal. -/
theorem isNormal_dropEnds {ls : List String} (hbreak : ∀ line ∈ ls, '\n' ∉ line.toList)
    (htrimmed : ∀ line ∈ ls, IsTrimmed line) : IsNormal (dropEnds String.isEmpty ls) := by
  have hinit : dropEnds String.isEmpty ls <+: ls.dropWhile String.isEmpty :=
    List.rdropWhile_prefix String.isEmpty _
  have hmem {line : String} (hline : line ∈ dropEnds String.isEmpty ls) : line ∈ ls :=
    (List.dropWhile_sublist String.isEmpty).subset (hinit.subset hline)
  constructor
  · exact fun line hline => hbreak line (hmem hline)
  · exact fun line hline => htrimmed line (hmem hline)
  · intro line hline
    have hhead : (ls.dropWhile String.isEmpty).head? = some line := by
      obtain ⟨rest, hrest⟩ := List.head?_eq_some_iff.mp hline
      obtain ⟨dropped, hdropped⟩ := hinit
      rw [← hdropped, hrest]
      rfl
    have hstays := List.head?_dropWhile_not String.isEmpty ls
    rw [hhead] at hstays
    simpa using hstays
  · intro line hline
    have hstays := eq_false_of_mem_getLast?_dropTrailing hline
    rwa [← Bool.not_eq_true, String.isEmpty_iff] at hstays

/-- Normal lines have no empty lines at their ends to be dropped, and lose
empty lines that follow. -/
theorem IsNormal.dropEnds_append {ls : List String} (h : IsNormal ls) {dropped : List String}
    (hdropped : ∀ line ∈ dropped, line = "") : dropEnds String.isEmpty (ls ++ dropped) = ls := by
  have hempty : ∀ line ∈ dropped, line.isEmpty = true := fun line hline => by
    rw [hdropped line hline]
    rfl
  have hlast : dropTrailing String.isEmpty ls = ls := by
    rw [dropTrailing_eq_rdropWhile, List.rdropWhile_eq_self_iff]
    intro hne
    simpa using h.last _ (List.getLast?_eq_some_getLast hne)
  have htrailing : dropTrailing String.isEmpty (ls ++ dropped) = ls := by
    clear hdropped
    induction dropped using List.reverseRecOn with
    | nil => rw [List.append_nil, hlast]
    | append_singleton dropped line ih =>
      rw [List.forall_mem_append] at hempty
      rw [← List.append_assoc, dropTrailing_eq_rdropWhile,
        List.rdropWhile_concat_pos _ _ _ (hempty.2 line List.mem_cons_self)]
      exact ih hempty.1
  cases ls with
  | nil =>
    rw [List.nil_append, dropEnds, List.dropWhile_eq_nil_iff.mpr hempty]
    rfl
  | cons first rest =>
    have hfirst : ¬first.isEmpty = true := by simpa using h.head first rfl
    rw [dropEnds, List.cons_append, List.dropWhile_cons_of_neg hfirst]
    exact htrailing

/-- Empty lines on both sides of normal lines are dropped, and nothing else is. -/
theorem IsNormal.dropEnds_append_append {ls : List String} (h : IsNormal ls)
    {front last : List String} (hdropped : ∀ line ∈ front ++ last, line = "") :
    dropEnds String.isEmpty (front ++ ls ++ last) = ls := by
  obtain ⟨hfront, hlast⟩ := List.forall_mem_append.mp hdropped
  have hempty : ∀ line ∈ front, line.isEmpty = true := fun line hline => by
    rw [hfront line hline]
    rfl
  rw [dropEnds, List.append_assoc, List.dropWhile_append_of_pos hempty]
  exact h.dropEnds_append hlast

end SliceRecords.Text
