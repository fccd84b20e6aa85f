import SliceRecords.Proofs.Code.CommentLines
import SliceRecords.Proofs.Code.Members

/-!
# Comments between lines of code

A text of code can have comments between its lines, each comment as a whole and with spaces in front
of its lines. Putting texts one after the other, indenting them and putting them between braces
keeps comments where they are. A reader of the text finds comments in addition to the code exactly
if all continuations of the comments are comments. Main statements: `Interspersed.stacked`,
`exists_documented_braced`, `sourceLines_text_braced` and `Interspersed.commentsAdded_iff`.
-/

namespace SliceRecords.Code

open Text

/-- Lines of code with comments put in between, in order. The lines of a comment stand together,
with the same spaces in front of each. -/
inductive Interspersed : List CommentTag → List String → List String → Prop
  | nil : Interspersed [] [] []
  | code {comments : List CommentTag} {code text : List String} (line : String) :
      Interspersed comments code text → Interspersed comments (line :: code) (line :: text)
  | comment {comment : CommentTag} {comments : List CommentTag} {code text : List String}
      {front : String} :
      comment.HasUnbrokenTag → (∀ c ∈ front.toList, c = ' ') → Interspersed comments code text →
      Interspersed (comment :: comments) code ((lines comment.text).map (front ++ ·) ++ text)

namespace Interspersed

variable {comments : List CommentTag} {code text : List String}

/-- Code alone has no comments in it. -/
theorem refl (code : List String) : Interspersed [] code code := by
  induction code with
  | nil => exact .nil
  | cons line rest ih => exact .code line ih

/-- Texts with comments in them can be put one after the other. -/
theorem append (h : Interspersed comments code text) {comments' : List CommentTag}
    {code' text' : List String} (h' : Interspersed comments' code' text') :
    Interspersed (comments ++ comments') (code ++ code') (text ++ text') := by
  induction h with
  | nil => exact h'
  | code line _ ih => exact .code line ih
  | comment hunbroken hfront _ ih =>
    rw [List.append_assoc]
    exact .comment hunbroken hfront ih

/-- The comments in a text have unbroken tags. -/
theorem hasUnbrokenTag (h : Interspersed comments code text) :
    ∀ comment ∈ comments, comment.HasUnbrokenTag := by
  induction h with
  | nil => exact List.forall_mem_nil _
  | code _ _ ih => exact ih
  | comment hunbroken _ _ ih => exact List.forall_mem_cons.mpr ⟨hunbroken, ih⟩

/-- Comments without any code. -/
theorem of_comments (h : ∀ comment ∈ comments, comment.HasUnbrokenTag) :
    Interspersed comments [] (comments.flatMap fun comment => lines comment.text) := by
  induction comments with
  | nil => exact .nil
  | cons comment rest ih =>
    obtain ⟨hcomment, hrest⟩ := List.forall_mem_cons.mp h
    have hnone : ∀ c ∈ "".toList, c = ' ' := List.forall_mem_nil _
    have hcons := Interspersed.comment hcomment hnone (ih hrest)
    simpa using hcons

/-- A line that begins with slashes is not blank, also behind other characters. -/
theorem isBlankText_append_eq_false {line : String} (h : opensComment line = true)
    (front : String) : isBlankText (front ++ line) = false := by
  obtain ⟨rest, hrest⟩ := opensComment_iff.mp h
  have hslash : isBlank '/' = false := by decide
  rw [isBlankText, String.toList_append, ← hrest]
  simp [hslash]

/-- Indenting all lines keeps comments between the lines of code. -/
theorem map_indentLine (h : Interspersed comments code text) :
    Interspersed comments (code.map Block.indentLine) (text.map Block.indentLine) := by
  induction h with
  | nil => exact .nil
  | code line _ ih => exact .code (Block.indentLine line) ih
  | @comment comment comments code text front hunbroken hfront _ ih =>
    have hlines : ((lines comment.text).map (front ++ ·)).map Block.indentLine =
        (lines comment.text).map (Block.indentation ++ front ++ ·) := by
      rw [List.map_map]
      refine List.map_congr_left fun line hline => ?_
      have hopens := (hunbroken.isPlain.forall_mem_lines line hline).1
      rw [Function.comp_apply, Block.indentLine, isBlankText_append_eq_false hopens,
        if_neg Bool.false_ne_true, String.append_assoc]
    rw [List.map_append, hlines]
    refine .comment hunbroken (fun c hc => ?_) ih
    rw [String.toList_append, List.mem_append] at hc
    rcases hc with hindent | hc
    · have hspaces : ∀ d ∈ [' ', ' ', ' ', ' '], d = ' ' := by simp
      exact hspaces c hindent
    · exact hfront c hc

/-- A text with comments in it can be put between braces. -/
theorem armLines (h : Interspersed comments code text) :
    Interspersed comments (Code.armLines code) (Code.armLines text) := by
  have happend := h.map_indentLine.append (refl ["\x7d"])
  rw [List.append_nil] at happend
  exact .code _ happend

end Interspersed

/-- A block of code, the same block with comments between its lines, and these comments. -/
structure Documented where
  comments : List CommentTag
  code : Block
  block : Block
  code_ne_empty : code.text ≠ ""
  block_ne_empty : block.text ≠ ""
  interspersed : Interspersed comments (lines code.text) (lines block.text)

/-- Blocks one empty line apart have the comments of each of them. -/
theorem Interspersed.stacked (items : List Documented) :
    Interspersed (items.flatMap Documented.comments)
      (lines (Block.stacked ((items.map Documented.code).map Block.text)))
      (lines (Block.stacked ((items.map Documented.block).map Block.text))) := by
  induction items with
  | nil => exact refl _
  | cons item rest ih =>
    by_cases hnil : rest = []
    · subst hnil
      simpa [Block.stacked] using item.interspersed
    · have hcons (part : Documented → Block) :
          lines (Block.stacked (((item :: rest).map part).map Block.text)) = lines
            (part item).text ++ "" :: lines (Block.stacked ((rest.map part).map Block.text)) := by
        rw [List.map_cons, List.map_cons, Block.stacked,
          String.intercalate_cons_of_ne_nil (by simpa using hnil), Block.lines_append_gap_append]
        rfl
      rw [hcons, hcons, List.flatMap_cons]
      exact item.interspersed.append (.code "" ih)

/-- The lines of comments are clean as they are. -/
theorem cleanLines_comments {comments : List CommentTag}
    (h : ∀ comment ∈ comments, comment.IsPlain) :
    Block.cleanLines (comments.map CommentTag.text) =
      comments.flatMap fun comment => lines comment.text := by
  rw [Block.cleanLines, List.flatMap_map]
  refine (List.map_congr_left fun line hline => ?_).trans (List.map_id _)
  obtain ⟨comment, hcomment, hmem⟩ := List.mem_flatMap.mp hline
  exact ((h comment hcomment).forall_mem_lines line hmem).2

/-- A block of pieces that are bounded by visible characters is not empty. -/
theorem text_ofLines_ne_empty {opening : String} {pieces : List String}
    (h : Block.Bounded opening pieces) (hopening : isOpeningText opening = true) :
    (Block.ofLines pieces).text ≠ "" := by
  have hnormal := h.isNormal_cleanLines hopening
  rw [← h.lines_text_ofLines hopening] at hnormal
  exact hnormal.ne_empty

section Pieces

variable {comments : List CommentTag} {pieces : List String}

/-- Pieces that are bounded by visible characters are so with comments in front. -/
theorem exists_bounded_append (comments : List CommentTag)
    (hpieces : ∃ opening, isOpeningText opening = true ∧ Block.Bounded opening pieces) :
    ∃ opening, isOpeningText opening = true ∧
      Block.Bounded opening (comments.map CommentTag.text ++ pieces) := by
  cases comments with
  | nil => exact hpieces
  | cons comment rest =>
    obtain ⟨opening, _, hbounded⟩ := hpieces
    obtain ⟨last, hlast, hvisible⟩ := hbounded.last
    refine ⟨"///", by decide, ⟨comment.text, rfl, comment.isPrefix_text⟩, last, ?_, hvisible⟩
    rw [Option.mem_def, List.getLast?_append, Option.mem_def.mp hlast]
    rfl

/-- A block of such pieces is documented by the comments in front of them. -/
theorem exists_documented_ofLines (h : ∀ comment ∈ comments, comment.HasUnbrokenTag)
    (hpieces : ∃ opening, isOpeningText opening = true ∧ Block.Bounded opening pieces) :
    ∃ item : Documented, item.comments = comments ∧ item.code = Block.ofLines pieces ∧
      item.block = Block.ofLines (comments.map CommentTag.text ++ pieces) := by
  obtain ⟨_, hfirst, hwhole⟩ := exists_bounded_append comments hpieces
  obtain ⟨_, hopening, hbounded⟩ := hpieces
  have happend := (Interspersed.of_comments h).append (.refl (Block.cleanLines pieces))
  have hplain : ∀ comment ∈ comments, comment.IsPlain :=
    fun comment hcomment => (h comment hcomment).isPlain
  rw [List.append_nil, List.nil_append, ← cleanLines_comments hplain, ← Block.cleanLines_append,
    ← hwhole.lines_text_ofLines hfirst, ← hbounded.lines_text_ofLines hopening] at happend
  have hcode := text_ofLines_ne_empty hbounded hopening
  have htext := text_ofLines_ne_empty hwhole hfirst
  exact ⟨⟨comments, _, _, hcode, htext, happend⟩, rfl, rfl, rfl⟩

end Pieces

/-- The lines of a declaration behind its comments. -/
def bracedLines (attributes : List String) (header : String) (body : Block) : List String :=
  Block.cleanLines (attributes.map (fun text => s!"[{text}]") ++ [header, "\x7b"] ++
    (if body.isEmpty then [] else [body.indent.text]) ++ ["\x7d"])

/-- The lines of a declaration with a body, behind its comments. -/
theorem bracedLines_of_ne_empty (attributes : List String) (header : String) {body : Block}
    (h : body.text ≠ "") :
    bracedLines attributes header body =
      Block.cleanLines (attributes.map (fun text => s!"[{text}]") ++ [header]) ++
        armLines (lines body.text) := by
  have hvisible : ¬body.isEmpty = true := mt Block.text_eq_empty_iff.mpr h
  rw [bracedLines, if_neg hvisible, ← cleanLines_braces, ← Block.cleanLines_append]
  simp only [List.append_assoc, List.cons_append, List.nil_append]

/-- A declaration begins with its comments, as they are. -/
theorem lines_text_braced (preamble : Preamble) (hne : preamble.comments ≠ [])
    (h : ∀ comment ∈ preamble.comments, comment.IsPlain) (header : String)
    (body : Block) :
    lines (braced preamble header body).text =
      (preamble.comments.flatMap fun comment => lines comment.text) ++
        bracedLines preamble.attributes header body := by
  have hbounded : Block.Bounded "///" (preamble.pieces ++ [header, "\x7b"] ++
      (if body.isEmpty then [] else [body.indent.text]) ++ ["\x7d"]) := by
    obtain ⟨comment, rest, hcomments⟩ := List.exists_cons_of_ne_nil hne
    constructor
    · exact ⟨comment.text, by simp [Preamble.pieces, hcomments], comment.isPrefix_text⟩
    · exact ⟨"\x7d", List.getLast?_concat, by decide⟩
  rw [braced, hbounded.lines_text_ofLines (by decide), bracedLines, ← cleanLines_comments h,
    ← Block.cleanLines_append, Preamble.pieces]
  simp only [List.append_assoc]

/-- A declaration is documented by some of its comments, if others stay, and by the
comments in its body. -/
theorem exists_documented_braced (attributes : List String) {header : String}
    {front docs back inner : List CommentTag} {bare body : Block} (hne : front ++ back ≠ [])
    (hunbroken : ∀ comment ∈ front ++ docs ++ back, comment.HasUnbrokenTag)
    (h : Interspersed inner (bracedLines attributes header bare)
      (bracedLines attributes header body)) :
    ∃ item : Documented, item.comments = docs ++ inner ∧
      item.code = braced { comments := front ++ back, attributes } header bare ∧
      item.block = braced { comments := front ++ docs ++ back, attributes } header body := by
  have hmore : front ++ docs ++ back ≠ [] := by
    intro hnil
    simp_all
  have hplain : ∀ comment ∈ front ++ docs ++ back, comment.IsPlain := fun comment hcomment =>
    (hunbroken comment hcomment).isPlain
  have hfewer : ∀ comment ∈ front ++ back, comment.IsPlain := by
    simp only [List.forall_mem_append] at hplain ⊢
    exact ⟨hplain.1.1, hplain.2⟩
  simp only [List.forall_mem_append] at hunbroken
  have hcode := lines_text_braced { comments := front ++ back, attributes } hne hfewer header bare
  have htext :=
    lines_text_braced { comments := front ++ docs ++ back, attributes } hmore hplain header body
  have hinterspersed :=
    ((Interspersed.refl (front.flatMap fun comment => lines comment.text)).append
      (Interspersed.of_comments hunbroken.1.2)).append
      ((Interspersed.refl (back.flatMap fun comment => lines comment.text)).append h)
  simp only [List.nil_append, List.append_nil, ← List.append_assoc] at hinterspersed
  rw [← List.flatMap_append, ← List.flatMap_append, ← List.flatMap_append, ← hcode, ← htext]
    at hinterspersed
  have hcodeNe := Block.text_braced_ne_empty { comments := front ++ back, attributes } header bare
  have htextNe :=
    Block.text_braced_ne_empty { comments := front ++ docs ++ back, attributes } header body
  exact ⟨⟨docs ++ inner, _, _, hcodeNe, htextNe, hinterspersed⟩, rfl, rfl, rfl⟩

/-- The lines of source of a block are those of its lines. -/
theorem sourceLines_text (block : Block) :
    sourceLines block.text = (lines block.text).flatMap sourceLines := by
  conv_lhs => rw [← unlines_lines block.text]
  exact sourceLines_unlines (lines_ne_nil _) fun line hline => Block.isTrimmed_of_mem_lines hline

/-- A declaration has the lines of source of its comments, as they are, in front of all others. -/
theorem sourceLines_text_braced (preamble : Preamble) (hne : preamble.comments ≠ [])
    (h : ∀ comment ∈ preamble.comments, comment.IsPlain) (header : String) (body : Block) :
    sourceLines (braced preamble header body).text =
      (preamble.comments.flatMap fun comment => sourceLines comment.text) ++
        (bracedLines preamble.attributes header body).flatMap sourceLines := by
  have hcomments :
      (preamble.comments.flatMap fun comment => (lines comment.text).flatMap sourceLines) =
        preamble.comments.flatMap fun comment => sourceLines comment.text :=
    List.flatMap_congr fun comment hcomment => (h comment hcomment).sourceLines_text.symm
  rw [sourceLines_text, lines_text_braced preamble hne h, List.flatMap_append, List.flatMap_assoc,
    hcomments]

/-- Lines of source with lines put in between that are comments. -/
inductive CommentsAdded : List String → List String → Prop
  | nil : CommentsAdded [] []
  | code {code text : List String} (line : String) :
      CommentsAdded code text → CommentsAdded (line :: code) (line :: text)
  | comment {code text : List String} {line : String} :
      isCommentLine line = true → CommentsAdded code text → CommentsAdded code (line :: text)

/-- The number of lines that are no comments. -/
def codeCount (ls : List String) : Nat :=
  ls.countP fun line => !isCommentLine line

/-- No line of code is left exactly if all lines are comments. -/
theorem codeCount_eq_zero_iff {ls : List String} :
    codeCount ls = 0 ↔ ∀ line ∈ ls, isCommentLine line = true := by
  simp [codeCount, List.countP_eq_zero]

/-- Lines of code are counted part by part. -/
theorem codeCount_append (front rest : List String) :
    codeCount (front ++ rest) = codeCount front + codeCount rest :=
  List.countP_append

namespace CommentsAdded

variable {code text : List String}

/-- The same code may stand in front. -/
theorem append_code (front : List String) (h : CommentsAdded code text) :
    CommentsAdded (front ++ code) (front ++ text) := by
  induction front with
  | nil => exact h
  | cons line rest ih => exact .code line ih

/-- Comments may stand in front of the text alone. -/
theorem append_comments {front : List String} (hfront : ∀ line ∈ front, isCommentLine line = true)
    (h : CommentsAdded code text) : CommentsAdded code (front ++ text) := by
  induction front with
  | nil => exact h
  | cons line rest ih =>
    obtain ⟨hline, hrest⟩ := List.forall_mem_cons.mp hfront
    exact .comment hline (ih hrest)

/-- Lines that are comments add no other lines. -/
theorem codeCount_eq (h : CommentsAdded code text) : codeCount text = codeCount code := by
  unfold codeCount
  induction h with
  | nil => rfl
  | code line _ ih => rw [List.countP_cons, List.countP_cons, ih]
  | comment hline _ ih =>
    rw [List.countP_cons_of_neg (by simp [hline])]
    exact ih

end CommentsAdded

/-- Spaces in front of a line do not decide whether it is a comment. -/
theorem isCommentLine_append {front : String} (h : ∀ c ∈ front.toList, c = ' ') (line : String) :
    isCommentLine (front ++ line) = isCommentLine line := by
  have hdrop :
      (front.toList ++ line.toList).dropWhile (· == ' ') = line.toList.dropWhile (· == ' ') :=
    List.dropWhile_append_of_pos fun c hc => beq_iff_eq.mpr (h c hc)
  rw [isCommentLine, isCommentLine, trimStart, trimStart, String.toList_append, hdrop]

/-- Nor do they decide that of the lines of source of a line. -/
theorem codeCount_sourceLines_append {front : String} (h : ∀ c ∈ front.toList, c = ' ')
    (line : String) : codeCount (sourceLines (front ++ line)) = codeCount (sourceLines line) := by
  obtain ⟨first, rest, hline⟩ := List.exists_cons_of_ne_nil (sourceLines_ne_nil line)
  have hunbroken : IsUnbroken front := by
    intro c hc
    rw [h c hc]
    rfl
  rw [sourceLines_append hunbroken hline, hline, codeCount, codeCount, List.countP_cons,
    List.countP_cons, isCommentLine_append h]

/-- A comment has the same number of lines that are no comments wherever it stands. -/
theorem codeCount_indented {comment : CommentTag} (hunbroken : comment.HasUnbrokenTag)
    {front : String} (h : ∀ c ∈ front.toList, c = ' ') :
    codeCount (((lines comment.text).map (front ++ ·)).flatMap sourceLines) =
      codeCount (sourceLines comment.text) := by
  rw [hunbroken.isPlain.sourceLines_text, codeCount, codeCount, List.flatMap_map,
    List.countP_flatMap, List.countP_flatMap]
  refine congrArg List.sum (List.map_congr_left fun line _ => ?_)
  exact codeCount_sourceLines_append h line

/-- A text has the lines that are no comments of its code and of its comments. -/
theorem Interspersed.codeCount_eq {comments : List CommentTag} {code text : List String}
    (h : Interspersed comments code text) :
    codeCount (text.flatMap sourceLines) =
      codeCount (code.flatMap sourceLines) +
        codeCount (comments.flatMap fun comment => sourceLines comment.text) := by
  induction h with
  | nil => rfl
  | code line _ ih =>
    rw [List.flatMap_cons, List.flatMap_cons, codeCount_append, codeCount_append, ih, Nat.add_assoc]
  | comment hunbroken hfront _ ih =>
    rw [List.flatMap_append, List.flatMap_cons, codeCount_append, codeCount_append,
      codeCount_indented hunbroken hfront, ih]
    exact Nat.add_left_comm _ _ _

/-- A reader finds only comments in addition to the code exactly if the continuations of all
comments are comments. -/
theorem Interspersed.commentsAdded_iff {comments : List CommentTag} {code text : List String}
    (h : Interspersed comments code text) :
    CommentsAdded (code.flatMap sourceLines) (text.flatMap sourceLines) ↔
      ∀ comment ∈ comments, ∀ line ∈ continuations comment.content, isCommentLine line = true := by
  constructor
  · intro hadded
    have hnone : codeCount (comments.flatMap fun comment => sourceLines comment.text) = 0 := by
      have hsum := h.codeCount_eq
      have hcode := hadded.codeCount_eq
      omega
    intro comment hcomment
    rw [← (h.hasUnbrokenTag comment hcomment).forall_sourceLines_iff tellsComments_isCommentLine]
    intro line hline
    exact codeCount_eq_zero_iff.mp hnone line (List.mem_flatMap.mpr ⟨comment, hcomment, hline⟩)
  · intro hall
    induction h with
    | nil => exact .nil
    | code line _ ih =>
      rw [List.flatMap_cons, List.flatMap_cons]
      exact (ih hall).append_code (sourceLines line)
    | comment hunbroken hfront _ ih =>
      obtain ⟨hcomment, hrest⟩ := List.forall_mem_cons.mp hall
      rw [← hunbroken.forall_sourceLines_iff tellsComments_isCommentLine, ← codeCount_eq_zero_iff,
        ← codeCount_indented hunbroken hfront, codeCount_eq_zero_iff] at hcomment
      rw [List.flatMap_append]
      exact (ih hrest).append_comments hcomment

end SliceRecords.Code
