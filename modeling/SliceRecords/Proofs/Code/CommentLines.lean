import SliceRecords.Proofs.Code.Indentation

/-!
# Lines of comments

Generated code is cut into lines by line feeds, but a reader of it also ends lines at carriage
returns and at the separators of Unicode. Of the lines that a comment has for such a reader, the
ones that do not begin with slashes are continuations of its content: they begin behind a character
that ends a line and is no line feed. Main statements: `sourceLines_unlines`,
`continuations_eq_nil_iff` and `CommentTag.HasUnbrokenTag.forall_sourceLines_iff`.
-/

namespace SliceRecords

namespace Text

/-- Trimming both ends is trimming the one and then the other. -/
theorem trim_eq (p : Char → Bool) (text : String) : trim p text = trimEnd p (trimStart p text) := by
  rw [trim, trimEnd, trimStart, String.toList_ofList]
  rfl

end Text

namespace Code

open Text

/-- Cuts source where one of its lines ends. A carriage return and the line feed behind it
end one line together. -/
def cutSource : List Char → List (List Char)
  | [] => [[]]
  | '\r' :: '\n' :: rest => [] :: cutSource rest
  | c :: rest =>
    if isLineTerminator c then [] :: cutSource rest
    else
      match cutSource rest with
      | [] => [[c]]
      | line :: others => (c :: line) :: others

/-- The lines of a text for a reader of generated code. -/
def sourceLines (text : String) : List String :=
  (cutSource text.toList).map String.ofList

example : sourceLines "a\r\nb\rc\u2028\n" = ["a", "b", "c", "", ""] := by decide +kernel

/-- A text without characters that end a line. -/
def IsUnbroken (text : String) : Prop :=
  ∀ c ∈ text.toList, isLineTerminator c = false

/-- Whether a text is unbroken is decided character by character. -/
instance (text : String) : Decidable (IsUnbroken text) :=
  decidable_of_iff ((text.toList.all fun c => !isLineTerminator c) = true) (by simp [IsUnbroken])

/-- Unbroken texts put together are unbroken. -/
theorem IsUnbroken.append {a b : String} (ha : IsUnbroken a) (hb : IsUnbroken b) :
    IsUnbroken (a ++ b) := by
  intro c hc
  rw [String.toList_append, List.mem_append] at hc
  exact hc.elim (ha c) (hb c)

/-- A text that is one line of source is one line. -/
theorem IsUnbroken.isOneLine {text : String} (h : IsUnbroken text) : IsOneLine text := by
  intro hmem
  exact absurd (h '\n' hmem) (by decide)

/-- A text has at least one line of source. -/
theorem cutSource_ne_nil (text : List Char) : cutSource text ≠ [] := by
  fun_cases cutSource text <;> simp

/-- A character that ends no line is part of the first line. -/
theorem cutSource_cons {c : Char} (hc : isLineTerminator c = false) {text line : List Char}
    {others : List (List Char)} (h : cutSource text = line :: others) :
    cutSource (c :: text) = (c :: line) :: others := by
  have hreturn : ∀ rest, c = '\r' → text = '\n' :: rest → False := by
    rintro rest rfl
    cases hc
  rw [cutSource.eq_3 _ _ hreturn, h]
  simp [hc]

/-- A line that ends does so with what follows, unless a carriage return and a line feed meet. -/
theorem cutSource_cons_append {c : Char} {text : List Char}
    (hreturn : ∀ rest, c = '\r' → text = '\n' :: rest → False) {more : List Char}
    (hmeet : text = [] → c = '\r' → ∀ rest, more ≠ '\n' :: rest) (hc : isLineTerminator c = true) :
    cutSource (c :: (text ++ more)) = [] :: cutSource (text ++ more) := by
  rw [cutSource.eq_3, if_pos hc]
  intro rest hcarriage hnewline
  cases text with
  | nil => exact hmeet rfl hcarriage rest hnewline
  | cons first others => exact hreturn others hcarriage (by rw [(List.cons.inj hnewline).1])

/-- A line feed ends a line if no carriage return stands in front of it. -/
theorem cutSource_append_newline {front : List Char} (h : front.getLast? ≠ some '\r')
    (rest : List Char) : cutSource (front ++ '\n' :: rest) = cutSource front ++ cutSource rest := by
  have hlast {c : Char} {others : List Char} (hne : (c :: others).getLast? ≠ some '\r') :
      others.getLast? ≠ some '\r' := by
    rintro hothers
    rw [List.getLast?_cons, hothers] at hne
    exact hne rfl
  fun_induction cutSource front with
  | case1 =>
    rw [List.nil_append, cutSource.eq_3 _ _ (by simp), if_pos (by decide)]
    rfl
  | case2 front ih =>
    rw [List.cons_append, List.cons_append, cutSource, ih (hlast (hlast h))]
    rfl
  | case3 c front hreturn hc ih =>
    rw [List.cons_append, cutSource_cons_append hreturn ?_ hc, ih (hlast h)]
    · rfl
    · rintro rfl rfl
      exact absurd rfl h
  | case4 c front hreturn hc hnil ih => exact absurd hnil (cutSource_ne_nil front)
  | case5 c front hreturn hc line others hcons ih =>
    rw [hcons] at ih
    exact cutSource_cons (Bool.eq_false_iff.mpr hc) (ih (hlast h))

/-- What follows a text without ending a line is part of its last line. -/
theorem exists_cutSource_append (text : List Char) :
    ∃ lines last, cutSource text = lines ++ [last] ∧
      ∀ rest, (∀ c ∈ rest, isLineTerminator c = false) →
        cutSource (text ++ rest) = lines ++ [last ++ rest] := by
  fun_induction cutSource text with
  | case1 =>
    refine ⟨[], [], rfl, fun rest hrest => ?_⟩
    rw [List.nil_append]
    induction rest with
    | nil => rfl
    | cons c rest ih =>
      obtain ⟨hc, hothers⟩ := List.forall_mem_cons.mp hrest
      exact cutSource_cons hc (ih hothers)
  | case2 text ih =>
    obtain ⟨lines, last, htext, hmore⟩ := ih
    refine ⟨[] :: lines, last, by rw [htext]; rfl, fun rest hrest => ?_⟩
    rw [List.cons_append, List.cons_append, cutSource, hmore rest hrest]
    rfl
  | case3 c text hreturn hc ih =>
    obtain ⟨lines, last, htext, hmore⟩ := ih
    refine ⟨[] :: lines, last, by rw [htext]; rfl, fun rest hrest => ?_⟩
    rw [List.cons_append, cutSource_cons_append hreturn ?_ hc, hmore rest hrest]
    · rfl
    · rintro - - others rfl
      exact absurd (hrest '\n' List.mem_cons_self) (by decide)
  | case4 c text hreturn hc hnil ih => exact absurd hnil (cutSource_ne_nil text)
  | case5 c text hreturn hc line others hcons ih =>
    obtain ⟨lines, last, htext, hmore⟩ := ih
    have hplain : isLineTerminator c = false := Bool.eq_false_iff.mpr hc
    rw [hcons] at htext
    cases lines with
    | nil =>
      obtain ⟨rfl, rfl⟩ := List.cons.inj htext
      exact ⟨[], c :: line, rfl, fun rest hrest => cutSource_cons hplain (hmore rest hrest)⟩
    | cons first lines =>
      obtain ⟨rfl, rfl⟩ := List.cons.inj htext
      exact ⟨(c :: line) :: lines, last, rfl,
        fun rest hrest => cutSource_cons hplain (hmore rest hrest)⟩

/-- What stands in front of a text without ending a line is part of its first line. -/
theorem cutSource_append {front : List Char} (h : ∀ c ∈ front, isLineTerminator c = false)
    {text line : List Char} {others : List (List Char)} (htext : cutSource text = line :: others) :
    cutSource (front ++ text) = (front ++ line) :: others := by
  induction front with
  | nil => exact htext
  | cons c front ih =>
    obtain ⟨hc, hfront⟩ := List.forall_mem_cons.mp h
    exact cutSource_cons hc (ih hfront)

/-- A text has a second line exactly if some line ends in it. -/
theorem tail_cutSource_eq_nil_iff {text : List Char} :
    (cutSource text).tail = [] ↔ ∀ c ∈ text, isLineTerminator c = false := by
  fun_induction cutSource text with
  | case1 => simp
  | case2 rest _ =>
    refine iff_of_false (cutSource_ne_nil rest) fun h => ?_
    exact absurd (h '\r' List.mem_cons_self) (by decide)
  | case3 c rest _ hc _ =>
    refine iff_of_false (cutSource_ne_nil rest) fun h => ?_
    rw [h c List.mem_cons_self] at hc
    cases hc
  | case4 c rest hreturn hc hnil => exact absurd hnil (cutSource_ne_nil rest)
  | case5 c rest hreturn hc line others hcons ih =>
    rw [hcons] at ih
    rw [List.forall_mem_cons, and_iff_right (Bool.eq_false_iff.mpr hc)]
    exact ih

/-- A text has at least one line of source, as a string too. -/
theorem sourceLines_ne_nil (text : String) : sourceLines text ≠ [] := by
  intro h
  exact cutSource_ne_nil text.toList (List.map_eq_nil_iff.mp h)

/-- An unbroken text in front lengthens the first line of source. -/
theorem sourceLines_append {front : String} (h : IsUnbroken front) {text line : String}
    {others : List String} (htext : sourceLines text = line :: others) :
    sourceLines (front ++ text) = (front ++ line) :: others := by
  obtain ⟨first, rest, hcut, rfl, rfl⟩ := List.map_eq_cons_iff.mp htext
  rw [sourceLines, String.toList_append, cutSource_append h hcut, List.map_cons,
    String.ofList_append, String.ofList_toList]

/-- An unbroken text behind lengthens the last line of source. -/
theorem exists_sourceLines_append (text : String) :
    ∃ lines last, sourceLines text = lines ++ [last] ∧
      ∀ rest, IsUnbroken rest → sourceLines (text ++ rest) = lines ++ [last ++ rest] := by
  obtain ⟨lines, last, htext, hmore⟩ := exists_cutSource_append text.toList
  refine ⟨lines.map String.ofList, String.ofList last, ?_, fun rest hrest => ?_⟩
  · rw [sourceLines, htext, List.map_append]
    rfl
  · rw [sourceLines, String.toList_append, hmore rest.toList hrest, List.map_append]
    simp

/-- A text in which no line ends is one line of source. -/
theorem sourceLines_of_isUnbroken {text : String} (h : IsUnbroken text) :
    sourceLines text = [text] := by
  have hempty : sourceLines "" = [""] := rfl
  have htext := sourceLines_append h hempty
  rwa [String.append_empty] at htext

/-- Trimmed lines that are put together have the lines of source of each of them. -/
theorem sourceLines_unlines {ls : List String} (hne : ls ≠ []) (h : ∀ line ∈ ls, IsTrimmed line) :
    sourceLines (unlines ls) = ls.flatMap sourceLines := by
  induction ls with
  | nil => exact absurd rfl hne
  | cons line rest ih =>
    obtain ⟨hline, hrest⟩ := List.forall_mem_cons.mp h
    by_cases hnil : rest = []
    · rw [hnil, unlines_singleton, List.flatMap_singleton]
    · have hlast : line.toList.getLast? ≠ some '\r' := fun hreturn =>
        absurd (isTrimmed_iff.mp hline '\r' hreturn) (by decide)
      have hlist :
          (unlines (line :: rest)).toList = line.toList ++ '\n' :: (unlines rest).toList := by
        rw [unlines, String.intercalate_cons_of_ne_nil hnil]
        simp [unlines]
      rw [sourceLines, hlist, cutSource_append_newline hlast, List.map_append, List.flatMap_cons,
        ← ih hnil hrest]
      rfl

/-- A line that begins as a comment on a declaration. -/
def opensComment (line : String) : Bool :=
  ['/', '/', '/'].isPrefixOf line.toList

/-- A line that is a comment on a declaration, with spaces in front or without. -/
def isCommentLine (line : String) : Bool :=
  opensComment (trimStart (· == ' ') line)

/-- A test of lines that those which begin as comments pass, and that a tag at the end of a
line does not change. -/
structure TellsComments (p : String → Bool) : Prop where
  opens : ∀ line, opensComment line = true → p line = true
  closes : ∀ line rest, p (line ++ ("<" ++ rest)) = p line

/-- A line opens a comment exactly if it begins with three slashes. -/
theorem opensComment_iff {line : String} :
    opensComment line = true ↔ "///".toList <+: line.toList :=
  List.isPrefixOf_iff_prefix

/-- A line that opens a comment does so whatever follows. -/
theorem opensComment_append {line : String} (h : opensComment line = true) (rest : String) :
    opensComment (line ++ rest) = true := by
  rw [opensComment_iff] at h ⊢
  exact isPrefix_append h rest

/-- Slashes and the bracket of a tag are different characters. -/
theorem isPrefixOf_append_bracket (line rest : List Char) :
    ['/', '/', '/'].isPrefixOf (line ++ '<' :: rest) = ['/', '/', '/'].isPrefixOf line := by
  rcases line with _ | ⟨a, _ | ⟨b, _ | ⟨c, line⟩⟩⟩ <;> simp [List.isPrefixOf]

/-- Three slashes at the start tell comments. -/
theorem tellsComments_opensComment : TellsComments opensComment := by
  refine ⟨fun _ h => h, fun line rest => ?_⟩
  have hlist : (line ++ ("<" ++ rest)).toList = line.toList ++ '<' :: rest.toList := by simp
  rw [opensComment, opensComment, hlist, isPrefixOf_append_bracket]

/-- Three slashes behind spaces tell comments. -/
theorem tellsComments_isCommentLine : TellsComments isCommentLine := by
  constructor
  · intro line h
    obtain ⟨rest, hrest⟩ := opensComment_iff.mp h
    have htrim : trimStart (· == ' ') line = line := by
      rw [trimStart, ← hrest]
      exact (congrArg String.ofList hrest).trans String.ofList_toList
    rwa [isCommentLine, htrim]
  · intro line rest
    have hlist : (line ++ ("<" ++ rest)).toList = line.toList ++ '<' :: rest.toList := by simp
    have hdrop : (line.toList ++ '<' :: rest.toList).dropWhile (· == ' ') =
        line.toList.dropWhile (· == ' ') ++ '<' :: rest.toList := by
      rw [List.dropWhile_append]
      split
      · rename_i hempty
        rw [List.isEmpty_iff.mp hempty]
        rfl
      · rfl
    rw [isCommentLine, isCommentLine, opensComment, opensComment, trimStart, trimStart,
      String.toList_ofList, String.toList_ofList, hlist, hdrop, isPrefixOf_append_bracket]

section Front

variable {p : String → Bool} {front : String}

/-- A text behind the beginning of a comment has lines that are comments if those
behind its first one are. -/
theorem forall_sourceLines_append (hp : TellsComments p) (hfront : opensComment front = true)
    (hunbroken : IsUnbroken front) (text : String) :
    (∀ line ∈ sourceLines (front ++ text), p line = true) ↔
      ∀ line ∈ (sourceLines text).tail, p line = true := by
  obtain ⟨first, others, htext⟩ := List.exists_cons_of_ne_nil (sourceLines_ne_nil text)
  rw [sourceLines_append hunbroken htext, htext, List.forall_mem_cons, List.tail_cons]
  exact and_iff_right (hp.opens _ (opensComment_append hfront first))

/-- The tag that ends a comment changes nothing about that. -/
theorem forall_sourceLines_enclosed (hp : TellsComments p) (hfront : opensComment front = true)
    (hunbroken : IsUnbroken front) (text : String) {rest : String} (hrest : IsUnbroken rest) :
    (∀ line ∈ sourceLines (front ++ text ++ ("<" ++ rest)), p line = true) ↔
      ∀ line ∈ (sourceLines text).tail, p line = true := by
  have hbracket : IsUnbroken "<" := by decide
  rw [String.append_assoc, forall_sourceLines_append hp hfront hunbroken]
  obtain ⟨ls, last, htext, hmore⟩ := exists_sourceLines_append text
  rw [htext, hmore _ (hbracket.append hrest)]
  cases ls with
  | nil => exact Iff.rfl
  | cons first ls =>
    simp only [List.cons_append, List.tail_cons, List.forall_mem_append, List.forall_mem_singleton,
      hp.closes]

end Front

/-- A comment of which only the content can end lines. -/
structure CommentTag.HasUnbrokenTag (comment : CommentTag) : Prop where
  tag : IsUnbroken comment.tag
  attributeName : ∀ name ∈ comment.attributeName, IsUnbroken name
  attributeValue : ∀ value ∈ comment.attributeValue, IsUnbroken value

section Comment

variable {comment : CommentTag}

/-- The attribute of an unbroken tag is unbroken. -/
theorem CommentTag.HasUnbrokenTag.isUnbroken_attributeText (h : comment.HasUnbrokenTag) :
    IsUnbroken comment.attributeText := by
  have hempty : IsUnbroken "" := by decide
  unfold attributeText
  split
  · exact hempty
  · rename_i name hname
    split
    · exact hempty
    · have hspace : IsUnbroken " " := by decide
      have hquote : IsUnbroken "\"" := by decide
      have hequals : IsUnbroken "=\"" := by decide
      have hvalue : IsUnbroken (comment.attributeValue.getD Json.nullWord) := by
        cases hsome : comment.attributeValue with
        | none =>
          have hnull : IsUnbroken Json.nullWord := by decide
          exact hnull
        | some value => exact h.attributeValue value hsome
      have hopening := (hspace.append (h.attributeName name hname)).append hequals
      exact (hopening.append hvalue).append hquote

/-- An unbroken tag has no line feeds. -/
theorem CommentTag.HasUnbrokenTag.isPlain (h : comment.HasUnbrokenTag) : comment.IsPlain :=
  ⟨h.tag.isOneLine, h.isUnbroken_attributeText.isOneLine⟩

/-- What a comment begins with, up to the bracket that ends its tag. -/
def CommentTag.opening (comment : CommentTag) : String :=
  "/// <" ++ (comment.tag ++ comment.attributeText)

/-- What stands behind the bracket that starts the end tag of a comment. -/
def CommentTag.closing (comment : CommentTag) : String :=
  "/" ++ comment.tag ++ ">"

/-- The lines of a comment: a single tag if it says nothing, a line of text between its tags, or a
line for each of its tags and each line between them. -/
theorem CommentTag.IsPlain.lines_text (h : comment.IsPlain) :
    (trim isBlank comment.content = "" ∧ lines comment.text = [comment.opening ++ " />"]) ∨
      (lines (trim isBlank comment.content) = [trim isBlank comment.content] ∧ lines comment.text =
        [comment.opening ++ ">" ++ trim isBlank comment.content ++ ("<" ++ comment.closing)]) ∨
      lines comment.text = [comment.opening ++ ">"] ++
        (lines (trim isBlank comment.content)).map CommentTag.contentLine ++
          ["/// " ++ ("<" ++ comment.closing)] := by
  obtain ⟨htag, hattribute⟩ := h
  have hopening : IsOneLine comment.opening := IsOneLine.append (by decide) (htag.append hattribute)
  have hclosing : IsOneLine ("<" ++ comment.closing) :=
    IsOneLine.append (by decide) (htag.enclosed (by decide) (by decide))
  have hslash : "</" = "<" ++ "/" := rfl
  unfold CommentTag.text
  extract_lets opening content
  -- A comment is a single tag, one line between tags, or a line for each tag and each line between.
  split
  · rename_i hempty
    exact .inl ⟨String.isEmpty_iff.mp hempty, lines_of_notMem (hopening.append (by decide))⟩
  split
  · rename_i line hsingle
    have hcontent : trim isBlank comment.content = line := by
      rw [← unlines_lines (trim isBlank comment.content), hsingle, unlines_singleton]
    have hline : IsOneLine line :=
      newline_notMem_of_mem_lines (hsingle ▸ List.mem_singleton_self line)
    have htext : s!"/// <{opening}>{line}</{comment.tag}>" =
        comment.opening ++ ">" ++ line ++ ("<" ++ comment.closing) := by
      change "/// <" ++ (comment.tag ++ comment.attributeText) ++ ">" ++ line ++ "</" ++
        comment.tag ++ ">" = _
      rw [hslash]
      simp only [CommentTag.opening, closing, String.append_assoc]
    have hwhole : IsOneLine (comment.opening ++ ">" ++ line ++ ("<" ++ comment.closing)) :=
      ((hopening.append (by decide)).append hline).append hclosing
    rw [htext, hcontent]
    exact .inr (.inl ⟨lines_of_notMem hline, lines_of_notMem hwhole⟩)
  · have hfirst : s!"/// <{opening}>" = comment.opening ++ ">" := rfl
    have hlast : s!"/// </{comment.tag}>" = "/// " ++ ("<" ++ comment.closing) := by
      change "/// </" ++ comment.tag ++ ">" = _
      simp only [closing, ← String.append_assoc]
      rfl
    have hcontent : ∀ part ∈ (lines content).map CommentTag.contentLine, IsOneLine part :=
      List.forall_mem_map.mpr fun line hline =>
        newline_notMem_trimEnd (IsOneLine.append (by decide) (newline_notMem_of_mem_lines hline))
    rw [hfirst, hlast, lines_unlines (by simp)]
    · exact .inr (.inr rfl)
    · refine List.forall_mem_append.mpr ⟨List.forall_mem_append.mpr ⟨?_, hcontent⟩, ?_⟩
      · exact List.forall_mem_singleton.mpr (hopening.append (by decide))
      · exact List.forall_mem_singleton.mpr (IsOneLine.append (by decide) hclosing)

/-- The lines of a comment begin with slashes and do not end with blanks. -/
theorem CommentTag.IsPlain.forall_mem_lines (h : comment.IsPlain) :
    ∀ line ∈ lines comment.text, opensComment line = true ∧ IsTrimmed line := by
  have hopens (rest : String) : opensComment (comment.opening ++ rest) = true :=
    opensComment_append (opensComment_append (by decide) _) rest
  have hclosing : endsVisibly comment.closing = true := endsVisibly_append (b := ">") (by decide) _
  have hcloses (front : String) : IsTrimmed (front ++ ("<" ++ comment.closing)) :=
    isTrimmed_of_endsVisibly (endsVisibly_append (endsVisibly_append hclosing "<") front)
  have hends {last : String} (hlast : endsVisibly last = true) :
      IsTrimmed (comment.opening ++ last) :=
    isTrimmed_of_endsVisibly (endsVisibly_append hlast _)
  rcases h.lines_text with ⟨-, htext⟩ | ⟨-, htext⟩ | htext
  · rw [htext]
    exact List.forall_mem_singleton.mpr ⟨hopens _, hends (by decide)⟩
  · rw [htext]
    refine List.forall_mem_singleton.mpr ⟨?_, hcloses _⟩
    rw [String.append_assoc, String.append_assoc]
    exact hopens _
  · rw [htext]
    refine List.forall_mem_append.mpr ⟨List.forall_mem_append.mpr ⟨?_, ?_⟩, ?_⟩
    · exact List.forall_mem_singleton.mpr ⟨hopens _, hends (by decide)⟩
    · refine List.forall_mem_map.mpr fun line _ => ⟨?_, isTrimmed_trimEnd _⟩
      have hvisible : ∀ c ∈ "///".toList.getLast?, isBlank c = false := fun c hc =>
        Option.some.inj hc ▸ rfl
      exact opensComment_iff.mpr (isPrefix_trimEnd hvisible (isPrefix_append (by decide) line))
    · exact List.forall_mem_singleton.mpr ⟨opensComment_append (by decide) _, hcloses _⟩

/-- A comment has the lines of source of its lines. -/
theorem CommentTag.IsPlain.sourceLines_text (h : comment.IsPlain) :
    sourceLines comment.text = (lines comment.text).flatMap sourceLines := by
  conv_lhs => rw [← unlines_lines comment.text]
  exact sourceLines_unlines (lines_ne_nil _) fun line hline => (h.forall_mem_lines line hline).2

/-- The lines of a content that begin neither with it nor behind a line feed, but behind another
character that ends a line. Blanks at the ends of its lines are trimmed away before, and among
them such characters. -/
def continuations (content : String) : List String :=
  (lines (trim isBlank content)).flatMap fun line => (sourceLines (trimEnd isBlank line)).tail

/-- A content has no continuations exactly if its lines, without the blanks at their
ends, are lines of source. -/
theorem continuations_eq_nil_iff {content : String} :
    continuations content = [] ↔
      ∀ line ∈ lines (trim isBlank content), IsUnbroken (trimEnd isBlank line) := by
  rw [continuations, List.flatMap_eq_nil_iff]
  refine forall₂_congr fun line _ => ?_
  rw [sourceLines, ← List.map_tail, List.map_eq_nil_iff, tail_cutSource_eq_nil_iff]
  rfl

example : continuations "One.\r\nTwo.\n" = [] := by decide +kernel

example : continuations "One.\rTwo." = ["Two."] := by decide +kernel

variable {p : String → Bool}

/-- In a line of content only the lines of source behind its first one can fail to be comments. -/
theorem forall_sourceLines_contentLine (hp : TellsComments p) (line : String) :
    (∀ part ∈ sourceLines (CommentTag.contentLine line), p part = true) ↔
      ∀ part ∈ (sourceLines (trimEnd isBlank line)).tail, p part = true := by
  rw [CommentTag.contentLine, trimEnd_append_eq]
  split
  · rename_i hempty
    have hslashes : trimEnd isBlank "/// " = "///" ++ "" := by decide
    rw [hempty, hslashes]
    exact forall_sourceLines_append hp (by decide) (by decide) _
  · exact forall_sourceLines_append hp (by decide) (by decide) _

/-- All lines of a comment are comments exactly if the continuations of its content are. -/
theorem CommentTag.HasUnbrokenTag.forall_sourceLines_iff (h : comment.HasUnbrokenTag)
    (hp : TellsComments p) :
    (∀ line ∈ sourceLines comment.text, p line = true) ↔
      ∀ line ∈ continuations comment.content, p line = true := by
  have hopening : IsUnbroken comment.opening :=
    IsUnbroken.append (a := "/// <") (by decide) (h.tag.append h.isUnbroken_attributeText)
  have hclosing : IsUnbroken comment.closing :=
    (IsUnbroken.append (a := "/") (by decide) h.tag).append (b := ">") (by decide)
  have hopens : opensComment comment.opening = true := opensComment_append (by decide) _
  have hplain {line : String} (hline : IsUnbroken line) (hslashes : opensComment line = true) :
      ∀ part ∈ sourceLines line, p part = true := by
    rw [sourceLines_of_isUnbroken hline]
    exact List.forall_mem_singleton.mpr (hp.opens line hslashes)
  have htag : IsUnbroken (comment.opening ++ ">") := hopening.append (b := ">") (by decide)
  rw [h.isPlain.sourceLines_text, continuations]
  simp only [List.forall_mem_flatMap]
  rcases h.isPlain.lines_text with ⟨hempty, htext⟩ | ⟨hsingle, htext⟩ | htext
  · rw [htext, hempty, lines_empty, List.forall_mem_singleton, List.forall_mem_singleton]
    have hright : ∀ part ∈ (sourceLines (trimEnd isBlank "")).tail, p part = true :=
      List.forall_mem_nil _
    have hsingle : IsUnbroken (comment.opening ++ " />") := hopening.append (b := " />") (by decide)
    exact iff_of_true (hplain hsingle (opensComment_append hopens _)) hright
  · have htrimmed :
        trimEnd isBlank (trim isBlank comment.content) = trim isBlank comment.content := by
      rw [trim_eq]
      exact isTrimmed_trimEnd _
    rw [htext, hsingle, List.forall_mem_singleton, List.forall_mem_singleton, htrimmed]
    exact forall_sourceLines_enclosed hp (opensComment_append hopens _) htag _ hclosing
  · rw [htext]
    simp only [List.forall_mem_append, List.forall_mem_singleton, List.forall_mem_map,
      forall_sourceLines_contentLine hp]
    have hfirst := hplain htag (opensComment_append hopens _)
    have hend : IsUnbroken ("<" ++ comment.closing) :=
      IsUnbroken.append (a := "<") (by decide) hclosing
    have hlast : ∀ part ∈ sourceLines ("/// " ++ ("<" ++ comment.closing)), p part = true :=
      hplain (IsUnbroken.append (a := "/// ") (by decide) hend) (opensComment_append (by decide) _)
    rw [and_iff_left hlast, and_iff_right hfirst]

end Comment

end Code

end SliceRecords
