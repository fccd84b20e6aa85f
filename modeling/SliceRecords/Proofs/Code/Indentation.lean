import SliceRecords.Proofs.Code.BodyIndentation
import SliceRecords.Proofs.Code.References

/-!
# Indentation of declarations

The text of a declaration is indented by its braces, whatever its documentation, deprecation
messages and string defaults hold: every line of a comment begins with slashes, and a literal has no
line feeds. Members, methods and the declaration around them are built from nested texts, each one
level further in. Main statement: `readLines_structDeclaration`.
-/

namespace SliceRecords

/-- A struct with names, types and default values that stand on one line each in code. -/
structure Struct.HasOneLineTexts (struct : Struct) : Prop where
  name : Text.IsOneLine struct.name
  fields : ∀ field ∈ struct.fields, field.HasOneLineNames
  defaults : ∀ field ∈ struct.fields, ∀ value ∈ field.defaultValue,
    Text.IsOneLine (Code.defaultLiteral field.type value)

namespace Code

open Text

variable {namespaceName : String}

/-- A comment of which only the content can have lines. -/
def CommentTag.IsPlain (comment : CommentTag) : Prop :=
  IsOneLine comment.tag ∧ IsOneLine comment.attributeText

/-- A comment without an attribute is plain if its tag stands on one line. -/
theorem CommentTag.isPlain_of_tag {tag : String} (htag : IsOneLine tag) (content : String) :
    CommentTag.IsPlain ⟨tag, content, none, none⟩ := by
  have hattribute : IsOneLine "" := by decide
  exact ⟨htag, hattribute⟩

/-- The tag of a summary is on one line. -/
theorem isPlain_summary (text : String) : (summary text).IsPlain :=
  CommentTag.isPlain_of_tag (by decide) text

/-- Every line of a plain comment begins with slashes, whatever the comment says. -/
theorem CommentTag.IsPlain.startsPlainly_of_mem_lines {comment : CommentTag} (h : comment.IsPlain) :
    ∀ line ∈ lines comment.text, startsPlainly line = true := by
  obtain ⟨htag, hattribute⟩ := h
  have hslashes {rest : String} (hrest : IsOneLine rest) :
      ∀ line ∈ lines ("/// <" ++ rest), startsPlainly line = true := by
    rw [lines_of_notMem (IsOneLine.append (by decide) hrest)]
    exact List.forall_mem_singleton.mpr (startsPlainly_append (by decide) rest)
  unfold CommentTag.text
  extract_lets opening content
  have hopening : IsOneLine opening := htag.append hattribute
  -- A comment is a single tag, one line between tags, or a line for each tag and each line between.
  split
  · have htext : s!"/// <{opening} />" = "/// <" ++ (opening ++ " />") := by
      rw [← String.append_assoc]
      rfl
    rw [htext]
    exact hslashes (hopening.append (by decide))
  split
  · rename_i line hsingle
    have hmem : line ∈ lines content := by
      rw [hsingle]
      exact List.mem_singleton_self line
    have hline : IsOneLine line := newline_notMem_of_mem_lines hmem
    have htext : s!"/// <{opening}>{line}</{comment.tag}>" =
        "/// <" ++ (opening ++ ">" ++ line ++ "</" ++ comment.tag ++ ">") := by
      simp only [← String.append_assoc]
      rfl
    rw [htext]
    exact hslashes (((((hopening.append (by decide)).append hline).append (by decide)).append
      htag).append (by decide))
  · have hcontent : ∀ part ∈ (lines content).map CommentTag.contentLine,
        IsOneLine part ∧ startsPlainly part = true := by
      refine List.forall_mem_map.mpr fun line hline => ⟨?_, ?_⟩
      · exact newline_notMem_trimEnd
          (IsOneLine.append (by decide) (newline_notMem_of_mem_lines hline))
      · exact startsPlainly_trimEnd (startsPlainly_append (by decide) line)
    have hfirst : IsOneLine s!"/// <{opening}>" ∧ startsPlainly s!"/// <{opening}>" = true :=
      ⟨hopening.enclosed (by decide) (by decide),
        startsPlainly_append (startsPlainly_append (by decide) _) _⟩
    have hlast : IsOneLine s!"/// </{comment.tag}>" ∧
        startsPlainly s!"/// </{comment.tag}>" = true :=
      ⟨htag.enclosed (by decide) (by decide),
        startsPlainly_append (startsPlainly_append (by decide) _) _⟩
    have hparts : ∀ part ∈ [s!"/// <{opening}>"] ++ (lines content).map CommentTag.contentLine ++
        [s!"/// </{comment.tag}>"], IsOneLine part ∧ startsPlainly part = true :=
      List.forall_mem_append.mpr ⟨List.forall_mem_append.mpr
        ⟨List.forall_mem_singleton.mpr hfirst, hcontent⟩, List.forall_mem_singleton.mpr hlast⟩
    rw [lines_unlines (by simp) fun part hpart => (hparts part hpart).1]
    exact fun part hpart => (hparts part hpart).2

/-- A comment opens and closes no braces. -/
theorem CommentTag.IsPlain.isNested {comment : CommentTag} (h : comment.IsPlain) :
    IsNested (Block.cleanLines [comment.text]) :=
  isNested_cleanLines_of_lines h.startsPlainly_of_mem_lines

/-- An attribute in brackets stands on one line. -/
theorem isNested_attribute {text : String} (h : IsOneLine text) :
    IsNested (Block.cleanLines [s!"[{text}]"]) :=
  isNested_cleanLines_line (startsPlainly_append (startsPlainly_append (by decide) _) _)
    (h.enclosed (by decide) (by decide))

/-- The attribute of a deprecated declaration opens and closes no braces,
whatever its message says. -/
theorem isNested_obsoleteAttribute (deprecated : String) :
    IsNested (Block.cleanLines [s!"[{obsoleteAttribute deprecated}]"]) :=
  isNested_attribute (isOneLine_obsoleteAttribute deprecated)

/-- A preamble of plain comments and of attributes on one line each. -/
structure Preamble.IsPlain (preamble : Preamble) : Prop where
  comments : ∀ comment ∈ preamble.comments, comment.IsPlain
  attributes : ∀ text ∈ preamble.attributes, IsOneLine text

/-- A preamble stays plain with one more plain comment. -/
theorem Preamble.IsPlain.addComment {preamble : Preamble} (h : preamble.IsPlain)
    {comment : CommentTag} (hcomment : comment.IsPlain) : (preamble.addComment comment).IsPlain :=
  ⟨List.forall_mem_append.mpr ⟨h.comments, List.forall_mem_singleton.mpr hcomment⟩, h.attributes⟩

/-- A preamble stays plain with the attribute of a deprecated declaration. -/
theorem Preamble.IsPlain.addObsolete {preamble : Preamble} (h : preamble.IsPlain)
    (deprecated : Option String) : (preamble.addObsolete deprecated).IsPlain := by
  cases deprecated with
  | none => exact h
  | some message =>
    exact ⟨h.comments, List.forall_mem_append.mpr
      ⟨h.attributes, List.forall_mem_singleton.mpr (isOneLine_obsoleteAttribute message)⟩⟩

/-- What stands in front of a declaration opens and closes no braces. -/
theorem Preamble.IsPlain.isNested_pieces {preamble : Preamble} (h : preamble.IsPlain) :
    IsNested (Block.cleanLines preamble.pieces) := by
  apply isNested_cleanLines_of_forall
  rw [pieces, List.forall_mem_append, List.forall_mem_map, List.forall_mem_map]
  constructor
  · exact fun comment hcomment => (h.comments comment hcomment).isNested
  · exact fun text htext => isNested_attribute (h.attributes text htext)

/-- A block between braces is nested under a plain preamble and a header on one line. -/
theorem isNested_braced {preamble : Preamble} (hpreamble : preamble.IsPlain) {header : String}
    (hheader : startsPlainly header = true) (hline : IsOneLine header) {body : Block}
    (hbody : IsNested (lines body.text)) : IsNested (lines (braced preamble header body).text) := by
  have hbraces : IsNested (Block.cleanLines
      (["\x7b"] ++ (if body.isEmpty then [] else [body.indent.text]) ++ ["\x7d"])) := by
    split
    · have hclosed : IsNested (Block.cleanLines ["\x7b", "\x7d"]) := by
        unfold IsNested
        decide +kernel
      exact hclosed
    · exact hbody.braces
  have hpieces :=
    (hpreamble.isNested_pieces.append (isNested_cleanLines_line hheader hline)).append hbraces
  rw [← Block.cleanLines_append, ← Block.cleanLines_append] at hpieces
  rw [braced]
  apply isNested_lines_text_ofLines
  simpa only [List.append_assoc, List.cons_append, List.nil_append] using hpieces

/-- The declaration of a member is nested. -/
theorem isNested_fieldDeclaration {struct : Struct} {field : Field} (hfield : field.HasOneLineNames)
    {block : Block} (h : fieldDeclaration namespaceName struct field = .ok block) :
    IsNested (lines block.text) := by
  simp only [fieldDeclaration, Result.bind_eq_ok_iff, Result.pure_eq_ok_iff] at h
  obtain ⟨typeName, htype, rfl⟩ := h
  apply isNested_lines_text_ofLines
  rw [Block.cleanLines_append, Block.cleanLines_append]
  refine (IsNested.append ?_ ?_).append ?_
  · apply isNested_cleanLines_of_forall
    exact List.forall_mem_map.mpr fun doc _ => (isPlain_summary doc).isNested
  · apply isNested_cleanLines_of_forall
    exact List.forall_mem_map.mpr fun message _ => isNested_obsoleteAttribute message
  · have hmodifier :
        startsPlainly (if struct.isReadonly then "public readonly" else "public") = true ∧
        IsOneLine (if struct.isReadonly then "public readonly" else "public") := by
      cases struct.isReadonly <;> exact ⟨by decide, by decide⟩
    have htypeLine := isOneLine_typeText hfield.wellFormed hfield.userNames htype
    have hname := isOneLine_memberName hfield.name
    apply isNested_cleanLines_line
    · simp only [String.append_assoc]
      exact startsPlainly_append hmodifier.1 _
    · exact ((((hmodifier.2.append (by decide)).append htypeLine).append (by decide)).append
        hname).append (by decide)

/-- A method with an access word in front, words and parameters on one line each, a plain
preamble and a nested body. -/
structure Method.IsPlain (method : Method) : Prop where
  access : startsPlainly method.access = true
  words : ∀ word ∈ [method.access, method.returnType, method.name], IsOneLine word
  parameters : ∀ parameter ∈ method.parameters, IsOneLine parameter.text
  preamble : method.preamble.IsPlain
  body : IsNested (lines method.body.text)

section Method

variable {method : Method}

/-- The header of a method begins with a word. -/
theorem Method.IsPlain.startsPlainly_header (h : method.IsPlain) :
    startsPlainly method.header = true := by
  obtain ⟨c, tail, hlist, _⟩ := startsPlainly_iff.mp h.access
  have hvisible : (!method.access.isEmpty) = true := by
    rw [Bool.not_eq_true', ← Bool.not_eq_true, String.isEmpty_iff, ← String.toList_eq_nil_iff,
      hlist]
    exact List.cons_ne_nil c tail
  have hsignature (rest : List String) :
      startsPlainly (" ".intercalate (method.access :: rest)) = true := by
    by_cases hnil : rest = []
    · rw [hnil, String.intercalate_singleton]
      exact h.access
    · rw [String.intercalate_cons_of_ne_nil hnil, String.append_assoc]
      exact startsPlainly_append h.access _
  rw [header, List.filter_cons_of_pos (p := fun word : String => !word.isEmpty) hvisible]
  simp only [String.append_assoc]
  exact startsPlainly_append (hsignature _) _

/-- The header of a method is on one line. -/
theorem Method.IsPlain.isOneLine_header (h : method.IsPlain) : IsOneLine method.header := by
  have hsignature : IsOneLine (" ".intercalate
      ([method.access, method.returnType, method.name].filter fun word => !word.isEmpty)) :=
    isOneLine_intercalate (by decide) fun word hword => h.words word (List.mem_of_mem_filter hword)
  have hparameters : IsOneLine (", ".intercalate (method.parameters.map Parameter.text)) :=
    isOneLine_intercalate (by decide) (List.forall_mem_map.mpr h.parameters)
  exact ((hsignature.append (by decide)).append hparameters).append (by decide)

/-- The code of a plain method is nested. -/
theorem Method.IsPlain.isNested_build (h : method.IsPlain) : IsNested (lines method.build.text) :=
  isNested_braced h.preamble h.startsPlainly_header h.isOneLine_header h.body

/-- The comment on a parameter is plain if the name of the parameter stands on one line. -/
theorem isPlain_parameterComment {name : String} (h : IsOneLine name) (doc : String) :
    CommentTag.IsPlain ⟨"param", doc, some "name", some (trimStart (· == '@') name)⟩ := by
  have htag : IsOneLine "param" := by decide
  have hname : IsOneLine (trimStart (· == '@') name) := by
    rw [IsOneLine, trimStart, String.toList_ofList]
    exact fun hmem => h ((List.dropWhile_sublist _).subset hmem)
  refine ⟨htag, ?_⟩
  unfold CommentTag.attributeText
  dsimp only
  split
  · decide
  · exact (IsOneLine.append (a := " name=\"") (by decide) hname).append (by decide)

/-- Adding a parameter on one line leaves a method plain, whatever its documentation says. -/
theorem Method.IsPlain.addParameter (h : method.IsPlain) {parameter : Parameter}
    (htext : IsOneLine parameter.text) (hname : IsOneLine parameter.name) (doc : Option String) :
    (method.addParameter parameter doc).IsPlain := by
  have hpreamble : (method.addParameter parameter doc).preamble.IsPlain := by
    unfold Method.addParameter
    dsimp only
    split
    · exact h.preamble
    · split
      · exact h.preamble
      · exact h.preamble.addComment (isPlain_parameterComment hname _)
  have hparameters : ∀ p ∈ (method.addParameter parameter doc).parameters, IsOneLine p.text :=
    List.forall_mem_append.mpr ⟨h.parameters, List.forall_mem_singleton.mpr htext⟩
  exact ⟨h.access, h.words, hparameters, hpreamble, h.body⟩

/-- A method with a summary and without parameters is plain if its words stand on one line. -/
theorem Method.isPlain_of_summary {access returnType name : String}
    (haccess : startsPlainly access = true) (haccessLine : IsOneLine access)
    (hreturnType : IsOneLine returnType) (hname : IsOneLine name) (text : String) {body : Block}
    (hbody : IsNested (lines body.text)) :
    Method.IsPlain
      { access, returnType, name, preamble := { comments := [summary text] }, body } := by
  constructor
  · exact haccess
  · simp only [List.forall_mem_cons]
    exact ⟨haccessLine, hreturnType, hname, List.forall_mem_nil _⟩
  · exact List.forall_mem_nil _
  · exact ⟨List.forall_mem_singleton.mpr (isPlain_summary text), List.forall_mem_nil _⟩
  · exact hbody

end Method

/-- The parameter for a field is on one line, and so is its name. -/
theorem isOneLine_fieldParameter {field : Field} (hfield : field.HasOneLineNames)
    (hdefault : ∀ value ∈ field.defaultValue, IsOneLine (defaultLiteral field.type value))
    {withDefault : Bool} {parameter : Parameter}
    (h : fieldParameter namespaceName field withDefault = .ok parameter) :
    IsOneLine parameter.text ∧ IsOneLine parameter.name := by
  simp only [fieldParameter, Result.bind_eq_ok_iff, Result.pure_eq_ok_iff] at h
  obtain ⟨typeName, htype, rfl⟩ := h
  have hname := isOneLine_parameterName hfield.name
  have hstart : IsOneLine (typeName ++ " " ++ parameterName field.name) :=
    ((isOneLine_typeText hfield.wellFormed hfield.userNames htype).append (by decide)).append hname
  refine ⟨?_, hname⟩
  unfold Parameter.text
  dsimp only
  split
  · exact hstart
  · rename_i value hvalue
    cases withDefault with
    | false => cases hvalue
    | true =>
      rw [if_pos rfl, Option.map_eq_some_iff] at hvalue
      obtain ⟨default, hmem, rfl⟩ := hvalue
      exact (hstart.append (by decide)).append (hdefault default hmem)

/-- Adding the parameters for fields leaves a method plain. -/
theorem isPlain_addFieldParameters {fields : List Field}
    (hfields : ∀ field ∈ fields, field.HasOneLineNames)
    (hdefaults :
      ∀ field ∈ fields, ∀ value ∈ field.defaultValue, IsOneLine (defaultLiteral field.type value))
    {required index : Nat} {method complete : Method} (hmethod : method.IsPlain)
    (h : addFieldParameters namespaceName required method index fields = .ok complete) :
    complete.IsPlain := by
  induction fields generalizing method index with
  | nil =>
    cases h
    exact hmethod
  | cons field rest ih =>
    obtain ⟨hfield, hrest⟩ := List.forall_mem_cons.mp hfields
    obtain ⟨hdefault, hothers⟩ := List.forall_mem_cons.mp hdefaults
    simp only [addFieldParameters, Result.bind_eq_ok_iff] at h
    obtain ⟨parameter, hparameter, h⟩ := h
    obtain ⟨htext, hname⟩ := isOneLine_fieldParameter hfield hdefault hparameter
    exact ih hrest hothers (hmethod.addParameter htext hname field.doc) h

/-- An assignment opens and closes no braces. -/
theorem isNested_fieldAssignment {field : Field} (h : IsOneLine field.name) :
    IsNested (Block.cleanLines [fieldAssignment field]) := by
  have hstatements : AreStatements [fieldAssignment field] :=
    areStatements_assignment field " = " (parameterName field.name) (by decide)
  exact hstatements.isNested (isOneLine_assignment h (isOneLine_parameterName h))

section Struct

variable {struct : Struct} {block : Block}

/-- A constructor with a summary and without parameters is plain. -/
theorem isPlain_constructor (hname : IsOneLine struct.name) {body : Block}
    (hbody : IsNested (lines body.text)) (text : String) :
    Method.IsPlain
      { access := "public"
        returnType := ""
        name := memberName struct.name
        preamble := { comments := [summary text] }
        body } :=
  Method.isPlain_of_summary (by decide) (by decide) (by decide) (isOneLine_memberName hname) text
    hbody

/-- The constructor from the values of all fields is nested. -/
theorem isNested_mainConstructor (hstruct : struct.HasOneLineTexts)
    (h : mainConstructor namespaceName struct = .ok block) : IsNested (lines block.text) := by
  simp only [mainConstructor, Result.bind_eq_ok_iff, Result.pure_eq_ok_iff] at h
  obtain ⟨constructor, hconstructor, rfl⟩ := h
  have hbody : IsNested (lines (Block.ofLines (struct.fields.map fieldAssignment)).text) := by
    apply isNested_lines_text_ofLines
    apply isNested_cleanLines_of_forall
    exact List.forall_mem_map.mpr fun field hfield =>
      isNested_fieldAssignment (hstruct.fields field hfield).name
  have hplain := isPlain_constructor hstruct.name hbody
  exact (isPlain_addFieldParameters hstruct.fields hstruct.defaults (hplain _)
    hconstructor).isNested_build

/-- The constructor that decodes the fields is nested. -/
theorem isNested_decodeConstructor (hstruct : struct.HasOneLineTexts)
    (h : decodeConstructor namespaceName struct = .ok block) : IsNested (lines block.text) := by
  simp only [decodeConstructor, Result.bind_eq_ok_iff, Result.pure_eq_ok_iff] at h
  obtain ⟨body, hbody, rfl⟩ := h
  have hplain := isPlain_constructor hstruct.name (isNested_structBody hstruct.fields hbody)
  exact ((hplain _).addParameter (by decide) (by decide) _).isNested_build

/-- The method that encodes the fields is nested. -/
theorem isNested_encodeMethod (hstruct : struct.HasOneLineTexts)
    (h : encodeMethod namespaceName struct = .ok block) : IsNested (lines block.text) := by
  simp only [encodeMethod, Result.bind_eq_ok_iff, Result.pure_eq_ok_iff] at h
  obtain ⟨body, hbody, rfl⟩ := h
  have haccess : startsPlainly "public readonly" = true ∧ IsOneLine "public readonly" :=
    ⟨by decide, by decide⟩
  have hreturnType : IsOneLine "void" := by decide
  have hname : IsOneLine "Encode" := by decide
  have hplain (text : String) := Method.isPlain_of_summary haccess.1 haccess.2 hreturnType hname
    text (isNested_structBody hstruct.fields hbody)
  exact ((hplain _).addParameter (by decide) (by decide) _).isNested_build

/-- What stands in front of a struct is plain. -/
theorem isPlain_structPreamble (struct : Struct) : (structPreamble struct).IsPlain := by
  unfold structPreamble
  apply Preamble.IsPlain.addObsolete
  refine ⟨List.forall_mem_append.mpr ⟨?_, ?_⟩, List.forall_mem_nil _⟩
  · exact List.forall_mem_map.mpr fun doc _ => isPlain_summary doc
  · exact List.forall_mem_singleton.mpr (CommentTag.isPlain_of_tag (by decide) _)

/-- The texts of blocks one empty line apart, as a block, are nested if each of them is. -/
theorem isNested_lines_text_stacked {blocks : List Block}
    (h : ∀ block ∈ blocks, IsNested (lines block.text)) :
    IsNested (lines (⟨Block.stacked (blocks.map Block.text)⟩ : Block).text) := by
  have htrimmed : (lines (Block.stacked (blocks.map Block.text))).map (trimEnd isBlank) =
      lines (Block.stacked (blocks.map Block.text)) := by
    refine (List.map_congr_left ?_).trans (List.map_id _)
    refine Block.forall_mem_lines_stacked (P := IsTrimmed) rfl
      (List.forall_mem_map.mpr fun block _ line hline => ?_)
    exact Block.isTrimmed_of_mem_lines hline
  apply isNested_lines_text
  rw [htrimmed]
  exact isNested_lines_stacked (List.forall_mem_map.mpr h)

/-- The declaration for a struct with such texts is nested. -/
theorem isNested_structDeclaration (hstruct : struct.HasOneLineTexts)
    (h : structDeclaration namespaceName struct = .ok block) : IsNested (lines block.text) := by
  simp only [structDeclaration, Result.bind_eq_ok_iff, Result.mapError_eq_ok_iff,
    Result.pure_eq_ok_iff] at h
  obtain ⟨declarations, hdeclarations, constructor, hconstructor, decoder, hdecoder, encoder,
      hencoder, rfl⟩ := h
  have hmembers :
      IsNested (lines (⟨Block.stacked (declarations.map Block.text)⟩ : Block).text) := by
    apply isNested_lines_text_stacked
    intro declaration hmem
    obtain ⟨field, hfield, hdeclaration⟩ := Result.exists_of_mem_mapM hdeclarations hmem
    exact isNested_fieldDeclaration (hstruct.fields field hfield) hdeclaration
  have hblocks :
      ∀ member ∈ [⟨Block.stacked (declarations.map Block.text)⟩, constructor, decoder, encoder],
        IsNested (lines member.text) := by
    simp only [List.forall_mem_cons]
    exact ⟨hmembers, isNested_mainConstructor hstruct hconstructor,
      isNested_decodeConstructor hstruct hdecoder, isNested_encodeMethod hstruct hencoder,
      List.forall_mem_nil _⟩
  have hkeywords : startsPlainly (structKeywords struct) = true ∧
      IsOneLine (structKeywords struct) := by
    unfold structKeywords
    split <;> exact ⟨by decide, by decide⟩
  rw [Container.foldl_addBlock, Container.build]
  apply isNested_braced (isPlain_structPreamble struct)
  · simp only [String.append_assoc]
    exact startsPlainly_append hkeywords.1 _
  · exact (hkeywords.2.append (by decide)).append (isOneLine_memberName hstruct.name)
  · rw [Container.body, Block.text_foldl_addBlock]
    apply isNested_lines_stacked
    intro text htext
    obtain ⟨member, hmember, rfl⟩ := List.mem_map.mp (List.mem_of_mem_filter htext)
    exact hblocks member
      (List.mem_of_mem_filter (p := fun member : Block => !member.isEmpty) hmember)

end Struct

/-- For a struct of well-formed types, with identifiers for names and paths of them for types, whose
default values print on one line unless they are for strings: whatever its documentation,
deprecation messages and string defaults hold, it has a declaration in every namespace, and reading
the lines of the declaration, with the depth going up behind an opening brace and down in front of a
closing one, every line that is not blank has exactly four spaces for each level in front, and all
braces are closed at the end. -/
theorem readLines_structDeclaration (namespaceName : String) {struct : Struct}
    (hname : IsIdentifier struct.name)
    (hfields : ∀ field ∈ struct.fields, IsIdentifier field.name ∧ field.type.WellFormed ∧
        ∀ name ∈ field.type.userNames, ∃ parts, IsPath name parts)
    (hdefaults : ∀ field ∈ struct.fields,
        ¬(field.type.kind = .primitive ∧ field.type.name = some Primitive.string.keyword) →
        ∀ value ∈ field.defaultValue, '\n' ∉ value.plain.toList) :
    ∃ block, structDeclaration namespaceName struct = .ok block ∧
      readLines 0 (lines block.text) = some 0 := by
  obtain ⟨block, hblock⟩ :=
    exists_structDeclaration namespaceName fun field hfield => (hfields field hfield).2.1
  refine ⟨block, hblock, isNested_structDeclaration ?_ hblock⟩
  constructor
  · exact hname.isOneLine
  · intro field hfield
    obtain ⟨hidentifier, hwell, hnames⟩ := hfields field hfield
    refine ⟨hidentifier.isOneLine, hwell, fun name hmem => ?_⟩
    obtain ⟨parts, hpath⟩ := hnames name hmem
    exact hpath.isOneLine
  · intro field hfield value hvalue
    exact isOneLine_defaultLiteral fun hstring => hdefaults field hfield hstring value hvalue

/-- Two optional numbers, one of them tagged, and a text, with braces and line feeds
wherever there may be some. -/
theorem readLines_structDeclaration_labelled :
    ∃ (struct : Struct) (block : Block),
      struct.fields.map Field.name = ["level", "grade", "label"] ∧
      struct.fields.map Field.doc = [none, some "A grade.\n\n\x7d", none] ∧
      struct.doc = some "\x7b\n    Indented.\n\x7d" ∧ structDeclaration "Demo" struct = .ok block ∧
      readLines 0 (lines block.text) = some 0 := by
  let number : TypeRef := { kind := .primitive, name := some "int32", optional := true }
  let struct : Struct :=
    { name := "Labelled"
      fields :=
        [{ name := "level", type := number },
          { name := "grade"
            type := number
            tag := some (.integer 3)
            doc := some "A grade.\n\n\x7d"
            optional_of_tag := fun _ => rfl },
          { name := "label"
            type := { kind := .primitive, name := some "string" }
            defaultValue := some (.string "\n\x7d\n  x")
            deprecated := some "Use\nthe grade." }]
      encodings := .both
      doc := some "\x7b\n    Indented.\n\x7d" }
  have hnumber : TypeRef.WellFormed number := .primitive .int32 true none none none
  have htext : TypeRef.WellFormed { kind := .primitive, name := some "string" } :=
    .primitive .string false none none none
  have hfields : ∀ field ∈ struct.fields, IsIdentifier field.name ∧ field.type.WellFormed ∧
      ∀ name ∈ field.type.userNames, ∃ parts, IsPath name parts := by
    simp only [struct, List.forall_mem_cons]
    exact ⟨⟨by decide, hnumber, List.forall_mem_nil _⟩, ⟨by decide, hnumber, List.forall_mem_nil _⟩,
      ⟨by decide, htext, List.forall_mem_nil _⟩, List.forall_mem_nil _⟩
  have hdefaults : ∀ field ∈ struct.fields,
      ¬(field.type.kind = .primitive ∧ field.type.name = some Primitive.string.keyword) →
      ∀ value ∈ field.defaultValue, '\n' ∉ value.plain.toList := by
    simp only [struct, List.forall_mem_cons]
    refine ⟨fun _ => by simp, fun _ => by simp, fun hstring => ?_, List.forall_mem_nil _⟩
    exact absurd ⟨trivial, rfl⟩ hstring
  obtain ⟨block, hblock, hread⟩ := readLines_structDeclaration "Demo" (by decide) hfields hdefaults
  exact ⟨struct, block, rfl, rfl, rfl, hblock, hread⟩

end Code

end SliceRecords
