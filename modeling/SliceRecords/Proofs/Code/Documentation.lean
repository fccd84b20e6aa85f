import SliceRecords.Proofs.Code.Constructors
import SliceRecords.Proofs.Code.Interspersed
import SliceRecords.Proofs.Code.Undocumented

/-!
# Documentation in generated code

The declaration of a struct is that of the struct without documentation, with comments between its
lines. Each of these comments holds one text of documentation. A reader finds nothing in addition
but comments exactly if no line of documentation ends inside of itself, or what follows there is a
comment by its own slashes. Main statements: `exists_documented_structDeclaration` and
`comments_stay_iff_continuations`.
-/

namespace SliceRecords.Code

open Text

variable {namespaceName : String}

/-- The tag of a summary is unbroken, whatever the summary says. -/
theorem hasUnbrokenTag_summary (text : String) : (summary text).HasUnbrokenTag := by
  have htag : IsUnbroken "summary" := by decide
  exact ⟨htag, by simp [summary], by simp [summary]⟩

/-- The documentation of a field, as the comment on its member. -/
def memberComments (field : Field) : List CommentTag :=
  (docText? field.doc).toList.map summary

/-- The pieces of the declaration of a member behind its documentation. -/
def memberPieces (struct : Struct) (field : Field) (type : String) : List String :=
  let modifier := if struct.isReadonly then "public readonly" else "public"
  (field.deprecated.toList.map fun message => s!"[{obsoleteAttribute message}]") ++
    [s!"{modifier} {type} {memberName field.name};"]

/-- The declaration of a member is its comments, then the pieces of its code; only the
type can lack a text. -/
theorem fieldDeclaration_eq (struct : Struct) (field : Field) :
    fieldDeclaration namespaceName struct field =
      (fun type =>
        Block.ofLines ((memberComments field).map CommentTag.text ++
          memberPieces struct field type)) <$> typeText namespaceName field.type := by
  unfold fieldDeclaration
  cases typeText namespaceName field.type with
  | error error => rfl
  | ok type =>
    dsimp only [bind, Except.bind, pure, Except.pure, Functor.map, Except.map, memberPieces]
    rw [memberComments, List.map_map, Function.comp_def, List.append_assoc]

/-- The pieces of a member begin and end with visible characters. -/
theorem exists_bounded_memberPieces (struct : Struct) (field : Field) (type : String) :
    ∃ opening, isOpeningText opening = true ∧
      Block.Bounded opening (memberPieces struct field type) := by
  have hmember (modifier : String) (hmodifier : "public".toList <+: modifier.toList) :
      Block.Bounded "public" [modifier ++ " " ++ type ++ " " ++ memberName field.name ++ ";"] := by
    refine Block.bounded_piece ?_ (by decide)
    simp only [String.append_assoc]
    exact isPrefix_append hmodifier _
  have hmodifier :
      "public".toList <+: (if struct.isReadonly then "public readonly" else "public").toList := by
    cases struct.isReadonly <;> decide
  unfold memberPieces
  cases field.deprecated with
  | none => exact ⟨"public", by decide, hmember _ hmodifier⟩
  | some message =>
    refine ⟨"[", by decide, Block.Bounded.append ?_ (hmember _ hmodifier)⟩
    exact Block.bounded_piece (isPrefix_append (by decide) _) (by decide)

/-- The declaration of a member is that of the field without documentation,
with a comment for that. -/
theorem exists_documented_fieldDeclaration {struct : Struct} {field : Field} {block : Block}
    (h : fieldDeclaration namespaceName struct field = .ok block) :
    ∃ item : Documented, item.comments = memberComments field ∧ item.block = block ∧
      fieldDeclaration namespaceName struct.undocumented field.undocumented = .ok item.code := by
  rw [fieldDeclaration_eq, Result.map_eq_ok_iff] at h
  obtain ⟨type, htype, hblock⟩ := h
  have hunbroken : ∀ comment ∈ memberComments field, comment.HasUnbrokenTag :=
    List.forall_mem_map.mpr fun text _ => hasUnbrokenTag_summary text
  obtain ⟨item, hcomments, hcode, htext⟩ :=
    exists_documented_ofLines hunbroken (exists_bounded_memberPieces struct field type)
  refine ⟨item, hcomments, htext.trans hblock, ?_⟩
  rw [fieldDeclaration_eq, hcode]
  exact Result.map_eq_ok_iff.mpr ⟨type, htype, rfl⟩

/-- So are the declarations of all members of a struct. -/
theorem exists_documented_fieldDeclarations {struct : Struct} {fields : List Field}
    {blocks : List Block} (h : fields.mapM (fieldDeclaration namespaceName struct) = .ok blocks) :
    ∃ items : List Documented, items.flatMap Documented.comments = fields.flatMap memberComments ∧
      items.map Documented.block = blocks ∧
      (fields.map Field.undocumented).mapM (fieldDeclaration namespaceName struct.undocumented) =
        .ok (items.map Documented.code) := by
  have hblocks := Result.mapM_eq_ok_iff.mp h
  clear h
  induction hblocks with
  | nil => exact ⟨[], rfl, rfl, rfl⟩
  | @cons field block fields blocks hblock _ ih =>
    obtain ⟨items, hcomments, htexts, hcodes⟩ := ih
    obtain ⟨item, hcomment, htext, hcode⟩ := exists_documented_fieldDeclaration hblock
    refine ⟨item :: items, ?_, ?_, ?_⟩
    · rw [List.flatMap_cons, List.flatMap_cons, hcomment, hcomments]
    · rw [List.map_cons, htext, htexts]
    · exact Result.mapM_eq_ok_iff.mpr (.cons hcode (Result.mapM_eq_ok_iff.mp hcodes))

/-- The tags of the comments on a parameter are unbroken if its name is. -/
theorem hasUnbrokenTag_parameterComments {name : String} (h : IsUnbroken name)
    (doc : Option String) : ∀ comment ∈ parameterComments name doc, comment.HasUnbrokenTag := by
  have htag : IsUnbroken "param" := by decide
  have hattribute : IsUnbroken "name" := by decide
  have hname : IsUnbroken (trimStart (· == '@') name) := by
    intro c hc
    rw [trimStart, String.toList_ofList] at hc
    exact h c ((List.dropWhile_sublist _).subset hc)
  refine List.forall_mem_map.mpr fun text _ => ⟨htag, ?_, ?_⟩
  · simpa using hattribute
  · simpa using hname

/-- Parameters do not depend on documentation. -/
theorem fieldParameters_undocumented (fields : List Field) (types : List String) :
    fieldParameters (fields.map Field.undocumented) types = fieldParameters fields types := by
  induction fields generalizing types with
  | nil => rfl
  | cons field rest ih =>
    cases types with
    | nil => rfl
    | cons type types =>
      rw [List.map_cons, fieldParameters, fieldParameters, ih, ← List.map_cons, List.all_map]
      rfl

/-- The texts of types do not depend on documentation. -/
theorem fieldTypes_undocumented (fields : List Field) :
    fieldTypes namespaceName (fields.map Field.undocumented) = fieldTypes namespaceName fields :=
  Result.mapM_map_of_forall fun _ _ => rfl

/-- The documentation of a field, as the comment on its parameter of the constructor. -/
def fieldParameterComments (field : Field) : List CommentTag :=
  parameterComments (parameterName field.name) field.doc

/-- What the constructor from the values of all fields is for. -/
def constructorSummary (struct : Struct) : CommentTag :=
  summary s!"Constructs a new instance of <see cref=\"{memberName struct.name}\" />."

/-- Without documentation the constructor from the values of all fields keeps its summary alone. -/
theorem fieldConstructor_undocumented (struct : Struct) (types : List String) :
    fieldConstructor struct.undocumented types =
      { fieldConstructor struct types with
        preamble := { comments := [constructorSummary struct] } } := by
  have hcomments : ((struct.fields.map Field.undocumented).flatMap fun field =>
      parameterComments (parameterName field.name) field.doc) = [] := by
    rw [List.flatMap_map, List.flatMap_eq_nil_iff]
    exact fun field _ => rfl
  have hassignments : (struct.fields.map Field.undocumented).map fieldAssignment =
      struct.fields.map fieldAssignment := by
    rw [List.map_map]
    rfl
  unfold fieldConstructor
  dsimp only [Struct.undocumented]
  rw [hcomments, hassignments, fieldParameters_undocumented]
  rfl

/-- The constructor from the values of all fields is that without documentation, with
comments on its parameters. -/
theorem exists_documented_mainConstructor {struct : Struct} {block : Block}
    (hunbroken : ∀ comment ∈ struct.fields.flatMap fieldParameterComments, comment.HasUnbrokenTag)
    (h : mainConstructor namespaceName struct = .ok block) :
    ∃ item : Documented, item.comments = struct.fields.flatMap fieldParameterComments ∧
      item.block = block ∧ mainConstructor namespaceName struct.undocumented = .ok item.code := by
  obtain ⟨types, htypes, hblock⟩ := (mainConstructor_eq_ok_iff namespaceName).mp h
  have hall :
      ∀ comment ∈ [constructorSummary struct] ++ struct.fields.flatMap fieldParameterComments ++ [],
        comment.HasUnbrokenTag := by
    rw [List.append_nil]
    exact List.forall_mem_cons.mpr ⟨hasUnbrokenTag_summary _, hunbroken⟩
  obtain ⟨item, hcomments, hcode, htext⟩ := exists_documented_braced [] (by simp) hall (.refl
    (bracedLines [] (fieldConstructor struct types).header (fieldConstructor struct types).body))
  refine ⟨item, ?_, ?_, ?_⟩
  · rw [hcomments, List.append_nil]
  · rw [htext, ← hblock, List.append_nil]
    rfl
  · rw [hcode]
    have htypesCode := (fieldTypes_undocumented struct.fields).trans htypes
    refine (mainConstructor_eq_ok_iff namespaceName).mpr ⟨types, htypesCode, ?_⟩
    rw [fieldConstructor_undocumented]
    rfl

/-- The constructor that decodes does not depend on documentation. -/
theorem decodeConstructor_undocumented (struct : Struct) :
    decodeConstructor namespaceName struct.undocumented =
      decodeConstructor namespaceName struct := by
  unfold decodeConstructor
  rw [structBody_undocumented]
  rfl

/-- The method that encodes does not depend on documentation. -/
theorem encodeMethod_undocumented (struct : Struct) :
    encodeMethod namespaceName struct.undocumented = encodeMethod namespaceName struct := by
  unfold encodeMethod
  rw [structBody_undocumented]

/-- The constructor that decodes has a text. -/
theorem text_ne_empty_of_decodeConstructor {struct : Struct} {block : Block}
    (h : decodeConstructor namespaceName struct = .ok block) : block.text ≠ "" := by
  simp only [decodeConstructor, Result.bind_eq_ok_iff, Result.pure_eq_ok_iff] at h
  obtain ⟨body, _, rfl⟩ := h
  exact Block.text_braced_ne_empty _ _ _

/-- The method that encodes has a text. -/
theorem text_ne_empty_of_encodeMethod {struct : Struct} {block : Block}
    (h : encodeMethod namespaceName struct = .ok block) : block.text ≠ "" := by
  simp only [encodeMethod, Result.bind_eq_ok_iff, Result.pure_eq_ok_iff] at h
  obtain ⟨body, _, rfl⟩ := h
  exact Block.text_braced_ne_empty _ _ _

/-- The members of a container follow each other one empty line apart, also
those that come together. -/
theorem Container.text_body_foldl {container : Container} (hblocks : container.blocks = [])
    {together others : List Block} (htogether : ∀ block ∈ together, block.text ≠ "")
    (hothers : ∀ block ∈ others, block.text ≠ "") :
    ((⟨Block.stacked (together.map Block.text)⟩ :: others).foldl addBlock container).body.text =
      Block.stacked ((together ++ others).map Block.text) := by
  rw [foldl_addBlock, body, Block.text_foldl_addBlock, hblocks, List.nil_append,
    Block.visibleTexts_filter, List.map_append]
  by_cases hnil : together = []
  · have htext : (⟨Block.stacked (together.map Block.text)⟩ : Block).text = "" := by
      rw [hnil]
      rfl
    rw [Block.visibleTexts, List.map_cons, htext, List.filter_cons_of_neg (by simp),
      ← Block.visibleTexts, Block.visibleTexts_of_forall hothers, hnil, List.map_nil,
      List.nil_append]
  · have hne : together.map Block.text ≠ [] := by simpa using hnil
    have hnormal := Block.isNormal_lines_stacked_texts hnil htogether
    have htext := Block.text_mk_of_isNormal hnormal
    have hvisible : ∀ block ∈ (⟨Block.stacked (together.map Block.text)⟩ :: others : List Block),
        block.text ≠ "" := by
      refine List.forall_mem_cons.mpr ⟨?_, hothers⟩
      rw [htext]
      exact hnormal.ne_empty
    rw [Block.visibleTexts_of_forall hvisible, List.map_cons, htext, Block.stacked_cons_stacked hne]

/-- The code of a container with members, some of which come together. -/
def Container.buildWith (container : Container) (together others : List Block) : Block :=
  ((⟨Block.stacked (together.map Block.text)⟩ :: others).foldl addBlock container).build

/-- A container built with members that stand together holds them as one block in
front of the others. -/
theorem Container.buildWith_eq (container : Container) (together others : List Block) :
    container.buildWith together others =
      braced container.preamble s!"{container.type} {container.name}"
        ((⟨Block.stacked (together.map Block.text)⟩ :: others).foldl addBlock container).body := by
  rw [buildWith, foldl_addBlock]
  rfl

section Members

variable (together others : List Documented)

/-- The code of a container whose members are documented has the comments of all of them. -/
theorem Container.interspersed_bracedLines {bare container : Container} (hbare : bare.blocks = [])
    (hcontainer : container.blocks = []) (hothers : others ≠ []) (attributes : List String)
    (header : String) :
    Interspersed ((together ++ others).flatMap Documented.comments)
      (bracedLines attributes header
        ((⟨Block.stacked ((together.map Documented.code).map Block.text)⟩ ::
          others.map Documented.code).foldl addBlock bare).body)
      (bracedLines attributes header
        ((⟨Block.stacked ((together.map Documented.block).map Block.text)⟩ ::
          others.map Documented.block).foldl addBlock container).body) := by
  have hcode (items : List Documented) : ∀ block ∈ items.map Documented.code, block.text ≠ "" :=
    List.forall_mem_map.mpr fun item _ => item.code_ne_empty
  have hblock (items : List Documented) : ∀ block ∈ items.map Documented.block, block.text ≠ "" :=
    List.forall_mem_map.mpr fun item _ => item.block_ne_empty
  have hcodes := text_body_foldl hbare (hcode together) (hcode others)
  have hblocks := text_body_foldl hcontainer (hblock together) (hblock others)
  have hne (part : Documented → Block) : (together ++ others).map part ≠ [] := by simp [hothers]
  rw [← List.map_append] at hcodes hblocks
  have hcodesNe :=
    (Block.isNormal_lines_stacked_texts (hne Documented.code) (hcode (together ++ others))).ne_empty
  have hblocksNe :=
    (Block.isNormal_lines_stacked_texts (hne Documented.block)
       (hblock (together ++ others))).ne_empty
  rw [← hcodes] at hcodesNe
  rw [← hblocks] at hblocksNe
  rw [bracedLines_of_ne_empty _ _ hcodesNe, bracedLines_of_ne_empty _ _ hblocksNe, hcodes, hblocks]
  exact (Interspersed.refl _).append (Interspersed.stacked (together ++ others)).armLines

/-- A container with documented members is documented by their comments, and by some of its own. -/
theorem exists_documented_buildWith (type name : String) (attributes : List String)
    {front docs back : List CommentTag} (hne : front ++ back ≠ [])
    (hunbroken : ∀ comment ∈ front ++ docs ++ back, comment.HasUnbrokenTag)
    (hothers : others ≠ []) :
    ∃ item : Documented, item.comments = docs ++ (together ++ others).flatMap Documented.comments ∧
      item.code = ({ type, name, preamble := { comments := front ++ back, attributes } } :
        Container).buildWith (together.map Documented.code) (others.map Documented.code) ∧
      item.block = ({ type, name, preamble := { comments := front ++ docs ++ back, attributes } } :
        Container).buildWith (together.map Documented.block) (others.map Documented.block) := by
  rw [Container.buildWith_eq, Container.buildWith_eq]
  exact exists_documented_braced attributes hne hunbroken
    (Container.interspersed_bracedLines together others rfl rfl hothers attributes _)

end Members

/-- The documentation of a struct and of its fields, as comments in the order in which they stand in
the declaration: in front of it, on its members, and on the parameters of the constructor. -/
def docComments (struct : Struct) : List CommentTag :=
  (docText? struct.doc).toList.map summary ++ struct.fields.flatMap memberComments ++
    struct.fields.flatMap fieldParameterComments

/-- The comment that says where a declaration comes from. -/
def remarks (struct : Struct) : CommentTag :=
  ⟨"remarks", s!"The {generatorName} generator created this record struct from Slice struct " ++
    s!"<c>{struct.scopedName}</c>.", none, none⟩

/-- The tag of the remarks is unbroken. -/
theorem hasUnbrokenTag_remarks (struct : Struct) : (remarks struct).HasUnbrokenTag := by
  have htag : IsUnbroken "remarks" := by decide
  exact ⟨htag, by simp [remarks], by simp [remarks]⟩

/-- In front of a struct stand its summary, the remarks, and the attribute of a deprecated one. -/
theorem structPreamble_eq (struct : Struct) :
    structPreamble struct =
      { comments := (docText? struct.doc).toList.map summary ++ [remarks struct]
        attributes := struct.deprecated.toList.map obsoleteAttribute } := by
  unfold structPreamble
  cases struct.deprecated <;> rfl

/-- The members of a struct come together, its constructors and its method
one by one behind them. -/
theorem structDeclaration_eq_ok_iff {struct : Struct} {block : Block} :
    structDeclaration namespaceName struct = .ok block ↔
      ∃ members constructor decoder encoder,
        struct.fields.mapM (fieldDeclaration namespaceName struct) = .ok members ∧
        mainConstructor namespaceName struct = .ok constructor ∧
        decodeConstructor namespaceName struct = .ok decoder ∧
        encodeMethod namespaceName struct = .ok encoder ∧
        ({ type := structKeywords struct
           name := memberName struct.name
           preamble := structPreamble struct } : Container).buildWith members
          [constructor, decoder, encoder] = block := by
  simp only [structDeclaration, Result.bind_eq_ok_iff, Result.mapError_eq_ok_iff,
    Result.pure_eq_ok_iff]
  constructor
  · rintro ⟨members, hmembers, constructor, hconstructor, decoder, hdecoder, encoder, hencoder,
      hblock⟩
    exact ⟨members, constructor, decoder, encoder, hmembers, hconstructor, hdecoder, hencoder,
      hblock⟩
  · rintro ⟨members, constructor, decoder, encoder, hmembers, hconstructor, hdecoder, hencoder,
      hblock⟩
    exact ⟨members, hmembers, constructor, hconstructor, decoder, hdecoder, encoder, hencoder,
      hblock⟩

/-- The declaration of a struct is that of the struct without documentation, with a comment for each
text of documentation. -/
theorem exists_documented_structDeclaration {struct : Struct} {block : Block}
    (hunbroken : ∀ comment ∈ docComments struct, comment.HasUnbrokenTag)
    (h : structDeclaration namespaceName struct = .ok block) :
    ∃ item : Documented, item.comments = docComments struct ∧ item.block = block ∧
      structDeclaration namespaceName struct.undocumented = .ok item.code := by
  obtain ⟨members, constructor, decoder, encoder, hmembers, hconstructor, hdecoder, hencoder,
      hblock⟩ :=
    structDeclaration_eq_ok_iff.mp h
  simp only [docComments, List.forall_mem_append] at hunbroken
  obtain ⟨⟨hstruct, -⟩, hparameters⟩ := hunbroken
  obtain ⟨items, hitems, rfl, hcodes⟩ := exists_documented_fieldDeclarations hmembers
  obtain ⟨item, hitem, rfl, hcode⟩ := exists_documented_mainConstructor hparameters hconstructor
  -- The constructor that decodes and the method that encodes have no documentation.
  have hdecoderNe := text_ne_empty_of_decodeConstructor hdecoder
  have hencoderNe := text_ne_empty_of_encodeMethod hencoder
  let others : List Documented :=
    [item, ⟨[], decoder, decoder, hdecoderNe, hdecoderNe, .refl _⟩,
      ⟨[], encoder, encoder, hencoderNe, hencoderNe, .refl _⟩]
  have hall : ∀ comment ∈ [] ++ (docText? struct.doc).toList.map summary ++ [remarks struct],
      comment.HasUnbrokenTag :=
    List.forall_mem_append.mpr
      ⟨hstruct, List.forall_mem_singleton.mpr (hasUnbrokenTag_remarks struct)⟩
  obtain ⟨whole, hcomments, hwholeCode, hwholeBlock⟩ :=
    exists_documented_buildWith items others (structKeywords struct) (memberName struct.name)
      (struct.deprecated.toList.map obsoleteAttribute) (by simp) hall (by simp [others])
  refine ⟨whole, ?_, ?_, ?_⟩
  · rw [hcomments, List.flatMap_append, hitems, docComments, List.append_assoc]
    simp [others, hitem]
  · rw [hwholeBlock, ← hblock, structPreamble_eq]
    rfl
  · refine structDeclaration_eq_ok_iff.mpr ⟨_, _, decoder, encoder, hcodes, hcode, ?_, ?_, ?_⟩
    · exact (decodeConstructor_undocumented struct).trans hdecoder
    · exact (encodeMethod_undocumented struct).trans hencoder
    · rw [hwholeCode, structPreamble_eq]
      rfl

/-- All comments that come from documentation have unbroken tags if the names of
parameters are unbroken. -/
theorem hasUnbrokenTag_docComments {struct : Struct}
    (h : ∀ field ∈ struct.fields, IsUnbroken (parameterName field.name)) :
    ∀ comment ∈ docComments struct, comment.HasUnbrokenTag := by
  have hsummary (texts : List String) : ∀ comment ∈ texts.map summary, comment.HasUnbrokenTag :=
    List.forall_mem_map.mpr fun text _ => hasUnbrokenTag_summary text
  simp only [docComments, List.forall_mem_append, List.forall_mem_flatMap]
  refine ⟨⟨hsummary _, fun field _ => hsummary _⟩, fun field hfield => ?_⟩
  exact hasUnbrokenTag_parameterComments (h field hfield) field.doc

/-- For comments whose tags and attributes hold no character that ends a line of source: all lines
of source of a comment begin with slashes exactly if those do that begin inside of a line of its
content. A method or a container has the lines of its comments, as they are, in front of lines that
do not depend on them. And the declaration of a struct is that of the struct without documentation,
with the lines of a comment put in between for each text of documentation; a reader finds nothing in
addition to the code but comments, with spaces in front, exactly if all the lines that begin inside
of a line of documentation are such comments. -/
theorem comments_stay_iff_continuations (comment : CommentTag) (preamble : Preamble)
    (namespaceName : String) (struct : Struct) :
    (comment.HasUnbrokenTag →
     ((∀ line ∈ sourceLines comment.text, opensComment line = true) ↔
      ∀ line ∈ continuations comment.content, opensComment line = true)) ∧
    (preamble.comments ≠ [] → (∀ tag ∈ preamble.comments, tag.HasUnbrokenTag) →
     (∀ method : Method, method.preamble = preamble →
        sourceLines method.build.text =
          (preamble.comments.flatMap fun tag => sourceLines tag.text) ++
            (bracedLines preamble.attributes method.header method.body).flatMap sourceLines) ∧
     ∀ container : Container, container.preamble = preamble →
       sourceLines container.build.text = (preamble.comments.flatMap
         fun tag => sourceLines tag.text) ++ (bracedLines preamble.attributes
         s!"{container.type} {container.name}" container.body).flatMap sourceLines) ∧
    ((∀ tag ∈ docComments struct, tag.HasUnbrokenTag) →
     ∀ block, structDeclaration namespaceName struct = .ok block →
       ∃ bare, structDeclaration namespaceName struct.undocumented = .ok bare ∧
         Interspersed (docComments struct) (lines bare.text) (lines block.text) ∧
         (CommentsAdded (sourceLines bare.text) (sourceLines block.text) ↔
          ∀ tag ∈ docComments struct,
            ∀ line ∈ continuations tag.content, isCommentLine line = true)) := by
  refine ⟨fun h => h.forall_sourceLines_iff tellsComments_opensComment, ?_, ?_⟩
  · intro hne hunbroken
    have hplain : ∀ tag ∈ preamble.comments, tag.IsPlain :=
      fun tag htag => (hunbroken tag htag).isPlain
    constructor
    · rintro method rfl
      exact sourceLines_text_braced method.preamble hne hplain method.header method.body
    · rintro container rfl
      exact sourceLines_text_braced container.preamble hne hplain _ container.body
  · intro hunbroken block h
    obtain ⟨item, hcomments, rfl, hbare⟩ := exists_documented_structDeclaration hunbroken h
    have hinterspersed := item.interspersed
    rw [hcomments] at hinterspersed
    refine ⟨item.code, hbare, hinterspersed, ?_⟩
    rw [sourceLines_text, sourceLines_text]
    exact hinterspersed.commentsAdded_iff

/-- A text with a carriage return in front of its line feed, on a method and in a struct. -/
theorem comments_stay_iff_continuations_windows :
    ∃ (comment : CommentTag) (method : Method) (struct : Struct) (bare block : Block),
      comment.content = "One.\r\nTwo." ∧ method.preamble.comments = [comment] ∧
      struct.doc = some comment.content ∧ struct.fields.map Field.doc = [some "Across."] ∧
      structDeclaration "Demo" struct = .ok block ∧
      structDeclaration "Demo" struct.undocumented = .ok bare ∧
      (∀ line ∈ sourceLines comment.text, opensComment line = true) ∧
      sourceLines method.build.text = ["/// <summary>", "/// One.", "/// Two.", "/// </summary>",
        "public void Run()", "\x7b", "\x7d"] ∧
      CommentsAdded (sourceLines bare.text) (sourceLines block.text) := by
  let comment : CommentTag := summary "One.\r\nTwo."
  let method : Method :=
    { access := "public"
      returnType := "void"
      name := "Run"
      preamble := { comments := [comment] } }
  let struct : Struct :=
    { name := "Point"
      fields :=
        [{ name := "x"
           type := { kind := .primitive, name := some "int32" }
           doc := some "Across." }]
      doc := some "One.\r\nTwo."
      encodings := .both }
  have hunbroken : ∀ tag ∈ [comment], tag.HasUnbrokenTag :=
    List.forall_mem_singleton.mpr (hasUnbrokenTag_summary _)
  have hname : ∀ field ∈ struct.fields, IsUnbroken (parameterName field.name) := by
    have hx : IsUnbroken (parameterName "x") := by decide +kernel
    exact List.forall_mem_singleton.mpr hx
  have hlines : ∀ tag ∈ docComments struct,
        ∀ line ∈ continuations tag.content, isCommentLine line = true := by
    decide +kernel
  obtain ⟨htag, hbuilders, hstruct⟩ :=
    comments_stay_iff_continuations comment method.preamble "Demo" struct
  have hwell : ∀ field ∈ struct.fields, field.type.WellFormed := by
    have hnumber : TypeRef.WellFormed { kind := .primitive, name := some "int32" } :=
      .primitive .int32 false none none none
    exact List.forall_mem_singleton.mpr hnumber
  obtain ⟨block, hblock⟩ := exists_structDeclaration "Demo" hwell
  obtain ⟨bare, hbare, -, hadded⟩ := hstruct (hasUnbrokenTag_docComments hname) block hblock
  refine ⟨comment, method, struct, bare, block, rfl, rfl, rfl, rfl, hblock, hbare, ?_, ?_,
    hadded.mpr hlines⟩
  · exact (htag (hunbroken comment List.mem_cons_self)).mpr (by decide +kernel)
  · exact ((hbuilders (List.cons_ne_nil _ _) hunbroken).1 method rfl).trans (by decide +kernel)

/-- Behind a single carriage return a line of documentation is no comment any more. -/
theorem not_opensComment_return :
    ¬∀ comment : CommentTag, comment.HasUnbrokenTag →
      ∀ line ∈ sourceLines comment.text, opensComment line = true := by
  intro h
  have hlines : ¬∀ line ∈ sourceLines (summary "One.\rTwo.").text, opensComment line = true := by
    decide +kernel
  exact hlines (h _ (hasUnbrokenTag_summary _))

end SliceRecords.Code
