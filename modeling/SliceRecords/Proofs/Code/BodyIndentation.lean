import SliceRecords.Proofs.Code.Declarations
import SliceRecords.Proofs.Code.Nesting
import SliceRecords.Proofs.Code.OneLine

/-!
# Indentation of bodies

The code of an instruction is nested: a statement stands on one line that is not indented, the
statement under a condition is indented between braces of its own, and the arm of a dispatch is a
block of nested code one level further in. The bodies of both directions are therefore nested, as
long as the names in the fields stand on one line each. Main statement: `isNested_structBody`.
-/

namespace SliceRecords

/-- A field of a well-formed type, with names that stand on one line each. -/
structure Field.HasOneLineNames (field : Field) : Prop where
  name : Text.IsOneLine field.name
  wellFormed : field.type.WellFormed
  userNames : ∀ name ∈ field.type.userNames, Text.IsOneLine name

/-- The required form of a type has the same names, so they are on one line too. -/
theorem Field.HasOneLineNames.required {field : Field} (h : field.HasOneLineNames) :
    ∀ name ∈ field.type.asRequired.userNames, Text.IsOneLine name := by
  rw [TypeRef.userNames_asRequired]
  exact h.userNames

/-- An instruction of which all fields have a property. -/
inductive Instruction.OnFields (P : Field → Prop) : Instruction → Prop where
  | untagged {direction : Direction} {form : FieldForm} {field : Field} : P field →
    OnFields P (.untagged direction form field)
  | tagged {direction : Direction} {field : Field} {encoding : Encoding} {format : Option TagFormat}
    {size : Option Number} : P field → OnFields P (.tagged direction field encoding format size)
  | bitSequence {direction : Direction} {size : Number} : OnFields P (.bitSequence direction size)
  | skipTagged : OnFields P .skipTagged
  | tagEndMarker : OnFields P .tagEndMarker
  | guarded {direction : Direction} {block : Block} : (∀ inner ∈ block, OnFields P inner) →
    OnFields P (.guarded direction block)
  | branch {direction : Direction} {slice1 slice2 : Block} : (∀ inner ∈ slice1, OnFields P inner) →
    (∀ inner ∈ slice2, OnFields P inner) → OnFields P (.branch direction slice1 slice2)

/-- The instructions of a body are on the fields of the struct. -/
theorem Dispatch.onFields_of_body {P : Field → Prop} {struct : Struct}
    (h : ∀ field ∈ struct.fields, P field) {direction : Direction} {block : Block}
    (hblock : body struct direction = .ok block) :
    ∀ instruction ∈ block, instruction.OnFields P := by
  have hsynthesized (encoding : Encoding) :
      ∀ i ∈ Layout.synthesize struct.fields encoding direction, i.OnFields P := by
    apply Layout.forall_mem_synthesize
    · exact fun _ => .bitSequence
    · exact fun field hfield _ => .untagged (h field hfield)
    · exact fun field hfield _ _ _ => .tagged (h field hfield)
  exact forall_mem_body hsynthesized .guarded .branch .skipTagged .tagEndMarker hblock

namespace Code

open Text

variable {namespaceName : String} {field : Field}

/-- Pieces that are statements begin with a visible character that is no brace. -/
theorem AreStatements.startsPlainly {line : String} {rest : List String}
    (h : AreStatements (line :: rest)) : startsPlainly line = true := by
  obtain ⟨opening, hopening, hbounded⟩ := h
  obtain ⟨piece, hpiece, tail, htail⟩ := hbounded.first
  cases hpiece
  have hall : ∀ text ∈ statementOpenings, Code.startsPlainly text = true := by decide +kernel
  have hstart := startsPlainly_append (hall opening hopening) (String.ofList tail)
  have hline : opening ++ String.ofList tail = line := by
    rw [← String.toList_inj, String.toList_append, String.toList_ofList, htail]
  rwa [hline] at hstart

/-- A statement on one line is nested. -/
theorem AreStatements.isNested {line : String} (h : AreStatements [line]) (hline : IsOneLine line) :
    IsNested (Block.cleanLines [line]) :=
  isNested_cleanLines_line h.startsPlainly hline

/-- A statement under a condition is nested: it is indented between braces of its own. -/
theorem isNested_conditional {condition statement : String}
    (hcondition : startsPlainly condition = true) (hconditionLine : IsOneLine condition)
    (hstatement : startsPlainly statement = true) (hstatementLine : IsOneLine statement) :
    IsNested (Block.cleanLines [condition, "\x7b", Block.indentation ++ statement, "\x7d"]) := by
  have hinner : Block.cleanLines [Block.indentation ++ statement] =
      (Block.cleanLines [statement]).map Block.indentLine := by
    obtain ⟨c, rest, hlist, hvisible, _⟩ := startsPlainly_iff.mp hstatement
    have hblank := not_isBlankText_of_startsPlainly (startsPlainly_trimEnd hstatement)
    rw [Block.cleanLines, Block.cleanLines, List.flatMap_singleton, List.flatMap_singleton,
      lines_of_notMem (IsOneLine.append (by decide) hstatementLine), lines_of_notMem hstatementLine,
      List.map_singleton, List.map_singleton, List.map_singleton, trimEnd_append hlist hvisible,
      Block.indentLine, if_neg hblank]
  rw [Block.cleanLines_cons, cleanLines_between hinner]
  exact (isNested_cleanLines_line hcondition hconditionLine).append
    (isNested_cleanLines_line hstatement hstatementLine).armLines

/-- A statement that runs if a member has a value is nested. -/
theorem isNested_presence (h : IsOneLine field.name) {statement : String}
    (hstatement : startsPlainly statement = true) (hline : IsOneLine statement) :
    IsNested (Block.cleanLines
      [s!"if ({member field} != null)", "\x7b", Block.indentation ++ statement, "\x7d"]) := by
  apply isNested_conditional
  · exact (areStatements_presence field statement).startsPlainly
  · exact (isOneLine_member h).enclosed (by decide) (by decide)
  · exact hstatement
  · exact hline

/-- The value of a member begins with the receiver, wrapped or not. -/
theorem isPrefix_unwrapped (field : Field) : "this.".toList <+: (unwrapped field).toList := by
  unfold unwrapped
  split
  · exact isPrefix_append (isPrefix_member field) _
  · exact isPrefix_member field

/-- The text that encodes a field which may be null stands on one line. -/
theorem isOneLine_encodeNullable (hfield : field.HasOneLineNames) {text : String}
    (h : encodeNullable namespaceName field = .ok text) : IsOneLine text := by
  have hmember := isOneLine_member hfield.name
  unfold encodeNullable at h
  split at h
  · cases h
    exact hmember.enclosed (by decide) (by decide)
  · cases h
    exact hmember.enclosed (by decide) (by decide)
  · simp only [Result.bind_eq_ok_iff, Result.pure_eq_ok_iff] at h
    obtain ⟨expression, hexpression, rfl⟩ := h
    refine (isOneLine_encodeExpression hfield.wellFormed.asRequired hfield.required ?_
      hexpression).append (by decide)
    split
    · exact hmember.append (by decide)
    · exact hmember.append (by decide)

/-- A statement that assigns to a member stands on one line if what is assigned does. -/
theorem isOneLine_assignment (h : IsOneLine field.name) {value : String}
    (hvalue : IsOneLine value) : IsOneLine (member field ++ " = " ++ value ++ ";") :=
  (((isOneLine_member h).append (by decide)).append hvalue).append (by decide)

/-- Decoding a field that may be null is one line of code. -/
theorem isOneLine_decodeNullable (hfield : field.HasOneLineNames) {text : String}
    (h : decodeNullable namespaceName field = .ok text) : IsOneLine text := by
  have hreference {typeName middle : String} (htype : IsOneLine typeName)
      (hmiddle : IsOneLine middle) :
      IsOneLine (member field ++ middle ++ typeName ++ ">();") :=
    (((isOneLine_member hfield.name).append hmiddle).append htype).append (by decide)
  unfold decodeNullable at h
  dsimp only at h
  split at h
  · simp only [Result.bind_eq_ok_iff, Result.pure_eq_ok_iff] at h
    obtain ⟨typeName, htype, rfl⟩ := h
    exact hreference (isOneLine_typeText hfield.wellFormed.asRequired hfield.required htype)
      (by decide)
  · simp only [Result.bind_eq_ok_iff, Result.pure_eq_ok_iff] at h
    obtain ⟨typeName, htype, rfl⟩ := h
    exact hreference (isOneLine_typeText hfield.wellFormed.asRequired hfield.required htype)
      (by decide)
  · simp only [Result.bind_eq_ok_iff, Result.pure_eq_ok_iff] at h
    obtain ⟨expression, hexpression, rfl⟩ := h
    exact isOneLine_assignment hfield.name
      (isOneLine_decodeExpression hfield.wellFormed.asRequired hfield.required hexpression)

/-- The pieces for a field without a tag are nested. -/
theorem isNested_untaggedPieces (hfield : field.HasOneLineNames) {direction : Direction}
    {form : FieldForm} {pieces : List String}
    (h : untaggedPieces namespaceName direction form field = .ok pieces) :
    IsNested (Block.cleanLines pieces) := by
  have hstatements := areStatements_untaggedPieces h
  have hmember := isOneLine_member hfield.name
  have hrequired := hfield.wellFormed.asRequired
  cases form with
  | plain =>
    cases direction with
    | encode =>
      simp only [untaggedPieces, Result.bind_eq_ok_iff, Result.pure_eq_ok_iff] at h
      obtain ⟨expression, hexpression, rfl⟩ := h
      have hline :=
        isOneLine_encodeExpression hfield.wellFormed hfield.userNames hmember hexpression
      exact hstatements.isNested (hline.append (by decide))
    | decode =>
      simp only [untaggedPieces, Result.bind_eq_ok_iff, Result.pure_eq_ok_iff] at h
      obtain ⟨expression, hexpression, rfl⟩ := h
      have hline := isOneLine_decodeExpression hfield.wellFormed hfield.userNames hexpression
      exact hstatements.isNested (isOneLine_assignment hfield.name hline)
  | nullable =>
    cases direction with
    | encode =>
      simp only [untaggedPieces, Result.bind_eq_ok_iff, Result.pure_eq_ok_iff] at h
      obtain ⟨text, htext, rfl⟩ := h
      exact hstatements.isNested (isOneLine_encodeNullable hfield htext)
    | decode =>
      simp only [untaggedPieces, Result.bind_eq_ok_iff, Result.pure_eq_ok_iff] at h
      obtain ⟨text, htext, rfl⟩ := h
      exact hstatements.isNested (isOneLine_decodeNullable hfield htext)
  | bitSequence =>
    cases direction with
    | encode =>
      simp only [untaggedPieces, Result.bind_eq_ok_iff, Result.pure_eq_ok_iff] at h
      obtain ⟨expression, hexpression, rfl⟩ := h
      have hline := isOneLine_encodeExpression hrequired hfield.required
        (isOneLine_unwrapped hfield.name) hexpression
      have hwrite : IsOneLine s!"bitSequenceWriter.Write({member field} != null);" :=
        hmember.enclosed (by decide) (by decide)
      have hvalue :=
        (areStatements_encodeExpression (isPrefix_unwrapped field) hexpression).startsPlainly
      have hpiece : s!"    {expression};" = Block.indentation ++ (expression ++ ";") := by
        rw [← String.append_assoc]
        rfl
      rw [Block.cleanLines_cons, hpiece]
      exact (isNested_cleanLines_line hstatements.startsPlainly hwrite).append
        (isNested_presence hfield.name hvalue (hline.append (by decide)))
    | decode =>
      simp only [untaggedPieces, Result.bind_eq_ok_iff, Result.pure_eq_ok_iff] at h
      obtain ⟨expression, hexpression, rfl⟩ := h
      have hline := isOneLine_decodeExpression hrequired hfield.required hexpression
      exact hstatements.isNested (((hmember.append (by decide)).append hline).append (by decide))

/-- The argument for a tag format is on one line. -/
theorem isOneLine_tagFormat (format : TagFormat) : IsOneLine s!"TagFormat.{format.name}, " := by
  cases format <;> decide

/-- The statements that encode a tagged field in a frame are nested. -/
theorem isNested_taggedStatements (h : IsOneLine field.name) {frame action : String}
    (hframe : IsOneLine frame) (haction : IsOneLine action) :
    IsNested (Block.cleanLines [s!"if ({member field} != null)", "\x7b",
      s!"    encoder.EncodeTagged({tagText field}, {frame}{unwrapped field}, {action});",
      "\x7d"]) := by
  have htag : IsOneLine ("encoder.EncodeTagged(" ++ tagText field ++ ", ") :=
    (isOneLine_tagText field).enclosed (by decide) (by decide)
  have hvalue := (htag.append hframe).append (isOneLine_unwrapped h)
  have hline :=
    ((hvalue.append (b := ", ") (by decide)).append haction).append (b := ");") (by decide)
  have hstart : startsPlainly ("encoder.EncodeTagged(" ++ tagText field ++ ", " ++ frame ++
      unwrapped field ++ ", " ++ action ++ ");") = true := by
    simp only [String.append_assoc]
    exact startsPlainly_append (by decide) _
  have hpiece : s!"    encoder.EncodeTagged({tagText field}, {frame}{unwrapped field}, {action});" =
      Block.indentation ++ ("encoder.EncodeTagged(" ++ tagText field ++ ", " ++ frame ++
        unwrapped field ++ ", " ++ action ++ ");") := by
    have hopening : "    encoder.EncodeTagged(" = Block.indentation ++ "encoder.EncodeTagged(" :=
      rfl
    change "    encoder.EncodeTagged(" ++ tagText field ++ ", " ++ frame ++ unwrapped field ++
      ", " ++ action ++ ");" = _
    rw [hopening]
    simp only [String.append_assoc]
  rw [hpiece]
  exact isNested_presence h hstart hline

/-- The pieces that encode a tagged field are nested. -/
theorem isNested_encodeTagged (hfield : field.HasOneLineNames) {encoding : Encoding}
    {format : Option TagFormat} {size : Option Number} {pieces : List String}
    (h : encodeTagged namespaceName field encoding format size = .ok pieces) :
    IsNested (Block.cleanLines pieces) := by
  simp only [encodeTagged, Result.bind_eq_ok_iff] at h
  obtain ⟨action, haction, h⟩ := h
  have hactionLine := isOneLine_encodeAction hfield.wellFormed.asRequired hfield.required haction
  have hnested {frame : String} (hframe : IsOneLine frame) :=
    isNested_taggedStatements hfield.name hframe hactionLine
  split at h
  · simp only [Result.bind_eq_ok_iff, Result.pure_eq_ok_iff, Except.ok.injEq, exists_eq_left'] at h
    subst h
    exact hnested (isOneLine_tagFormat _)
  · simp at h
  · simp only [Result.bind_eq_ok_iff, Result.pure_eq_ok_iff, Except.ok.injEq, exists_eq_left'] at h
    subst h
    exact hnested ((isOneLine_numberText _).enclosed (by decide) (by decide))
  · simp only [Result.bind_eq_ok_iff, Result.pure_eq_ok_iff, Except.ok.injEq, exists_eq_left'] at h
    subst h
    exact hnested (by decide)

/-- Decoding a tagged field is one line of code. -/
theorem isOneLine_decodeTagged (hfield : field.HasOneLineNames) {encoding : Encoding}
    {format : Option TagFormat} {text : String}
    (h : decodeTagged namespaceName field encoding format = .ok text) : IsOneLine text := by
  have hcall : IsOneLine (member field ++ " = decoder.DecodeTagged(" ++ tagText field) :=
    ((isOneLine_member hfield.name).append (by decide)).append (isOneLine_tagText field)
  simp only [decodeTagged, Result.bind_eq_ok_iff] at h
  obtain ⟨function, hfunction, h⟩ := h
  have hline := isOneLine_decodeFunction hfield.wellFormed hfield.userNames hfunction
  split at h
  · rename_i format
    rw [Result.pure_eq_ok_iff] at h
    subst h
    have hformat : IsOneLine format.name := by
      cases format <;> decide
    have hframe := (hcall.append (b := ", TagFormat.") (by decide)).append hformat
    exact (hframe.append (by decide)).append (hline.append (by decide))
  · cases h
  · rw [Result.pure_eq_ok_iff] at h
    subst h
    have harguments := (hcall.append (b := ", ") (by decide)).append hline
    exact (harguments.append (b := ", ") (by decide)).append (by decide)

/-- The pieces of a block are nested if those of its instructions are. -/
theorem isNested_blockPieces_of_forall {block : List Instruction}
    (hblock : ∀ instruction ∈ block, ∀ {pieces : List String},
      instructionPieces namespaceName instruction = .ok pieces → IsNested (Block.cleanLines pieces))
    {pieces : List String} (h : blockPieces namespaceName block = .ok pieces) :
    IsNested (Block.cleanLines pieces) := by
  induction block generalizing pieces with
  | nil =>
    cases h
    exact isNested_nil
  | cons instruction rest ih =>
    simp only [blockPieces, Result.bind_eq_ok_iff, Result.pure_eq_ok_iff] at h
    obtain ⟨first, hfirst, others, hothers, rfl⟩ := h
    rw [Block.cleanLines_append]
    exact (hblock instruction List.mem_cons_self hfirst).append
      (ih (fun i hi => hblock i (List.mem_cons_of_mem instruction hi)) hothers)

/-- An arm is nested under its condition if its pieces are nested. -/
theorem isNested_arm {condition : String} (hcondition : startsPlainly condition = true)
    (hline : IsOneLine condition) {pieces : List String} (h : IsNested (Block.cleanLines pieces)) :
    IsNested
      (Block.cleanLines [condition, "\x7b", (Block.ofLines pieces).indent.text, "\x7d"]) := by
  rw [Block.cleanLines_cons]
  exact (isNested_cleanLines_line hcondition hline).append (isNested_lines_text_ofLines h).braces

/-- The pieces of an instruction are nested. -/
theorem isNested_instructionPieces {instruction : Instruction}
    (hfields : instruction.OnFields Field.HasOneLineNames) {pieces : List String}
    (h : instructionPieces namespaceName instruction = .ok pieces) :
    IsNested (Block.cleanLines pieces) := by
  induction hfields generalizing pieces with
  | untagged hfield =>
    rw [instructionPieces] at h
    exact isNested_untaggedPieces hfield h
  | @tagged direction field encoding format size hfield =>
    cases direction with
    | encode =>
      rw [instructionPieces] at h
      exact isNested_encodeTagged hfield h
    | decode =>
      simp only [instructionPieces, Result.bind_eq_ok_iff, Result.pure_eq_ok_iff] at h
      obtain ⟨text, htext, rfl⟩ := h
      exact (areStatements_decodeTagged htext).isNested (isOneLine_decodeTagged hfield htext)
  | @bitSequence direction size =>
    have hstatements := areStatements_instructionPieces rfl h
    cases direction with
    | encode =>
      cases h
      exact hstatements.isNested ((isOneLine_numberText size).enclosed (by decide) (by decide))
    | decode =>
      cases h
      exact hstatements.isNested ((isOneLine_numberText size).enclosed (by decide) (by decide))
  | skipTagged =>
    cases h
    exact isNested_cleanLines_line (by decide) (by decide +kernel)
  | tagEndMarker =>
    cases h
    exact isNested_cleanLines_line (by decide) (by decide +kernel)
  | @guarded direction block _ ih =>
    simp only [instructionPieces, Result.bind_eq_ok_iff, Result.pure_eq_ok_iff] at h
    obtain ⟨inner, hinner, rfl⟩ := h
    have hguard : startsPlainly (guardLine direction) = true ∧ IsOneLine (guardLine direction) := by
      cases direction <;> exact ⟨by decide +kernel, by decide +kernel⟩
    exact isNested_arm hguard.1 hguard.2 (isNested_blockPieces_of_forall ih hinner)
  | @branch direction slice1 slice2 _ _ ih₁ ih₂ =>
    simp only [instructionPieces, Result.bind_eq_ok_iff, Result.pure_eq_ok_iff] at h
    obtain ⟨older, holder, newer, hnewer, rfl⟩ := h
    have hbranch : startsPlainly (branchLine direction) = true ∧
        IsOneLine (branchLine direction) := by
      cases direction <;> exact ⟨by decide +kernel, by decide +kernel⟩
    have helse : startsPlainly "else // Slice2" = true ∧ IsOneLine "else // Slice2" :=
      ⟨by decide +kernel, by decide +kernel⟩
    have hfirst := isNested_arm hbranch.1 hbranch.2 (isNested_blockPieces_of_forall ih₁ holder)
    have hsecond := isNested_arm helse.1 helse.2 (isNested_blockPieces_of_forall ih₂ hnewer)
    have happend := hfirst.append hsecond
    rwa [← Block.cleanLines_append] at happend

/-- The body of a struct in a direction is nested. -/
theorem isNested_structBody {struct : Struct} (h : ∀ field ∈ struct.fields, field.HasOneLineNames)
    {direction : Direction} {code : Block}
    (hcode : structBody namespaceName struct direction = .ok code) :
    IsNested (lines code.text) := by
  simp only [structBody, renderBlock, Result.bind_eq_ok_iff, Result.mapError_eq_ok_iff,
    Result.pure_eq_ok_iff] at hcode
  obtain ⟨block, hbody, pieces, hpieces, rfl⟩ := hcode
  exact isNested_lines_text_ofLines (isNested_blockPieces_of_forall
    (fun i hi => isNested_instructionPieces (Dispatch.onFields_of_body h hbody i hi)) hpieces)

end Code

end SliceRecords
