import SliceRecords.Code.Body
import SliceRecords.Proofs.Dispatch.Selection
import SliceRecords.Proofs.Result

/-!
# Code for sound instructions

An instruction has code if the types of its fields are well-formed at every depth and a tagged field
has a tag format under the older encoding. The instructions of a struct are of that kind if the
types of its fields are well-formed. Main statements: `exists_renderBlock` and
`renderable_of_generate`.
-/

namespace SliceRecords

/-- A type keeps what its kind needs without its optional mark. -/
theorem TypeRef.WellFormed.asRequired {type : TypeRef} (h : type.WellFormed) :
    type.asRequired.WellFormed := by
  cases h with
  | primitive keyword optional element key value => exact .primitive keyword false element key value
  | sequence name optional element key value helement =>
    exact .sequence name false element key value helement
  | dictionary name optional element key value hkey hvalue =>
    exact .dictionary name false element key value hkey hvalue
  | named kind name optional element key value h₁ h₂ h₃ =>
    exact .named kind name false element key value h₁ h₂ h₃

namespace Instruction

/-- An instruction that has code. -/
inductive Renderable : Instruction → Prop where
  | untagged {direction : Direction} {form : FieldForm} {field : Field} : field.type.WellFormed →
    Renderable (.untagged direction form field)
  | tagged {direction : Direction} {field : Field} {encoding : Encoding}
    {format : Option TagFormat} {size : Option Number} : field.type.WellFormed →
    (encoding = .slice1 → format.isSome = true) →
    Renderable (.tagged direction field encoding format size)
  | bitSequence {direction : Direction} {size : Number} : Renderable (.bitSequence direction size)
  | skipTagged : Renderable .skipTagged
  | tagEndMarker : Renderable .tagEndMarker
  | guarded {direction : Direction} {block : Block} : (∀ inner ∈ block, Renderable inner) →
    Renderable (.guarded direction block)
  | branch {direction : Direction} {slice1 slice2 : Block} : (∀ inner ∈ slice1, Renderable inner) →
    (∀ inner ∈ slice2, Renderable inner) → Renderable (.branch direction slice1 slice2)

end Instruction

namespace Code

variable (namespaceName : String)

/-- A value of a well-formed type can be encoded. -/
theorem exists_encodeExpression {type : TypeRef} (h : type.WellFormed) (target : String) :
    ∃ text, encodeExpression namespaceName type target = .ok text := by
  induction h generalizing target with
  | primitive keyword optional element key value =>
    simp [encodeExpression, methodSuffix, primitiveOf, TypeRef.primitive?]
  | sequence name optional element key value helement ih =>
    obtain ⟨elementText, htext⟩ := typeText_of_wellFormed namespaceName helement.asRequired
    obtain ⟨expression, hexpression⟩ := ih "value"
    simp [encodeExpression, requirePart, encodePart, htext, hexpression]
  | dictionary name optional element key value hkey hvalue ihkey ihvalue =>
    obtain ⟨keyText, hkeyText⟩ := typeText_of_wellFormed namespaceName hkey
    obtain ⟨valueText, hvalueText⟩ := typeText_of_wellFormed namespaceName hvalue.asRequired
    obtain ⟨keyExpression, hkeyExpression⟩ := ihkey "value"
    obtain ⟨valueExpression, hvalueExpression⟩ := ihvalue "value"
    simp [encodeExpression, requirePart, partText, encodePart, hkeyText, hvalueText,
      hkeyExpression, hvalueExpression]
  | named kind name optional element key value h₁ h₂ h₃ =>
    cases kind <;> simp_all [encodeExpression, nameOf]

/-- The decoding lambda of a part has a text if the type and the expression of the part have one. -/
theorem exists_decodePart {part : TypeRef} (hpart : part.WellFormed)
    (h : ∃ text, decodeExpression namespaceName part = .ok text) :
    ∃ text, decodePart namespaceName (some part) = .ok text := by
  obtain ⟨expression, hexpression⟩ := h
  obtain ⟨text, htext⟩ := typeText_of_wellFormed namespaceName hpart
  cases hwide : part.optional && part.isValueType <;>
    simp [decodePart, hexpression, widen, hwide, htext]

/-- A value of a well-formed type can be decoded. -/
theorem exists_decodeExpression {type : TypeRef} (h : type.WellFormed) :
    ∃ text, decodeExpression namespaceName type = .ok text := by
  induction h with
  | primitive keyword optional element key value =>
    obtain ⟨text, htext⟩ := typeText_of_wellFormed namespaceName
      (TypeRef.WellFormed.primitive keyword optional element key value).asRequired
    simp [decodeExpression, htext, methodSuffix, primitiveOf, TypeRef.primitive?]
  | sequence name optional element key value helement ih =>
    obtain ⟨text, htext⟩ := typeText_of_wellFormed namespaceName
      (TypeRef.WellFormed.sequence name optional element key value helement).asRequired
    obtain ⟨function, hfunction⟩ := exists_decodePart namespaceName helement ih
    simp [decodeExpression, htext, requirePart, hfunction]
  | dictionary name optional element key value hkey hvalue ihkey ihvalue =>
    obtain ⟨text, htext⟩ := typeText_of_wellFormed namespaceName
      (TypeRef.WellFormed.dictionary name optional element key value hkey hvalue).asRequired
    obtain ⟨keyText, hkeyText⟩ := typeText_of_wellFormed namespaceName hkey
    obtain ⟨valueText, hvalueText⟩ := typeText_of_wellFormed namespaceName hvalue
    obtain ⟨keyFunction, hkeyFunction⟩ := exists_decodePart namespaceName hkey ihkey
    obtain ⟨valueFunction, hvalueFunction⟩ := exists_decodePart namespaceName hvalue ihvalue
    simp [decodeExpression, htext, requirePart, partText, hkeyText, hvalueText, hkeyFunction,
      hvalueFunction]
  | named kind name optional element key value h₁ h₂ h₃ =>
    obtain ⟨text, htext⟩ := typeText_of_wellFormed namespaceName
      (TypeRef.WellFormed.named kind name optional element key value h₁ h₂ h₃).asRequired
    cases kind <;> simp_all [decodeExpression, nameOf]

/-- The statements of a field without a tag exist in every form and direction. -/
theorem exists_untaggedPieces {field : Field} (h : field.type.WellFormed) (direction : Direction)
    (form : FieldForm) :
    ∃ pieces, untaggedPieces namespaceName direction form field = .ok pieces := by
  have hencode (type : TypeRef) (htype : type.WellFormed) (target : String) :=
    exists_encodeExpression namespaceName htype target
  obtain ⟨decoding, hdecoding⟩ := exists_decodeExpression namespaceName h
  obtain ⟨required, hrequired⟩ :=
    exists_decodeExpression namespaceName h.asRequired
  obtain ⟨text, htext⟩ := typeText_of_wellFormed namespaceName h.asRequired
  cases form with
  | plain =>
    obtain ⟨encoding, hencoding⟩ := hencode _ h (member field)
    cases direction <;> simp [untaggedPieces, hencoding, hdecoding]
  | nullable =>
    cases direction with
    | encode =>
      obtain ⟨value, hvalue⟩ := hencode _ h.asRequired s!"{member field}.Value"
      obtain ⟨forced, hforced⟩ := hencode _ h.asRequired s!"{member field}!"
      simp only [untaggedPieces, encodeNullable]
      split
      · simp
      · simp
      · cases field.type.isValueType <;> simp_all
    | decode =>
      simp only [untaggedPieces, decodeNullable]
      split <;> simp [htext, hrequired]
  | bitSequence =>
    obtain ⟨encoding, hencoding⟩ := hencode _ h.asRequired (unwrapped field)
    cases direction <;> simp [untaggedPieces, hencoding, hrequired]

/-- The statements of a tagged field exist if it has a tag format under the older encoding. -/
theorem exists_encodeTagged {field : Field} {encoding : Encoding} {format : Option TagFormat}
    (h : field.type.WellFormed) (hformat : encoding = .slice1 → format.isSome = true)
    (size : Option Number) :
    ∃ pieces, encodeTagged namespaceName field encoding format size = .ok pieces := by
  obtain ⟨text, htext⟩ := typeText_of_wellFormed namespaceName h.asRequired
  obtain ⟨expression, hexpression⟩ :=
    exists_encodeExpression namespaceName h.asRequired "value"
  cases encoding with
  | slice1 =>
    obtain ⟨known, rfl⟩ := Option.isSome_iff_exists.mp (hformat rfl)
    simp [encodeTagged, encodeAction, htext, hexpression]
  | slice2 => cases size <;> simp [encodeTagged, encodeAction, htext, hexpression]

/-- A tagged field of a well-formed type can be decoded if it has a tag format
where one is needed. -/
theorem exists_decodeTagged {field : Field} {encoding : Encoding} {format : Option TagFormat}
    (h : field.type.WellFormed) (hformat : encoding = .slice1 → format.isSome = true) :
    ∃ text, decodeTagged namespaceName field encoding format = .ok text := by
  obtain ⟨function, hfunction⟩ :=
    exists_decodePart namespaceName h (exists_decodeExpression namespaceName h)
  cases encoding with
  | slice1 =>
    obtain ⟨known, rfl⟩ := Option.isSome_iff_exists.mp (hformat rfl)
    simp [decodeTagged, decodeFunction, hfunction]
  | slice2 => simp [decodeTagged, decodeFunction, hfunction]

/-- The pieces of a block exist if those of its instructions do. -/
theorem exists_blockPieces_of_forall {block : List Instruction}
    (h :
      ∀ instruction ∈ block, ∃ pieces, instructionPieces namespaceName instruction = .ok pieces) :
    ∃ pieces, blockPieces namespaceName block = .ok pieces := by
  induction block with
  | nil => exact ⟨[], rfl⟩
  | cons instruction rest ih =>
    obtain ⟨first, hfirst⟩ := h instruction List.mem_cons_self
    obtain ⟨others, hothers⟩ := ih fun i hi => h i (List.mem_cons_of_mem instruction hi)
    simp [blockPieces, hfirst, hothers]

/-- An instruction that can be rendered has pieces. -/
theorem exists_instructionPieces {instruction : Instruction} (h : instruction.Renderable) :
    ∃ pieces, instructionPieces namespaceName instruction = .ok pieces := by
  induction h with
  | untagged htype =>
    rw [instructionPieces]
    exact exists_untaggedPieces namespaceName htype _ _
  | @tagged direction field encoding format size htype hformat =>
    cases direction with
    | encode =>
      rw [instructionPieces]
      exact exists_encodeTagged namespaceName htype hformat size
    | decode =>
      obtain ⟨text, htext⟩ := exists_decodeTagged namespaceName htype hformat
      simp [instructionPieces, htext]
  | @bitSequence direction size => cases direction <;> simp [instructionPieces]
  | skipTagged => simp [instructionPieces]
  | tagEndMarker => simp [instructionPieces]
  | guarded _ ih =>
    obtain ⟨pieces, hpieces⟩ := exists_blockPieces_of_forall namespaceName ih
    simp [instructionPieces, hpieces]
  | branch _ _ ih₁ ih₂ =>
    obtain ⟨older, holder⟩ := exists_blockPieces_of_forall namespaceName ih₁
    obtain ⟨newer, hnewer⟩ := exists_blockPieces_of_forall namespaceName ih₂
    simp [instructionPieces, holder, hnewer]

/-- A block of instructions that have code has code. -/
theorem exists_renderBlock {block : SliceRecords.Block}
    (h : ∀ instruction ∈ block, instruction.Renderable) :
    ∃ code, renderBlock namespaceName block = .ok code := by
  obtain ⟨pieces, hpieces⟩ := exists_blockPieces_of_forall namespaceName
    fun i hi => exists_instructionPieces namespaceName (h i hi)
  simp [renderBlock, hpieces]

end Code

/-- The instructions of fields with well-formed types have code. -/
theorem Layout.renderable_of_synthesize {fields : List Field}
    (h : ∀ field ∈ fields, field.type.WellFormed) (encoding : Encoding) {direction : Direction} :
    ∀ instruction ∈ synthesize fields encoding direction, instruction.Renderable := by
  apply forall_mem_synthesize
  · exact fun _ => .bitSequence
  · exact fun field hfield _ => .untagged (h field hfield)
  · exact fun field hfield _ _ hformat => .tagged (h field hfield) hformat

namespace Dispatch

/-- The block that is generated for fields with well-formed types has code. -/
theorem renderable_of_generate {fields : List Field} (h : ∀ field ∈ fields, field.type.WellFormed)
    {encodings : SupportedEncodings} {direction : Direction} {block : Block}
    (hblock : generate fields encodings.toList direction = .ok block) :
    ∀ instruction ∈ block, instruction.Renderable :=
  forall_mem_generate (fun encoding => Layout.renderable_of_synthesize h encoding) .guarded .branch
    hblock

end Dispatch

end SliceRecords
