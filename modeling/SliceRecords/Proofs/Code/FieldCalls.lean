import SliceRecords.Proofs.Code.Codecs

/-!
# Statements for fields call the same methods

The statements for a field call the methods of its type, with a word of their own in front where the
field is tagged. Whether they encode or decode makes no difference, nor does the form of the field,
except that classes and proxies which may be null have methods of their own.
-/

namespace SliceRecords

/-- The methods that code a value which may be null. -/
def TypeRef.nullableCodecs (type : TypeRef) : List String :=
  match type.kind with
  | .classType => ["NullableClass"]
  | .proxy => ["NullableProxy"]
  | _ => type.codecs

/-- Only classes and proxies have methods of their own for null. -/
theorem TypeRef.nullableCodecs_of_ne {type : TypeRef} (hclass : type.kind ≠ .classType)
    (hproxy : type.kind ≠ .proxy) : type.nullableCodecs = type.codecs := by
  unfold nullableCodecs
  split
  · exact absurd ‹_› hclass
  · exact absurd ‹_› hproxy
  · rfl

namespace Instruction

mutual

/-- The methods that the statements of an instruction call, in order. -/
def codecs : Instruction → List String
  | untagged _ .nullable field => field.type.nullableCodecs
  | untagged _ _ field => field.type.codecs
  | tagged _ field _ _ _ => "Tagged" :: field.type.codecs
  | guarded _ block => blockCodecs block
  | branch _ slice1 slice2 => blockCodecs slice1 ++ blockCodecs slice2
  | _ => []

/-- The methods that the statements of a block call, in order. -/
def blockCodecs : List Instruction → List String
  | [] => []
  | instruction :: rest => codecs instruction ++ blockCodecs rest

end

end Instruction

namespace Code

open Text

variable {namespaceName : String} {field : Field}

/-- Encoding a field that may be null calls the methods for its type, in order. -/
theorem callees_encodeNullable (hwell : field.type.WellFormed) (hnames : field.type.HasPlainNames)
    {text : String} (h : encodeNullable namespaceName field = .ok text) :
    callees .encode text = field.type.nullableCodecs := by
  unfold encodeNullable at h
  split at h
  · rename_i hkind
    cases h
    rw [TypeRef.nullableCodecs, hkind]
    change callees .encode ("encoder.EncodeNullableClass(" ++ member field ++ ");") = _
    rw [callees_call_enclosed "NullableClass" (by decide) (by decide), callees_member]
  · rename_i hkind
    cases h
    rw [TypeRef.nullableCodecs, hkind]
    change callees .encode ("encoder.EncodeNullableProxy(" ++ member field ++ ");") = _
    rw [callees_call_enclosed "NullableProxy" (by decide) (by decide), callees_member]
  · rename_i hclass hproxy
    simp only [Result.bind_eq_ok_iff, Result.pure_eq_ok_iff] at h
    obtain ⟨expression, hexpression, rfl⟩ := h
    have htarget : callees .encode
        (if field.type.isValueType then member field ++ ".Value" else member field ++ "!") =
        [] := by
      split
      · exact callees_member_value field
      · rw [callees_append_closing (by decide), callees_member]
    change callees .encode (expression ++ ";") = _
    rw [callees_append_closing (by decide),
      callees_encodeExpression hwell.asRequired hnames.asRequired htarget hexpression,
      TypeRef.codecs_asRequired, TypeRef.nullableCodecs_of_ne hclass hproxy]

/-- An assignment to a member makes the calls of what is assigned. -/
theorem callees_assignment (expression : String) :
    callees .decode (member field ++ " = " ++ expression ++ ";") = callees .decode expression := by
  rw [callees_append_closing (by decide), callees_append_gap_append (by decide), callees_member]
  rfl

/-- An assignment of a decoded reference makes one call, with the type of the
reference as its argument. -/
theorem callees_decodedReference {middle typeName : String} (name : String)
    (htype : callees .decode typeName = [])
    (hstarts : startsApart middle.toList = true) (hopening : opensCall .decode name middle = true) :
    callees .decode (member field ++ middle ++ typeName ++ ">();") = [name] := by
  rw [callees_append_closing (by decide), callees_append_call_append name hstarts hopening,
    callees_member, htype]
  rfl

/-- Decoding a field that may be null calls the methods for its type, in order. -/
theorem callees_decodeNullable (hwell : field.type.WellFormed) (hnames : field.type.HasPlainNames)
    {text : String} (h : decodeNullable namespaceName field = .ok text) :
    callees .decode text = field.type.nullableCodecs := by
  have hquiet {typeName : String}
      (h : typeText namespaceName field.type.asRequired = .ok typeName) :
      callees .decode typeName = [] := callees_typeText hwell.asRequired hnames.asRequired h
  unfold decodeNullable at h
  dsimp only at h
  split at h
  · rename_i hkind
    have hclass : field.type.kind = .classType := hkind
    simp only [Result.bind_eq_ok_iff, Result.pure_eq_ok_iff] at h
    obtain ⟨typeName, htype, rfl⟩ := h
    rw [TypeRef.nullableCodecs, hclass]
    change callees .decode
      (member field ++ " = decoder.DecodeNullableClass<" ++ typeName ++ ">();") = _
    exact callees_decodedReference "NullableClass" (hquiet htype) (by decide) (by decide)
  · rename_i hkind
    have hproxy : field.type.kind = .proxy := hkind
    simp only [Result.bind_eq_ok_iff, Result.pure_eq_ok_iff] at h
    obtain ⟨typeName, htype, rfl⟩ := h
    rw [TypeRef.nullableCodecs, hproxy]
    change callees .decode
      (member field ++ " = decoder.DecodeNullableProxy<" ++ typeName ++ ">();") = _
    exact callees_decodedReference "NullableProxy" (hquiet htype) (by decide) (by decide)
  · rename_i hother hother'
    have hclass : field.type.kind ≠ .classType := hother
    have hproxy : field.type.kind ≠ .proxy := hother'
    simp only [Result.bind_eq_ok_iff, Result.pure_eq_ok_iff] at h
    obtain ⟨expression, hexpression, rfl⟩ := h
    change callees .decode (member field ++ " = " ++ expression ++ ";") = _
    rw [callees_assignment, callees_decodeExpression hwell.asRequired hnames.asRequired hexpression,
      TypeRef.codecs_asRequired, TypeRef.nullableCodecs_of_ne hclass hproxy]

/-- A condition on the presence of a value makes no calls. -/
theorem callees_presence : callees .encode s!"if ({member field} != null)" = [] := by
  change callees .encode ("if (" ++ member field ++ " != null)") = []
  rw [callees_enclosed (by decide) (by decide), callees_member]

/-- Braces make no calls. -/
theorem callees_braces {direction : Direction} :
    callees direction "\x7b" = [] ∧ callees direction "\x7d" = [] :=
  ⟨callees_eq_nil_of_dot_notMem (by decide), callees_eq_nil_of_dot_notMem (by decide)⟩

/-- The statements that encode a field without a tag call the methods of its type. -/
theorem callees_encodeUntagged (hwell : field.type.WellFormed) (hnames : field.type.HasPlainNames)
    {form : FieldForm} {pieces : List String}
    (h : untaggedPieces namespaceName .encode form field = .ok pieces) :
    pieces.flatMap (callees .encode) = (Instruction.untagged .encode form field).codecs := by
  cases form with
  | plain =>
    simp only [untaggedPieces, Result.bind_eq_ok_iff, Result.pure_eq_ok_iff] at h
    obtain ⟨expression, hexpression, rfl⟩ := h
    rw [List.flatMap_singleton]
    change callees .encode (expression ++ ";") = _
    rw [callees_append_closing (by decide),
      callees_encodeExpression hwell hnames (callees_member field) hexpression]
    rfl
  | nullable =>
    simp only [untaggedPieces, Result.bind_eq_ok_iff, Result.pure_eq_ok_iff] at h
    obtain ⟨text, htext, rfl⟩ := h
    rw [List.flatMap_singleton, callees_encodeNullable hwell hnames htext]
    rfl
  | bitSequence =>
    simp only [untaggedPieces, Result.bind_eq_ok_iff, Result.pure_eq_ok_iff] at h
    obtain ⟨expression, hexpression, rfl⟩ := h
    have hwrite :
        callees .encode ("bitSequenceWriter.Write(" ++ member field ++ " != null);") = [] := by
      rw [callees_enclosed (by decide) (by decide), callees_member]
    have hstatement : callees .encode ("    " ++ expression ++ ";") = field.type.codecs := by
      rw [callees_enclosed (by decide) (by decide),
        callees_encodeExpression hwell.asRequired hnames.asRequired (callees_unwrapped field)
          hexpression,
        TypeRef.codecs_asRequired]
    simp only [List.flatMap_cons, List.flatMap_nil, callees_presence, callees_braces.1,
      callees_braces.2]
    change callees .encode ("bitSequenceWriter.Write(" ++ member field ++ " != null);") ++ _ = _
    rw [hwrite]
    change callees .encode ("    " ++ expression ++ ";") ++ [] = _
    rw [hstatement, List.append_nil]
    rfl

/-- The statement that decodes a field without a tag calls the methods of its type. -/
theorem callees_decodeUntagged (hwell : field.type.WellFormed) (hnames : field.type.HasPlainNames)
    {form : FieldForm} {pieces : List String}
    (h : untaggedPieces namespaceName .decode form field = .ok pieces) :
    pieces.flatMap (callees .decode) = (Instruction.untagged .decode form field).codecs := by
  cases form with
  | plain =>
    simp only [untaggedPieces, Result.bind_eq_ok_iff, Result.pure_eq_ok_iff] at h
    obtain ⟨expression, hexpression, rfl⟩ := h
    rw [List.flatMap_singleton]
    change callees .decode (member field ++ " = " ++ expression ++ ";") = _
    rw [callees_assignment, callees_decodeExpression hwell hnames hexpression]
    rfl
  | nullable =>
    simp only [untaggedPieces, Result.bind_eq_ok_iff, Result.pure_eq_ok_iff] at h
    obtain ⟨text, htext, rfl⟩ := h
    rw [List.flatMap_singleton, callees_decodeNullable hwell hnames htext]
    rfl
  | bitSequence =>
    simp only [untaggedPieces, Result.bind_eq_ok_iff, Result.pure_eq_ok_iff] at h
    obtain ⟨expression, hexpression, rfl⟩ := h
    rw [List.flatMap_singleton]
    change callees .decode
      (member field ++ " = bitSequenceReader.Read() ? " ++ expression ++ " : null;") = _
    rw [callees_append_closing (by decide), callees_append_gap_append (by decide), callees_member,
      callees_decodeExpression hwell.asRequired hnames.asRequired hexpression,
      TypeRef.codecs_asRequired]
    rfl

/-- The name of a tag format makes no calls. -/
theorem callees_tagFormat {direction : Direction} (format : TagFormat) :
    callees direction ("TagFormat." ++ format.name) = [] := by
  apply callees_eq_of_calls
  rw [String.toList_append]
  cases direction <;> cases format <;> decide

/-- The statements for a tagged field call the method for tagged values, and then
what its lambda calls. -/
theorem callees_taggedStatements {frame : String}
    (hframe : callees .encode (frame ++ unwrapped field) = []) (lambda : String) :
    ([s!"if ({member field} != null)", "\x7b",
      s!"    encoder.EncodeTagged({tagText field}, {frame}{unwrapped field}, {lambda});",
      "\x7d"]).flatMap (callees .encode) = "Tagged" :: callees .encode lambda := by
  have hstatement : callees .encode ("    encoder.EncodeTagged(" ++ tagText field ++ ", " ++
      (frame ++ unwrapped field) ++ ", " ++ lambda ++ ");") =
      "Tagged" :: callees .encode lambda := by
    rw [callees_append_closing (by decide), callees_append_gap_append (by decide),
      callees_append_gap_append (by decide), callees_opening_call "Tagged" (by decide),
      callees_tagText, hframe]
    rfl
  have hassoc : "    encoder.EncodeTagged(" ++ tagText field ++ ", " ++ (frame ++ unwrapped field) =
      "    encoder.EncodeTagged(" ++ tagText field ++ ", " ++ frame ++ unwrapped field :=
    String.append_assoc.symm
  rw [hassoc] at hstatement
  simp only [List.flatMap_cons, List.flatMap_nil, callees_presence, callees_braces.1,
    callees_braces.2, List.append_nil, List.nil_append]
  exact hstatement

/-- The statements that encode a tagged field call the method for tagged values, and
then those of its type. -/
theorem callees_encodeTagged (hwell : field.type.WellFormed) (hnames : field.type.HasPlainNames)
    {encoding : Encoding} {format : Option TagFormat} {size : Option Number} {pieces : List String}
    (h : encodeTagged namespaceName field encoding format size = .ok pieces) :
    pieces.flatMap (callees .encode) = "Tagged" :: field.type.codecs := by
  simp only [encodeTagged, Result.bind_eq_ok_iff] at h
  obtain ⟨action, haction, h⟩ := h
  have hcalls : callees .encode action = field.type.codecs := by
    rw [callees_encodeAction hwell.asRequired hnames.asRequired haction, TypeRef.codecs_asRequired]
  cases encoding with
  | slice1 =>
    cases format with
    | none => simp only [Result.bind_eq_ok_iff, reduceCtorEq, false_and, exists_false] at h
    | some known =>
      have hframe :
          callees .encode ("TagFormat." ++ known.name ++ ", " ++ unwrapped field) = [] := by
        rw [callees_append_gap_append (by decide), callees_tagFormat, callees_unwrapped]
        rfl
      simp only [Result.bind_eq_ok_iff, Result.pure_eq_ok_iff, Except.ok.injEq,
        exists_eq_left'] at h
      rw [← h, ← hcalls]
      exact callees_taggedStatements hframe action
  | slice2 =>
    cases size with
    | none =>
      have hframe : callees .encode ("" ++ unwrapped field) = [] := by
        rw [String.empty_append, callees_unwrapped]
      simp only [Result.bind_eq_ok_iff, Result.pure_eq_ok_iff, Except.ok.injEq,
        exists_eq_left'] at h
      rw [← h, ← hcalls]
      exact callees_taggedStatements hframe action
    | some size =>
      have hframe : callees .encode ("size: " ++ size.text ++ ", " ++ unwrapped field) = [] := by
        rw [callees_append_gap_append (by decide), callees_opening_append (by decide),
          callees_numberText, callees_unwrapped]
        rfl
      simp only [Result.bind_eq_ok_iff, Result.pure_eq_ok_iff, Except.ok.injEq,
        exists_eq_left'] at h
      rw [← h, ← hcalls]
      exact callees_taggedStatements hframe action

/-- The statement that decodes a tagged field calls the method for tagged values, and
then those of its type. -/
theorem callees_decodeTagged (hwell : field.type.WellFormed) (hnames : field.type.HasPlainNames)
    {encoding : Encoding} {format : Option TagFormat} {text : String}
    (h : decodeTagged namespaceName field encoding format = .ok text) :
    callees .decode text = "Tagged" :: field.type.codecs := by
  simp only [decodeTagged, Result.bind_eq_ok_iff] at h
  obtain ⟨function, hfunction, h⟩ := h
  have hcalls : callees .decode function = field.type.codecs :=
    callees_decodeFunction hwell hnames hfunction
  have hstart : callees .decode (member field ++ " = decoder.DecodeTagged(" ++ tagText field) =
      ["Tagged"] := by
    rw [callees_append_call_append "Tagged" (by decide) (by decide), callees_member,
      callees_tagText]
    rfl
  split at h
  · rename_i known
    rw [Result.pure_eq_ok_iff] at h
    subst h
    have hsplit (start : String) : start ++ ", TagFormat." ++ known.name =
        start ++ ", " ++ ("TagFormat." ++ known.name) := by
      have hliteral : ", TagFormat." = ", " ++ "TagFormat." := rfl
      simp only [hliteral, String.append_assoc]
    change callees .decode (member field ++ " = decoder.DecodeTagged(" ++ tagText field ++
      ", TagFormat." ++ known.name ++ ", " ++ (function ++ ", useTagEndMarker: false);")) = _
    rw [hsplit, callees_append_gap_append (by decide), callees_append_gap_append (by decide),
      hstart, callees_tagFormat, callees_append_closing (by decide), hcalls]
    rfl
  · cases h
  · rw [Result.pure_eq_ok_iff] at h
    subst h
    change callees .decode (member field ++ " = decoder.DecodeTagged(" ++ tagText field ++ ", " ++
      function ++ ", " ++ "useTagEndMarker: true);") = _
    rw [callees_append_gap_append (by decide), callees_append_gap_append (by decide), hstart,
      hcalls, callees_eq_nil_of_dot_notMem (by decide), List.append_nil]
    rfl

end Code

end SliceRecords
