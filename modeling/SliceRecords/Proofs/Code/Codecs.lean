import SliceRecords.Proofs.Code.Calls
import SliceRecords.Proofs.Code.Rendering

/-!
# Encoding and decoding text call the same methods

A type has a list of methods that code it, collections before their parts and keys before
values. Both the text that encodes a value and the text that decodes one call the methods of
this list, in this order.
-/

namespace SliceRecords

namespace TypeRef

mutual

/-- The names of the user-defined types that a type is made of. -/
def userNames : TypeRef → List String
  | ⟨kind, name, _, element, key, value⟩ =>
    match kind with
    | .primitive => []
    | .sequence => partNames element
    | .dictionary => partNames key ++ partNames value
    | _ => name.toList

/-- The names of the user-defined types that a part is made of. -/
def partNames : Option TypeRef → List String
  | some type => userNames type
  | none => []

end

mutual

/-- The methods that code a value of a type that is not null, in the order in which the code names
them: without the word for the direction. A struct codes itself. -/
def codecs : TypeRef → List String
  | ⟨kind, name, _, element, key, value⟩ =>
    match kind with
    | .primitive => ((name.bind Primitive.ofKeyword?).map Primitive.methodSuffix).toList
    | .enum | .custom => name.toList.map Code.localName
    | .struct => []
    | .classType => ["Class"]
    | .proxy => ["Proxy"]
    | .sequence =>
      (if element.any TypeRef.optional then "SequenceOfOptionals" else "Sequence") ::
        partCodecs element
    | .dictionary =>
      (if value.any TypeRef.optional then "DictionaryWithOptionalValueType" else "Dictionary") ::
        (partCodecs key ++ partCodecs value)

/-- The methods that code a part of a type. -/
def partCodecs : Option TypeRef → List String
  | some type => codecs type
  | none => []

end

/-- The names of the user-defined types in a type are paths of identifiers, none of which
holds the name of a coder. -/
def HasPlainNames (type : TypeRef) : Prop :=
  ∀ name ∈ type.userNames, ∃ parts, Code.IsPath name parts ∧ ∀ part ∈ parts, Code.AvoidsCoders part

/-- The required form of a type names the same types. -/
theorem userNames_asRequired (type : TypeRef) : type.asRequired.userNames = type.userNames := by
  obtain ⟨kind, name, optional, element, key, value⟩ := type
  cases kind <;> simp only [asRequired, userNames]

/-- The required form of a type has the same codecs. -/
theorem codecs_asRequired (type : TypeRef) : type.asRequired.codecs = type.codecs := by
  obtain ⟨kind, name, optional, element, key, value⟩ := type
  cases kind <;> simp only [asRequired, codecs]

/-- The required form of a type with plain names has plain names. -/
theorem HasPlainNames.asRequired {type : TypeRef} (h : type.HasPlainNames) :
    type.asRequired.HasPlainNames := by
  unfold HasPlainNames
  rw [userNames_asRequired]
  exact h

/-- A sequence names the types that its elements name. -/
theorem userNames_sequence (name : Option String) (optional : Bool) (part : TypeRef)
    (key value : Option TypeRef) :
    userNames ⟨.sequence, name, optional, some part, key, value⟩ = part.userNames := by
  simp only [userNames, partNames]

/-- A dictionary names the types of its keys, then those of its values. -/
theorem userNames_dictionary (name : Option String) (optional : Bool) (element : Option TypeRef)
    (key value : TypeRef) :
    userNames ⟨.dictionary, name, optional, element, some key, some value⟩ =
      key.userNames ++ value.userNames := by
  simp only [userNames, partNames]

/-- A type that is no primitive, sequence or dictionary names itself. -/
theorem mem_userNames_named {kind : TypeKind} (hprimitive : kind ≠ .primitive)
    (hsequence : kind ≠ .sequence) (hdictionary : kind ≠ .dictionary) (name : String)
    (optional : Bool) (element key value : Option TypeRef) :
    name ∈ userNames ⟨kind, some name, optional, element, key, value⟩ := by
  cases kind <;> simp_all [userNames]

/-- The elements of a sequence with plain names have plain names. -/
theorem HasPlainNames.element {name : Option String} {optional : Bool} {part : TypeRef}
    {key value : Option TypeRef}
    (h : HasPlainNames ⟨.sequence, name, optional, some part, key, value⟩) :
    part.HasPlainNames := by
  rwa [HasPlainNames, userNames_sequence] at h

/-- The keys and the values of a dictionary with plain names have plain names. -/
theorem HasPlainNames.key_value {name : Option String} {optional : Bool} {element : Option TypeRef}
    {key value : TypeRef}
    (h : HasPlainNames ⟨.dictionary, name, optional, element, some key, some value⟩) :
    key.HasPlainNames ∧ value.HasPlainNames := by
  rwa [HasPlainNames, userNames_dictionary, List.forall_mem_append] at h

/-- The plain name of a type is a path whose parts avoid the receivers. -/
theorem HasPlainNames.named {kind : TypeKind} {name : String} {optional : Bool}
    {element key value : Option TypeRef} (hprimitive : kind ≠ .primitive)
    (hsequence : kind ≠ .sequence) (hdictionary : kind ≠ .dictionary)
    (h : HasPlainNames ⟨kind, some name, optional, element, key, value⟩) :
    ∃ parts, Code.IsPath name parts ∧ ∀ part ∈ parts, Code.AvoidsCoders part :=
  h name (mem_userNames_named hprimitive hsequence hdictionary name optional element key value)

end TypeRef

namespace Code

open Text

variable {namespaceName : String} {direction : Direction}

/-- The text of a type makes no coding calls. -/
theorem callees_typeText {type : TypeRef} (hwell : type.WellFormed) (hnames : type.HasPlainNames)
    {text : String} (h : typeText namespaceName type = .ok text) : callees direction text = [] := by
  have hmark {base : String} {optional : Bool} (hbase : callees direction base = []) :
      callees direction (if optional then base ++ "?" else base) = [] := by
    split
    · rw [callees_append_closing (by cases direction <;> decide), hbase]
    · exact hbase
  induction hwell generalizing text with
  | primitive keyword optional element key value =>
    simp only [typeText, primitiveOf, TypeRef.primitive?, Option.bind_some,
      Primitive.ofKeyword?_keyword, Result.bind_eq_ok_iff, Result.map_eq_ok_iff,
      Result.pure_eq_ok_iff, Except.ok.injEq, exists_eq_left'] at h
    subst h
    apply hmark
    exact callees_eq_nil_of_dot_notMem (by cases keyword <;> decide)
  | sequence name optional element key value _ ih =>
    simp only [typeText, partText, Result.bind_eq_ok_iff, Result.pure_eq_ok_iff] at h
    obtain ⟨inner, hinner, _, rfl, rfl⟩ := h
    apply hmark
    change callees direction ("IList<" ++ inner ++ ">") = []
    rw [callees_enclosed (by cases direction <;> decide) (by cases direction <;> decide),
      ih hnames.element hinner]
  | dictionary name optional element key value _ _ ihkey ihvalue =>
    simp only [typeText, partText, Result.bind_eq_ok_iff, Result.pure_eq_ok_iff] at h
    obtain ⟨keyText, hkey, valueText, hvalue, _, rfl, rfl⟩ := h
    apply hmark
    change callees direction ("IDictionary<" ++ keyText ++ ", " ++ valueText ++ ">") = []
    rw [callees_append_closing (by cases direction <;> decide),
      callees_append_gap_append (by cases direction <;> decide),
      callees_opening_append (by cases direction <;> decide), ihkey hnames.key_value.1 hkey,
      ihvalue hnames.key_value.2 hvalue]
    rfl
  | named kind name optional element key value h₁ h₂ h₃ =>
    have htext : text = if optional then typeName namespaceName name ++ "?"
        else typeName namespaceName name := by
      cases kind <;> simp_all [typeText, nameOf]
    obtain ⟨parts, hpath, havoids⟩ := hnames.named h₁ h₂ h₃
    rw [htext]
    exact hmark (callees_typeName hpath havoids namespaceName)

/-- A coding call with arguments in round brackets. -/
theorem callees_invocation {start name : String} (hcall : callees direction start = [name])
    (arguments : String) :
    callees direction (start ++ "(" ++ arguments ++ ")") = name :: callees direction arguments := by
  rw [callees_append_closing (by cases direction <;> decide),
    callees_append_gap_append (by cases direction <;> decide), hcall]
  rfl

/-- A function that encodes makes the calls of its expression. -/
theorem callees_encodeLambda {type : String} (htype : callees .encode type = [])
    (expression : String) :
    callees .encode (encodeLambda type expression) = callees .encode expression := by
  change callees .encode ("(ref SliceEncoder encoder, " ++ type ++ " value) => " ++ expression) = _
  rw [callees_append_gap_append (by decide), callees_opening_append (by decide), htype]
  rfl

/-- What the name of a method ends with for a primitive is a word. -/
theorem methodSuffix_isWord (primitive : Primitive) :
    primitive.methodSuffix ≠ "" ∧ ∀ c ∈ primitive.methodSuffix.toList, isWordChar c = true := by
  cases primitive <;> exact ⟨by decide, List.all_eq_true.mp (by decide)⟩

/-- The local name of a plain name is a word. -/
theorem localName_isWord {name : String} {parts : List String} (h : IsPath name parts) :
    localName name ≠ "" ∧ ∀ c ∈ (localName name).toList, isWordChar c = true := by
  have hlast := getLast?_scopes name
  rw [scopes_of_isPath h] at hlast
  have hidentifier := h.identifier _ (List.mem_of_getLast? hlast)
  exact ⟨hidentifier.ne_empty, hidentifier.word⟩

/-- The text that encodes a value calls the methods of the type of the value. -/
theorem callees_encodeExpression {type : TypeRef} (hwell : type.WellFormed)
    (hnames : type.HasPlainNames) {target text : String} (htarget : callees .encode target = [])
    (h : encodeExpression namespaceName type target = .ok text) :
    callees .encode text = type.codecs := by
  have hvalue : callees .encode "value" = [] := callees_eq_nil_of_dot_notMem (by decide)
  induction hwell generalizing target text with
  | primitive keyword optional element key value =>
    simp only [encodeExpression, methodSuffix, primitiveOf, TypeRef.primitive?, Option.bind_some,
      Primitive.ofKeyword?_keyword, Result.bind_eq_ok_iff, Result.pure_eq_ok_iff, Except.ok.injEq,
      exists_eq_left'] at h
    subst h
    obtain ⟨hne, hword⟩ := methodSuffix_isWord keyword
    have hcall :
        callees .encode ("encoder.Encode" ++ keyword.methodSuffix) = [keyword.methodSuffix] :=
      callees_call (by decide) hne hword
    change callees .encode ("encoder.Encode" ++ keyword.methodSuffix ++ "(" ++ target ++ ")") = _
    rw [callees_invocation hcall, htarget]
    simp [TypeRef.codecs]
  | sequence name optional element key value helement ih =>
    simp only [encodeExpression, requirePart, encodePart, Result.bind_eq_ok_iff,
      Result.pure_eq_ok_iff, Except.ok.injEq, exists_eq_left'] at h
    obtain ⟨elementText, htext, expression, hexpression, rfl⟩ := h
    have hmethod : callees .encode ("encoder." ++
        if element.optional then "EncodeSequenceOfOptionals" else "EncodeSequence") =
          [if element.optional then "SequenceOfOptionals" else "Sequence"] :=
      callees_choice element.optional (by decide) (by decide)
    change callees .encode
      ("encoder." ++ (if element.optional then "EncodeSequenceOfOptionals" else "EncodeSequence") ++
         "(" ++ target ++ ", " ++ encodeLambda elementText expression ++ ")") = _
    rw [callees_append_closing (by decide), callees_append_gap_append (by decide),
      callees_append_gap_append (by decide), hmethod, htarget,
      callees_encodeLambda (callees_typeText helement.asRequired hnames.element.asRequired htext),
      ih hnames.element hvalue hexpression]
    simp [TypeRef.codecs, TypeRef.partCodecs]
  | dictionary name optional element key value hkey hvalueWell ihkey ihvalue =>
    simp only [encodeExpression, requirePart, partText, encodePart, Result.bind_eq_ok_iff,
      Result.pure_eq_ok_iff, Except.ok.injEq, exists_eq_left'] at h
    obtain ⟨keyText, hkeyText, keyExpression, hkeyExpression, valueText, hvalueText,
        valueExpression, hvalueExpression, rfl⟩ := h
    obtain ⟨hkeyNames, hvalueNames⟩ := hnames.key_value
    have hmethod : callees .encode ("encoder." ++
        if value.optional then "EncodeDictionaryWithOptionalValueType" else "EncodeDictionary") =
          [if value.optional then "DictionaryWithOptionalValueType" else "Dictionary"] :=
      callees_choice value.optional (by decide) (by decide)
    change callees .encode
      ("encoder." ++
        (if value.optional then "EncodeDictionaryWithOptionalValueType" else "EncodeDictionary") ++
        "(" ++ target ++ ", " ++ encodeLambda keyText keyExpression ++ ", " ++
        (encodeLambda valueText valueExpression ++ ")")) = _
    rw [callees_append_gap_append (by decide), callees_append_gap_append (by decide),
      callees_append_gap_append (by decide), hmethod, htarget, callees_append_closing (by decide),
      callees_encodeLambda (callees_typeText hkey hkeyNames hkeyText),
      callees_encodeLambda
        (callees_typeText hvalueWell.asRequired hvalueNames.asRequired hvalueText),
      ihkey hkeyNames hvalue hkeyExpression, ihvalue hvalueNames hvalue hvalueExpression]
    simp [TypeRef.codecs, TypeRef.partCodecs]
  | named kind name optional element key value h₁ h₂ h₃ =>
    obtain ⟨parts, hpath, _⟩ := hnames.named h₁ h₂ h₃
    obtain ⟨hne, hword⟩ := localName_isWord hpath
    have hcall : callees .encode ("encoder.Encode" ++ localName name) = [localName name] :=
      callees_call (by decide) hne hword
    cases kind with
    | primitive => exact absurd rfl h₁
    | sequence => exact absurd rfl h₂
    | dictionary => exact absurd rfl h₃
    | enum | custom =>
      simp only [encodeExpression, nameOf, Result.bind_eq_ok_iff, Result.pure_eq_ok_iff,
        Except.ok.injEq, exists_eq_left'] at h
      subst h
      change callees .encode ("encoder.Encode" ++ localName name ++ "(" ++ target ++ ")") = _
      rw [callees_invocation hcall, htarget]
      simp [TypeRef.codecs]
    | struct =>
      simp only [encodeExpression, Result.pure_eq_ok_iff] at h
      subst h
      -- The struct's own method is called of the target, and no word follows its name directly.
      have hquiet : callAt (methodStem .encode) "Encode(ref encoder)".toList = [] := by decide
      have hsplit : target ++ ".Encode(ref encoder)" = target ++ "." ++ "Encode(ref encoder)" := by
        rw [String.append_assoc]
        rfl
      change callees .encode (target ++ ".Encode(ref encoder)") = _
      rw [hsplit, callees_append_dot_append (.inr hquiet), htarget,
        callees_eq_nil_of_dot_notMem (by decide)]
      simp [TypeRef.codecs]
    | classType =>
      simp only [encodeExpression, Result.pure_eq_ok_iff] at h
      subst h
      change callees .encode ("encoder.EncodeClass(" ++ target ++ ")") = _
      rw [callees_call_enclosed "Class" (by decide) (by decide), htarget]
      simp [TypeRef.codecs]
    | proxy =>
      simp only [encodeExpression, Result.pure_eq_ok_iff] at h
      subst h
      change callees .encode ("encoder.EncodeProxy(" ++ target ++ ")") = _
      rw [callees_call_enclosed "Proxy" (by decide) (by decide), htarget]
      simp [TypeRef.codecs]

/-- The lambda that encodes a value calls the methods of the type of the value. -/
theorem callees_encodeAction {type : TypeRef} (hwell : type.WellFormed)
    (hnames : type.HasPlainNames) {text : String} (h : encodeAction namespaceName type = .ok text) :
    callees .encode text = type.codecs := by
  simp only [encodeAction, Result.bind_eq_ok_iff, Result.pure_eq_ok_iff] at h
  obtain ⟨typeName, htype, expression, hexpression, rfl⟩ := h
  rw [callees_encodeLambda (callees_typeText hwell hnames htype),
    callees_encodeExpression hwell hnames (callees_eq_nil_of_dot_notMem (by decide)) hexpression]

/-- A function that decodes makes the calls of its expression. -/
theorem callees_decodeLambda (expression : String) :
    callees .decode (decodeLambda expression) = callees .decode expression := by
  change callees .decode ("(ref SliceDecoder decoder) => " ++ expression) = _
  exact callees_opening_append (by decide)

/-- Widening an expression adds no calls. -/
theorem callees_widen {type : TypeRef} (hwell : type.WellFormed) (hnames : type.HasPlainNames)
    {expression text : String} (h : widen namespaceName type expression = .ok text) :
    callees .decode text = callees .decode expression := by
  unfold widen at h
  split at h
  · simp only [Result.bind_eq_ok_iff, Result.pure_eq_ok_iff] at h
    obtain ⟨typeName, htype, rfl⟩ := h
    change callees .decode (expression ++ " as " ++ typeName) = _
    rw [callees_append_gap_append (by decide), callees_typeText hwell hnames htype, List.append_nil]
  · rw [Result.pure_eq_ok_iff.mp h]

/-- The decoding lambda of a part calls the methods that its expression calls. -/
theorem callees_decodePart {part : TypeRef} (hwell : part.WellFormed) (hnames : part.HasPlainNames)
    (hpart : ∀ {text : String}, decodeExpression namespaceName part = .ok text →
      callees .decode text = part.codecs)
    {text : String} (h : decodePart namespaceName (some part) = .ok text) :
    callees .decode text = part.codecs := by
  simp only [decodePart, Result.bind_eq_ok_iff, Result.pure_eq_ok_iff] at h
  obtain ⟨expression, hexpression, widened, hwidened, rfl⟩ := h
  rw [callees_decodeLambda, callees_widen hwell hnames hwidened, hpart hexpression]

/-- The text that decodes a value calls the methods of the type of the value. -/
theorem callees_decodeExpression {type : TypeRef} (hwell : type.WellFormed)
    (hnames : type.HasPlainNames) {text : String}
    (h : decodeExpression namespaceName type = .ok text) : callees .decode text = type.codecs := by
  induction hwell generalizing text with
  | primitive keyword optional element key value =>
    simp only [decodeExpression, methodSuffix, primitiveOf, TypeRef.primitive?, Option.bind_some,
      Primitive.ofKeyword?_keyword, Result.bind_eq_ok_iff, Result.pure_eq_ok_iff, Except.ok.injEq,
      exists_eq_left'] at h
    obtain ⟨_, _, rfl⟩ := h
    obtain ⟨hne, hword⟩ := methodSuffix_isWord keyword
    change callees .decode ("decoder.Decode" ++ keyword.methodSuffix ++ "()") = _
    rw [callees_append_closing (by decide), callees_call (by decide) hne hword]
    simp [TypeRef.codecs]
  | sequence name optional element key value helement ih =>
    simp only [decodeExpression, requirePart, Result.bind_eq_ok_iff, Result.pure_eq_ok_iff,
      Except.ok.injEq, exists_eq_left'] at h
    obtain ⟨_, _, function, hfunction, rfl⟩ := h
    have hmethod : callees .decode ("decoder." ++
        if element.optional then "DecodeSequenceOfOptionals" else "DecodeSequence") =
          [if element.optional then "SequenceOfOptionals" else "Sequence"] :=
      callees_choice element.optional (by decide) (by decide)
    change callees .decode
      ("decoder." ++ (if element.optional then "DecodeSequenceOfOptionals" else "DecodeSequence") ++
        "(" ++ function ++ ")") = _
    rw [callees_invocation hmethod,
      callees_decodePart helement hnames.element (fun h => ih hnames.element h) hfunction]
    simp [TypeRef.codecs, TypeRef.partCodecs]
  | dictionary name optional element key value hkey hvalue ihkey ihvalue =>
    simp only [decodeExpression, requirePart, partText, Result.bind_eq_ok_iff,
      Result.pure_eq_ok_iff, Except.ok.injEq, exists_eq_left'] at h
    obtain ⟨_, _, keyText, hkeyText, valueText, hvalueText, keyFunction, hkeyFunction,
        valueFunction, hvalueFunction, rfl⟩ := h
    obtain ⟨hkeyNames, hvalueNames⟩ := hnames.key_value
    have hmethod : callees .decode ("decoder." ++
        if value.optional then "DecodeDictionaryWithOptionalValueType" else "DecodeDictionary") =
          [if value.optional then "DictionaryWithOptionalValueType" else "Dictionary"] :=
      callees_choice value.optional (by decide) (by decide)
    change callees .decode
      ("decoder." ++
        (if value.optional then "DecodeDictionaryWithOptionalValueType" else "DecodeDictionary") ++
        "(count => new Dictionary<" ++ keyText ++ ", " ++ valueText ++ ">(count), " ++
        (keyFunction ++ ", " ++ valueFunction ++ ")")) = _
    rw [callees_append_gap_append (by decide), callees_append_gap_append (by decide),
      callees_append_gap_append (by decide), hmethod, callees_append_closing (by decide),
      callees_append_gap_append (by decide), callees_typeText hkey hkeyNames hkeyText,
      callees_typeText hvalue hvalueNames hvalueText,
      callees_decodePart hkey hkeyNames (fun h => ihkey hkeyNames h) hkeyFunction,
      callees_decodePart hvalue hvalueNames (fun h => ihvalue hvalueNames h) hvalueFunction]
    simp [TypeRef.codecs, TypeRef.partCodecs]
  | named kind name optional element key value h₁ h₂ h₃ =>
    obtain ⟨parts, hpath, _⟩ := hnames.named h₁ h₂ h₃
    obtain ⟨hne, hword⟩ := localName_isWord hpath
    have hquiet {typeName : String} (h : typeText namespaceName
        (TypeRef.asRequired ⟨kind, some name, optional, element, key, value⟩) = .ok typeName) :
        callees .decode typeName = [] :=
      callees_typeText
        (TypeRef.WellFormed.named kind name optional element key value h₁ h₂ h₃).asRequired
        (TypeRef.HasPlainNames.asRequired hnames) h
    cases kind with
    | primitive => exact absurd rfl h₁
    | sequence => exact absurd rfl h₂
    | dictionary => exact absurd rfl h₃
    | enum | custom =>
      simp only [decodeExpression, nameOf, Result.bind_eq_ok_iff, Result.pure_eq_ok_iff,
        Except.ok.injEq, exists_eq_left'] at h
      obtain ⟨_, _, rfl⟩ := h
      change callees .decode ("decoder.Decode" ++ localName name ++ "()") = _
      rw [callees_append_closing (by decide), callees_call (by decide) hne hword]
      simp [TypeRef.codecs]
    | struct =>
      simp only [decodeExpression, Result.bind_eq_ok_iff, Result.pure_eq_ok_iff] at h
      obtain ⟨typeName, htype, rfl⟩ := h
      change callees .decode ("new " ++ typeName ++ "(ref decoder)") = _
      rw [callees_enclosed (by decide) (by decide), hquiet htype]
      simp [TypeRef.codecs]
    | classType =>
      simp only [decodeExpression, Result.bind_eq_ok_iff, Result.pure_eq_ok_iff] at h
      obtain ⟨typeName, htype, rfl⟩ := h
      change callees .decode ("decoder.DecodeClass<" ++ typeName ++ ">()") = _
      rw [callees_call_enclosed "Class" (by decide) (by decide), hquiet htype]
      simp [TypeRef.codecs]
    | proxy =>
      simp only [decodeExpression, Result.bind_eq_ok_iff, Result.pure_eq_ok_iff] at h
      obtain ⟨typeName, htype, rfl⟩ := h
      change callees .decode ("decoder.DecodeProxy<" ++ typeName ++ ">()") = _
      rw [callees_call_enclosed "Proxy" (by decide) (by decide), hquiet htype]
      simp [TypeRef.codecs]

/-- The lambda that decodes a value calls the methods of the type of the value. -/
theorem callees_decodeFunction {type : TypeRef} (hwell : type.WellFormed)
    (hnames : type.HasPlainNames) {text : String}
    (h : decodeFunction namespaceName type = .ok text) : callees .decode text = type.codecs :=
  callees_decodePart hwell hnames
    (fun hexpression => callees_decodeExpression hwell hnames hexpression) h

end Code

end SliceRecords
