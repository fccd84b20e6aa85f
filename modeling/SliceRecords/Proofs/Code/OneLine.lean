import SliceRecords.Code.RecordStruct
import SliceRecords.Proofs.Code.Codecs
import SliceRecords.Proofs.Code.Numerals
import SliceRecords.Proofs.Code.StringLiterals
import SliceRecords.Proofs.Text.Letters

/-!
# Code on one line

Names that are identifiers, types and expressions over them, numbers and string literals have no
line feeds. Main statements: `isOneLine_typeText`, `isOneLine_encodeExpression`,
`isOneLine_decodeExpression` and `isOneLine_stringLiteral`.
-/

namespace SliceRecords

namespace Text

/-- A text without line feeds. -/
def IsOneLine (text : String) : Prop :=
  '\n' ∉ text.toList

/-- Whether a text is on one line can be decided. -/
instance (text : String) : Decidable (IsOneLine text) :=
  inferInstanceAs (Decidable (¬_))

/-- Texts on one line stay on one line when they are put together. -/
theorem IsOneLine.append {a b : String} (ha : IsOneLine a) (hb : IsOneLine b) :
    IsOneLine (a ++ b) := by
  rw [IsOneLine, String.toList_append, List.mem_append, not_or]
  exact ⟨ha, hb⟩

/-- A text on one line between two others is on one line. -/
theorem IsOneLine.enclosed {text front rest : String} (h : IsOneLine text)
    (hfront : IsOneLine front) (hrest : IsOneLine rest) : IsOneLine (front ++ text ++ rest) :=
  (hfront.append h).append hrest

/-- So do texts with a separator between them. -/
theorem isOneLine_intercalate {separator : String} (hseparator : IsOneLine separator)
    {parts : List String} (h : ∀ part ∈ parts, IsOneLine part) :
    IsOneLine (separator.intercalate parts) := by
  induction parts with
  | nil => exact List.not_mem_nil
  | cons part rest ih =>
    obtain ⟨hpart, hrest⟩ := List.forall_mem_cons.mp h
    by_cases hnil : rest = []
    · rwa [hnil, String.intercalate_singleton]
    · rw [String.intercalate_cons_of_ne_nil hnil]
      exact (hpart.append hseparator).append (ih hrest)

/-- A number that gives a character other than the null character is the code point of it. -/
theorem toNat_eq_of_ofNat_eq {n : Nat} {c : Char} (hc : c ≠ '\x00') (h : Char.ofNat n = c) :
    n = c.toNat := by
  by_cases hvalid : n.isValidChar
  · have hofNat : Char.ofNat n = Char.ofNatAux n hvalid := dif_pos hvalid
    rw [← h, hofNat]
    rfl
  · have hofNat : Char.ofNat n = '\x00' := dif_neg hvalid
    exact absurd (h.symm.trans hofNat) hc

/-- The small letters of the table lie beyond the line feed. -/
theorem lt_add_distance : ∀ run ∈ capitalRuns, (10 : Int) < run.first + run.distance := by
  have hall :
      capitalRuns.all (fun run => decide ((10 : Int) < run.first + run.distance)) = true := by
    decide +kernel
  simpa using hall

/-- The lower case of another character is no line feed. -/
theorem newline_notMem_lowercase {c : Char} (hc : c ≠ '\n') : '\n' ∉ lowercase c := by
  unfold lowercase
  extract_lets n
  split
  · intro hmem
    exact hc (eq_of_toLower_eq (by decide) (List.mem_singleton.mp hmem).symm)
  split
  · decide
  split
  · simpa using hc.symm
  · rename_i run hrun
    have hmem := List.mem_of_find?_eq_some hrun
    have hholds := List.find?_some hrun
    have hdistance := lt_add_distance run hmem
    rw [CapitalRun.holds, Bool.and_eq_true, Bool.and_eq_true, decide_eq_true_eq] at hholds
    intro hnewline
    have hten := toNat_eq_of_ofNat_eq (by decide) (List.mem_singleton.mp hnewline).symm
    have hvalue : '\n'.toNat = 10 := rfl
    omega

end Text

namespace Code

open Text

variable {namespaceName : String}

/-- An identifier is on one line. -/
theorem IsIdentifier.isOneLine {name : String} (h : IsIdentifier name) : IsOneLine name := by
  intro hmem
  exact absurd (h.word '\n' hmem) (by decide)

/-- A path of identifiers is on one line. -/
theorem IsPath.isOneLine {name : String} {parts : List String} (h : IsPath name parts) :
    IsOneLine name := by
  have hjoined : IsOneLine ("::".intercalate parts) :=
    isOneLine_intercalate (by decide) fun part hpart => (h.identifier part hpart).isOneLine
  rcases h.spelling with rfl | rfl
  · exact hjoined
  · exact IsOneLine.append (by decide) hjoined

/-- Escaping adds no line feed. -/
theorem isOneLine_escapeIdentifier {name : String} (h : IsOneLine name) :
    IsOneLine (escapeIdentifier name) :=
  notMem_escapeIdentifier (by decide) h

/-- Cutting a name at colons adds no characters. -/
theorem mem_of_mem_splitScopes {name part : List Char} (hpart : part ∈ splitScopes name) {c : Char}
    (hc : c ∈ part) : c ∈ name := by
  fun_induction splitScopes name generalizing part with
  | case1 =>
    rw [List.mem_singleton.mp hpart] at hc
    exact hc
  | case2 rest ih =>
    rcases List.mem_cons.mp hpart with rfl | hpart
    · cases hc
    · exact List.mem_cons_of_mem _ (List.mem_cons_of_mem _ (ih hpart hc))
  | case3 first rest _ hnil ih => exact absurd hnil (splitScopes_ne_nil rest)
  | case4 first rest _ next others hcons ih =>
    rw [hcons] at ih
    rcases List.mem_cons.mp hpart with rfl | hpart
    · rcases List.mem_cons.mp hc with rfl | hc
      · exact List.mem_cons_self
      · exact List.mem_cons_of_mem _ (ih List.mem_cons_self hc)
    · exact List.mem_cons_of_mem _ (ih (List.mem_cons_of_mem _ hpart) hc)

/-- The parts of a scoped name on one line are on one line. -/
theorem isOneLine_of_mem_scopes {name part : String} (h : IsOneLine name)
    (hpart : part ∈ scopes name) : IsOneLine part := by
  obtain ⟨cut, hcut, rfl⟩ := List.mem_map.mp hpart
  intro hmem
  rw [String.toList_ofList] at hmem
  have hinner : '\n' ∈ dropEnds (· == ':') name.toList := mem_of_mem_splitScopes hcut hmem
  rw [dropEnds, dropTrailing_eq_rdropWhile] at hinner
  exact h ((List.dropWhile_sublist _).subset ((List.rdropWhile_prefix _ _).subset hinner))

/-- So is its last part. -/
theorem isOneLine_localName {name : String} (h : IsOneLine name) : IsOneLine (localName name) :=
  isOneLine_of_mem_scopes h (List.mem_of_getLast? (getLast?_scopes name))

/-- The namespace of a module is on one line if the path of the module is. -/
theorem isOneLine_namespaceOf {path : String} (h : IsOneLine path) :
    IsOneLine (namespaceOf path) := by
  unfold namespaceOf
  split
  · decide
  · apply isOneLine_intercalate (by decide)
    exact List.forall_mem_map.mpr fun part hpart =>
      isOneLine_escapeIdentifier (isOneLine_of_mem_scopes h hpart)

/-- A type is referred to on one line from every namespace. -/
theorem isOneLine_typeName {name : String} (h : IsOneLine name) (namespaceName : String) :
    IsOneLine (typeName namespaceName name) := by
  have hbase := isOneLine_escapeIdentifier (isOneLine_localName h)
  have hhome : IsOneLine (namespaceOf ("::".intercalate (scopes name).dropLast)) :=
    isOneLine_namespaceOf <| isOneLine_intercalate (by decide) fun part hpart =>
      isOneLine_of_mem_scopes h (List.dropLast_subset _ hpart)
  unfold typeName
  dsimp only
  split
  · exact hbase
  split
  · exact hbase
  · exact (hhome.enclosed (by decide) (by decide)).append hbase

/-- A name on one line has words on one line. -/
theorem isOneLine_pascalCase {name : String} (h : IsOneLine name) :
    IsOneLine (pascalCase name) := by
  unfold pascalCase
  split
  · exact h
  · rw [IsOneLine, String.toList_ofList, List.mem_flatMap]
    rintro ⟨word, hword, hmem⟩
    refine notMem_capitalize (by decide) (fun hnewline => ?_) hmem
    exact absurd (isAlphanum_of_mem_words hword '\n' hnewline) (by decide)

/-- The lower case of its first letter is no line feed either. -/
theorem isOneLine_camelCase {name : String} (h : IsOneLine name) : IsOneLine (camelCase name) := by
  have hpascal := isOneLine_pascalCase h
  unfold camelCase
  split
  · decide
  · rename_i c rest hlist
    rw [IsOneLine, hlist, List.mem_cons, not_or] at hpascal
    rw [IsOneLine, String.toList_ofList, List.mem_append, not_or]
    exact ⟨newline_notMem_lowercase (Ne.symm hpascal.1), hpascal.2⟩

/-- The member for a name on one line is named on one line. -/
theorem isOneLine_memberName {name : String} (h : IsOneLine name) : IsOneLine (memberName name) :=
  isOneLine_escapeIdentifier (isOneLine_pascalCase h)

/-- So is the parameter for it. -/
theorem isOneLine_parameterName {name : String} (h : IsOneLine name) :
    IsOneLine (parameterName name) :=
  isOneLine_escapeIdentifier (isOneLine_camelCase h)

/-- A string literal stands on one line, whatever the text. -/
theorem isOneLine_stringLiteral (text : String) : IsOneLine (stringLiteral text) := by
  intro hmem
  exact absurd (isLineTerminator_of_mem_stringLiteral hmem) (by decide)

/-- The attribute of a deprecated declaration is on one line, whatever its message says. -/
theorem isOneLine_obsoleteAttribute (deprecated : String) :
    IsOneLine (obsoleteAttribute deprecated) := by
  unfold obsoleteAttribute
  split
  · decide
  · exact (isOneLine_stringLiteral _).enclosed (by decide) (by decide)

/-- A number is written on one line. -/
theorem isOneLine_numberText (number : Number) : IsOneLine number.text := by
  intro hmem
  exact absurd (Number.isNumeralChar_of_mem_text hmem) (by decide)

/-- So is a tag. -/
theorem isOneLine_tagText (field : Field) : IsOneLine (tagText field) :=
  notMem_numeral (by decide) (by decide) field.tag

/-- A member is named behind its receiver on one line. -/
theorem isOneLine_member {field : Field} (h : IsOneLine field.name) : IsOneLine (member field) :=
  IsOneLine.append (by decide) (isOneLine_memberName h)

/-- Its value is on one line, wrapped or not. -/
theorem isOneLine_unwrapped {field : Field} (h : IsOneLine field.name) :
    IsOneLine (unwrapped field) := by
  unfold unwrapped
  split
  · exact (isOneLine_member h).append (by decide)
  · exact isOneLine_member h

/-- A default value stands on one line in code if it does in print or becomes a string literal. -/
theorem isOneLine_defaultLiteral {type : TypeRef} {value : Json}
    (h : ¬(type.kind = .primitive ∧ type.name = some Primitive.string.keyword) →
      IsOneLine value.plain) : IsOneLine (defaultLiteral type value) := by
  unfold defaultLiteral
  split
  · split <;> decide
  · split
    · exact isOneLine_stringLiteral _
    · rename_i hstring
      split
      · exact (h hstring).append (by decide)
      · exact h hstring

/-- The text of a type stands on one line if the names in it do. -/
theorem isOneLine_typeText {type : TypeRef} (hwell : type.WellFormed)
    (hnames : ∀ name ∈ type.userNames, IsOneLine name) {text : String}
    (h : typeText namespaceName type = .ok text) : IsOneLine text := by
  have hmark {base : String} {optional : Bool} (hbase : IsOneLine base) :
      IsOneLine (if optional then base ++ "?" else base) := by
    split
    · exact hbase.append (by decide)
    · exact hbase
  induction hwell generalizing text with
  | primitive keyword optional element key value =>
    simp only [typeText, primitiveOf, TypeRef.primitive?, Option.bind_some,
      Primitive.ofKeyword?_keyword, Result.bind_eq_ok_iff, Result.map_eq_ok_iff,
      Result.pure_eq_ok_iff, Except.ok.injEq, exists_eq_left'] at h
    subst h
    exact hmark (by cases keyword <;> decide)
  | sequence name optional element key value _ ih =>
    rw [TypeRef.userNames_sequence] at hnames
    simp only [typeText, partText, Result.bind_eq_ok_iff, Result.pure_eq_ok_iff] at h
    obtain ⟨inner, hinner, _, rfl, rfl⟩ := h
    exact hmark ((ih hnames hinner).enclosed (by decide) (by decide))
  | dictionary name optional element key value _ _ ihkey ihvalue =>
    rw [TypeRef.userNames_dictionary, List.forall_mem_append] at hnames
    simp only [typeText, partText, Result.bind_eq_ok_iff, Result.pure_eq_ok_iff] at h
    obtain ⟨keyText, hkey, valueText, hvalue, _, rfl, rfl⟩ := h
    have hopening : IsOneLine ("IDictionary<" ++ keyText ++ ", ") :=
      (ihkey hnames.1 hkey).enclosed (by decide) (by decide)
    exact hmark ((hopening.append (ihvalue hnames.2 hvalue)).append (by decide))
  | named kind name optional element key value h₁ h₂ h₃ =>
    have htext : text = if optional then typeName namespaceName name ++ "?"
        else typeName namespaceName name := by
      cases kind <;> simp_all [typeText, nameOf]
    rw [htext]
    exact hmark (isOneLine_typeName
      (hnames name (TypeRef.mem_userNames_named h₁ h₂ h₃ name optional element key value))
      namespaceName)

/-- The names of methods are on one line. -/
theorem isOneLine_methodSuffix (keyword : Primitive) : IsOneLine keyword.methodSuffix := by
  cases keyword <;> decide

/-- A function that encodes is on one line if its type and its expression are. -/
theorem isOneLine_encodeLambda {type expression : String} (htype : IsOneLine type)
    (hexpression : IsOneLine expression) : IsOneLine (encodeLambda type expression) :=
  (htype.enclosed (by decide) (by decide)).append hexpression

/-- A function that decodes is on one line if its expression is. -/
theorem isOneLine_decodeLambda {expression : String} (h : IsOneLine expression) :
    IsOneLine (decodeLambda expression) :=
  IsOneLine.append (by decide) h

/-- A call with one argument stands on one line if its parts do. -/
theorem isOneLine_call {start suffix arguments : String} (hstart : IsOneLine start)
    (hsuffix : IsOneLine suffix) (harguments : IsOneLine arguments) :
    IsOneLine (start ++ suffix ++ "(" ++ arguments ++ ")") :=
  (((hstart.append hsuffix).append (by decide)).append harguments).append (by decide)

/-- The expression that encodes a value stands on one line if the value and the
names in its type do. -/
theorem isOneLine_encodeExpression {type : TypeRef} (hwell : type.WellFormed)
    (hnames : ∀ name ∈ type.userNames, IsOneLine name) {target text : String}
    (htarget : IsOneLine target) (h : encodeExpression namespaceName type target = .ok text) :
    IsOneLine text := by
  have hvalueName : IsOneLine "value" := by decide
  induction hwell generalizing target text with
  | primitive keyword optional element key value =>
    simp only [encodeExpression, methodSuffix, primitiveOf, TypeRef.primitive?, Option.bind_some,
      Primitive.ofKeyword?_keyword, Result.bind_eq_ok_iff, Result.pure_eq_ok_iff, Except.ok.injEq,
      exists_eq_left'] at h
    subst h
    exact isOneLine_call (by decide) (isOneLine_methodSuffix keyword) htarget
  | sequence name optional element key value helement ih =>
    rw [TypeRef.userNames_sequence] at hnames
    simp only [encodeExpression, requirePart, encodePart, Result.bind_eq_ok_iff,
      Result.pure_eq_ok_iff, Except.ok.injEq, exists_eq_left'] at h
    obtain ⟨elementText, htext, expression, hexpression, rfl⟩ := h
    have hmethod : IsOneLine
        (if element.optional then "EncodeSequenceOfOptionals" else "EncodeSequence") := by
      split <;> decide
    have htype :=
      isOneLine_typeText helement.asRequired (by rwa [TypeRef.userNames_asRequired]) htext
    have hlambda := isOneLine_encodeLambda htype (ih hnames hvalueName hexpression)
    have hopening := (IsOneLine.append (a := "encoder.") (by decide) hmethod).append (b := "(")
      (by decide)
    exact (((hopening.append htarget).append (by decide)).append hlambda).append (by decide)
  | dictionary name optional element key value hkey hvalue ihkey ihvalue =>
    rw [TypeRef.userNames_dictionary, List.forall_mem_append] at hnames
    simp only [encodeExpression, requirePart, partText, encodePart, Result.bind_eq_ok_iff,
      Result.pure_eq_ok_iff, Except.ok.injEq, exists_eq_left'] at h
    obtain ⟨keyText, hkeyText, keyExpression, hkeyExpression, valueText, hvalueText,
        valueExpression, hvalueExpression, rfl⟩ := h
    have hmethod : IsOneLine
        (if value.optional then "EncodeDictionaryWithOptionalValueType"
        else "EncodeDictionary") := by
      split <;> decide
    have hkeyLambda := isOneLine_encodeLambda (isOneLine_typeText hkey hnames.1 hkeyText)
      (ihkey hnames.1 hvalueName hkeyExpression)
    have hvalueType := isOneLine_typeText hvalue.asRequired
      (by simpa [TypeRef.userNames_asRequired] using hnames.2) hvalueText
    have hvalueLambda :=
      isOneLine_encodeLambda hvalueType (ihvalue hnames.2 hvalueName hvalueExpression)
    have hopening := (IsOneLine.append (a := "encoder.") (by decide) hmethod).append (b := "(")
      (by decide)
    have hkeyPart := (((hopening.append htarget).append (b := ", ") (by decide)).append hkeyLambda)
    exact (hkeyPart.append (by decide)).append (hvalueLambda.append (by decide))
  | named kind name optional element key value h₁ h₂ h₃ =>
    have hname := hnames name (TypeRef.mem_userNames_named h₁ h₂ h₃ name optional element key value)
    cases kind with
    | primitive => exact absurd rfl h₁
    | sequence => exact absurd rfl h₂
    | dictionary => exact absurd rfl h₃
    | enum | custom =>
      simp only [encodeExpression, nameOf, Result.bind_eq_ok_iff, Result.pure_eq_ok_iff,
        Except.ok.injEq, exists_eq_left'] at h
      subst h
      exact isOneLine_call (by decide) (isOneLine_localName hname) htarget
    | struct =>
      simp only [encodeExpression, Result.pure_eq_ok_iff] at h
      subst h
      exact htarget.append (by decide)
    | classType | proxy =>
      simp only [encodeExpression, Result.pure_eq_ok_iff] at h
      subst h
      exact htarget.enclosed (by decide) (by decide)

/-- The function that encodes values of a well-formed type is on one line. -/
theorem isOneLine_encodeAction {type : TypeRef} (hwell : type.WellFormed)
    (hnames : ∀ name ∈ type.userNames, IsOneLine name) {text : String}
    (h : encodeAction namespaceName type = .ok text) : IsOneLine text := by
  simp only [encodeAction, Result.bind_eq_ok_iff, Result.pure_eq_ok_iff] at h
  obtain ⟨typeName, htype, expression, hexpression, rfl⟩ := h
  exact isOneLine_encodeLambda (isOneLine_typeText hwell hnames htype)
    (isOneLine_encodeExpression hwell hnames (by decide) hexpression)

/-- The decoding lambda of a part stands on one line if its expression does. -/
theorem isOneLine_decodePart {part : TypeRef} (hwell : part.WellFormed)
    (hnames : ∀ name ∈ part.userNames, IsOneLine name)
    (hpart : ∀ {text : String}, decodeExpression namespaceName part = .ok text → IsOneLine text)
    {text : String} (h : decodePart namespaceName (some part) = .ok text) : IsOneLine text := by
  simp only [decodePart, Result.bind_eq_ok_iff, Result.pure_eq_ok_iff] at h
  obtain ⟨expression, hexpression, widened, hwidened, rfl⟩ := h
  apply isOneLine_decodeLambda
  unfold widen at hwidened
  split at hwidened
  · simp only [Result.bind_eq_ok_iff, Result.pure_eq_ok_iff] at hwidened
    obtain ⟨typeName, htype, rfl⟩ := hwidened
    exact ((hpart hexpression).append (by decide)).append (isOneLine_typeText hwell hnames htype)
  · rw [← Result.pure_eq_ok_iff.mp hwidened]
    exact hpart hexpression

/-- The expression that decodes a value stands on one line if the names in the
type of the value do. -/
theorem isOneLine_decodeExpression {type : TypeRef} (hwell : type.WellFormed)
    (hnames : ∀ name ∈ type.userNames, IsOneLine name) {text : String}
    (h : decodeExpression namespaceName type = .ok text) : IsOneLine text := by
  induction hwell generalizing text with
  | primitive keyword optional element key value =>
    simp only [decodeExpression, methodSuffix, primitiveOf, TypeRef.primitive?, Option.bind_some,
      Primitive.ofKeyword?_keyword, Result.bind_eq_ok_iff, Result.pure_eq_ok_iff, Except.ok.injEq,
      exists_eq_left'] at h
    obtain ⟨_, _, rfl⟩ := h
    exact (isOneLine_methodSuffix keyword).enclosed (by decide) (by decide)
  | sequence name optional element key value helement ih =>
    rw [TypeRef.userNames_sequence] at hnames
    simp only [decodeExpression, requirePart, Result.bind_eq_ok_iff, Result.pure_eq_ok_iff,
      Except.ok.injEq, exists_eq_left'] at h
    obtain ⟨_, _, function, hfunction, rfl⟩ := h
    have hmethod : IsOneLine
        (if element.optional then "DecodeSequenceOfOptionals" else "DecodeSequence") := by
      split <;> decide
    exact isOneLine_call (by decide) hmethod
      (isOneLine_decodePart helement hnames (fun h => ih hnames h) hfunction)
  | dictionary name optional element key value hkey hvalue ihkey ihvalue =>
    rw [TypeRef.userNames_dictionary, List.forall_mem_append] at hnames
    simp only [decodeExpression, requirePart, partText, Result.bind_eq_ok_iff,
      Result.pure_eq_ok_iff, Except.ok.injEq, exists_eq_left'] at h
    obtain ⟨_, _, keyText, hkeyText, valueText, hvalueText, keyFunction, hkeyFunction,
        valueFunction, hvalueFunction, rfl⟩ := h
    have hmethod : IsOneLine
        (if value.optional then "DecodeDictionaryWithOptionalValueType"
        else "DecodeDictionary") := by
      split <;> decide
    have hkeyPart := isOneLine_decodePart hkey hnames.1 (fun h => ihkey hnames.1 h) hkeyFunction
    have hvaluePart :=
      isOneLine_decodePart hvalue hnames.2 (fun h => ihvalue hnames.2 h) hvalueFunction
    have hopening := (IsOneLine.append (a := "decoder.") (by decide) hmethod).append
      (b := "(count => new Dictionary<") (by decide)
    have hkeyType := hopening.append (isOneLine_typeText hkey hnames.1 hkeyText)
    have htypes := (hkeyType.append (b := ", ") (by decide)).append
      (isOneLine_typeText hvalue hnames.2 hvalueText)
    exact (htypes.append (by decide)).append
      (((hkeyPart.append (by decide)).append hvaluePart).append (by decide))
  | named kind name optional element key value h₁ h₂ h₃ =>
    have hname := hnames name (TypeRef.mem_userNames_named h₁ h₂ h₃ name optional element key value)
    have hwhole := TypeRef.WellFormed.named kind name optional element key value h₁ h₂ h₃
    have htype {typeName : String} (h : typeText namespaceName
        (TypeRef.asRequired ⟨kind, some name, optional, element, key, value⟩) = .ok typeName) :
        IsOneLine typeName :=
      isOneLine_typeText hwhole.asRequired (by rwa [TypeRef.userNames_asRequired]) h
    cases kind with
    | primitive => exact absurd rfl h₁
    | sequence => exact absurd rfl h₂
    | dictionary => exact absurd rfl h₃
    | enum | custom =>
      simp only [decodeExpression, nameOf, Result.bind_eq_ok_iff, Result.pure_eq_ok_iff,
        Except.ok.injEq, exists_eq_left'] at h
      obtain ⟨_, _, rfl⟩ := h
      exact (isOneLine_localName hname).enclosed (by decide) (by decide)
    | struct | classType | proxy =>
      simp only [decodeExpression, Result.bind_eq_ok_iff, Result.pure_eq_ok_iff] at h
      obtain ⟨typeName, htypeName, rfl⟩ := h
      exact (htype htypeName).enclosed (by decide) (by decide)

/-- The function that decodes values of a well-formed type is on one line. -/
theorem isOneLine_decodeFunction {type : TypeRef} (hwell : type.WellFormed)
    (hnames : ∀ name ∈ type.userNames, IsOneLine name) {text : String}
    (h : decodeFunction namespaceName type = .ok text) : IsOneLine text :=
  isOneLine_decodePart hwell hnames (isOneLine_decodeExpression hwell hnames) h

end Code

end SliceRecords
