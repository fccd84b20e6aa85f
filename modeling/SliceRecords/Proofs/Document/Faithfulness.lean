import SliceRecords.Proofs.Document.NormalForm

/-!
# Loading loses and invents nothing

A model can be written as the modules of a document: each of its attributes is a member. What a
loaded model writes is the normal form of the document that it was loaded from, so two documents
load as the same model exactly if they have the same normal form. Main statement:
`eq_iff_normalModules_eq`.
-/

namespace SliceRecords

open Document

mutual

/-- A type as documents write it. -/
def TypeRef.inDocument : TypeRef → Json
  | ⟨kind, name, optional, element, key, value⟩ =>
    .ofMembers [("kind", some (.string kind.name)), ("name", name.map .string),
      ("optional", some (.bool optional)), ("element", TypeRef.partInDocument element),
      ("key", TypeRef.partInDocument key), ("value", TypeRef.partInDocument value)]

/-- A part of a type as documents write it. -/
def TypeRef.partInDocument : Option TypeRef → Option Json
  | some type => some (TypeRef.inDocument type)
  | none => none

end

/-- A field as documents write it. -/
def Field.inDocument (field : Field) : Json :=
  .ofMembers [("name", some (.string field.name)), ("type", some field.type.inDocument),
    ("tag", field.tag.map .number), ("default", field.defaultValue), ("doc", field.doc.map .string),
    ("deprecated", field.deprecated.map .string), ("line", field.origin.line.map .number)]

/-- A struct as documents write it. -/
def Struct.inDocument (struct : Struct) : Json :=
  .ofMembers [("name", some (.string struct.name)),
    ("fields", some (.array (struct.fields.map Field.inDocument))),
    ("encodings", some (.array (Check.namesOf struct.encodings.toList))),
    ("compact", some (.bool struct.isCompact)), ("readonly", some (.bool struct.isReadonly)),
    ("doc", struct.doc.map .string), ("deprecated", struct.deprecated.map .string),
    ("line", struct.origin.line.map .number)]

/-- A module as documents write it. -/
def Module.inDocument (module : Module) : Json :=
  .ofMembers
    [("name", some (.string module.name)), ("doc", module.doc.map .string),
      ("structs", some (.array (module.structs.map Struct.inDocument)))]

namespace Document

variable {json : Json} {name : String}

/-- A member that is a text, if it is there, is the text that is read. -/
theorem get?_eq_textOf? (h : MayHave json name IsText) :
    json.get? name = (json.textOf? name).map .string := by
  unfold Json.textOf? Json.getSome?
  cases hget : json.get? name with
  | none => rfl
  | some value =>
    obtain ⟨text, rfl⟩ := h value hget
    rfl

/-- A member that is a text or nothing is the text that is read. -/
theorem getSome?_eq_textOf? (h : MayHave json name IsOptionalText) :
    json.getSome? name = (json.textOf? name).map .string := by
  unfold Json.textOf? Json.getSome?
  cases hget : json.get? name with
  | none => rfl
  | some value =>
    rcases h value hget with ⟨text, rfl⟩ | rfl
    · rfl
    · rfl

/-- A required text is the text that is read. -/
theorem get?_eq_requiredText (h : Has json name IsText) :
    json.get? name = some (.string ((json.textOf? name).getD "")) := by
  obtain ⟨_, hget, text, rfl⟩ := h
  rw [hget, Json.textOf?, Json.textOf?_of_get? hget, Option.getD_some]

/-- A name is a text. -/
theorem has_text_of_name (h : Has json name IsName) : Has json name IsText := by
  obtain ⟨value, hget, text, _, rfl⟩ := h
  exact ⟨_, hget, text, rfl⟩

/-- A flag is the truth value that is read. -/
theorem getD_eq_flagOf (h : MayHave json name IsFlag) :
    (json.get? name).getD (.bool false) = .bool (json.flagOf name) := by
  unfold Json.flagOf Json.getSome?
  cases hget : json.get? name with
  | none => rfl
  | some value =>
    obtain ⟨flag, rfl⟩ := h value hget
    rfl

/-- A number is the number that is read, of the same kind. -/
theorem get?_eq_number (h : MayHave json name IsIntegral) :
    json.get? name = ((json.getSome? name).bind Json.number?).map .number := by
  unfold Json.getSome?
  cases hget : json.get? name with
  | none => rfl
  | some value =>
    obtain ⟨number, _, rfl, _⟩ := h value hget
    rfl

/-- A tag is the number that is read, of the same kind. -/
theorem getSome?_eq_tag {fieldName : String} {tag : Option Number}
    (h : Field.tagOfJson fieldName json = .ok tag) : json.getSome? "tag" = tag.map .number := by
  unfold Field.tagOfJson at h
  split at h
  · rename_i hnone
    cases h
    rw [hnone, Option.map_none]
  · rename_i value hsome
    split at h
    · rename_i number hnumber
      cases h
      cases value <;> simp only [Json.number?, Option.some.injEq, reduceCtorEq] at hnumber
      rw [hsome, hnumber, Option.map_some]
    · cases h

/-- The part that is built from a part of a type writes its normal form. -/
theorem map_normalType_eq {part? : Option Json} {type? : Option TypeRef}
    (hbuilt : Option.Rel (fun part type => TypeRef.ofJson part = .ok type) part? type?)
    (h : ∀ part, part? = some part → ∀ {type : TypeRef}, TypeRef.ofJson part = .ok type →
      normalType part = type.inDocument) :
    part?.map normalType = TypeRef.partInDocument type? := by
  cases hbuilt with
  | none => rfl
  | some htype => rw [Option.map_some, h _ rfl htype, TypeRef.partInDocument]

/-- The type that is built writes the normal form, at every depth. -/
theorem normalType_eq_inDocument {json : Json} {type : TypeRef} (h : IsType json)
    (hbuilt : TypeRef.ofJson json = .ok type) : normalType json = type.inDocument := by
  induction h generalizing type with
  | @intro json kind _ _ hname hoptional _ _ _ _ ihelement ihkey ihvalue =>
    obtain ⟨hkindOf, htext, helement, hkey, hvalue⟩ := TypeRef.of_ofJson_eq_ok hbuilt
    have hkind := (TypeRef.kindOfJson_eq_ok hkindOf).2
    have hflag := optional_of_ofJson_eq_ok hbuilt
    obtain ⟨kind', name, optional, element, key, value⟩ := type
    dsimp only at hkind htext hflag helement hkey hvalue
    rw [normalType_eq, TypeRef.inDocument, hkind, get?_eq_textOf? hname, Json.textOf?, ← htext,
      getD_eq_flagOf hoptional, ← hflag, map_normalType_eq helement ihelement,
      map_normalType_eq hkey ihkey, map_normalType_eq hvalue ihvalue]

/-- The field that is built writes the normal form. -/
theorem normalField_eq_inDocument {json : Json} {file : Option String} {field : Field}
    (h : IsField json) (hbuilt : Field.ofJson file json = .ok field) :
    normalField json = field.inDocument := by
  obtain ⟨part, hpart, hIsType⟩ := h.type
  unfold Field.ofJson at hbuilt
  simp only [hpart, Result.bind_eq_ok_iff] at hbuilt
  obtain ⟨type, htype, tag, htag, hbuilt⟩ := hbuilt
  split at hbuilt
  · cases hbuilt
    simp only [normalField, Field.inDocument, get?_eq_requiredText (has_text_of_name h.name), hpart,
      Option.map_some, normalType_eq_inDocument hIsType htype, getSome?_eq_tag htag,
      getSome?_eq_textOf? h.doc, getSome?_eq_textOf? h.deprecated, get?_eq_number h.line]
  · cases hbuilt

/-- The struct that is built writes the normal form. -/
theorem normalStruct_eq_inDocument {json : Json} {moduleName file : Option String} {struct : Struct}
    (h : IsStruct json) (hbuilt : Struct.ofJson moduleName file json = .ok struct) :
    normalStruct json = struct.inDocument := by
  obtain ⟨_, hfields, items, rfl, hitems⟩ := h.fields
  obtain ⟨names, hnames, hencodings⟩ := h.encodings
  unfold Struct.ofJson at hbuilt
  simp only [hfields, hnames, Option.getD_some, Json.items_array, Result.bind_eq_ok_iff,
    Result.mapError_eq_ok_iff] at hbuilt
  obtain ⟨fields, hbuiltFields, encodings, hset, hbuilt⟩ := hbuilt
  have hwritten : items.map normalField = fields.map Field.inDocument :=
    Result.map_eq_map_of_mapM hbuiltFields fun item hitem _ =>
      normalField_eq_inDocument (hitems item hitem)
  split at hbuilt
  · cases hbuilt
    simp only [normalStruct, Struct.inDocument, get?_eq_requiredText (has_text_of_name h.name),
      hfields, hnames, Option.map_some, Json.mapItems, hwritten, normalEncodings_eq hencodings hset,
      getD_eq_flagOf h.compact, getD_eq_flagOf h.readonly, getSome?_eq_textOf? h.doc,
      getSome?_eq_textOf? h.deprecated, get?_eq_number h.line]
  · cases hbuilt

/-- The module that is built writes the normal form. -/
theorem normalModule_eq_inDocument {json : Json} {file : Option String} {module : Module}
    (h : IsModule json) (hbuilt : buildModule file json = .ok module) :
    normalModule json = module.inDocument := by
  obtain ⟨_, hstructs, items, rfl, hitems⟩ := h.structs
  unfold buildModule at hbuilt
  simp only [hstructs, Option.getD_some, Json.items_array, Result.bind_eq_ok_iff,
    Result.pure_eq_ok_iff] at hbuilt
  obtain ⟨structs, hbuiltStructs, rfl⟩ := hbuilt
  have hwritten : items.map normalStruct = structs.map Struct.inDocument :=
    Result.map_eq_map_of_mapM hbuiltStructs fun item hitem _ hstruct =>
      normalStruct_eq_inDocument (hitems item hitem) (Result.mapError_eq_ok_iff.mp hstruct)
  simp only [normalModule, Module.inDocument, get?_eq_requiredText h.name, hstructs,
    Option.map_some, Json.mapItems, hwritten, getSome?_eq_textOf? h.doc]

/-- A document that loads is a document, and the model has the modules that are built from its
normal form and writes that form. -/
theorem normalModules_of_load {file absoluteFile : Option String} {json : Json} {model : Model}
    (h : load file absoluteFile json = .ok model) :
    model.file = absoluteFile ∧ (normalModules json).mapM (buildModule file) = .ok model.modules ∧
      normalModules json = model.modules.map Module.inDocument := by
  obtain ⟨hpasses, hbuilt⟩ := of_load_eq_ok h
  have hdocument := violations_eq_nil_iff_isDocument.mp hpasses
  have hmodules := forall_mem_itemsOf hdocument.modules
  refine ⟨?_, ?_, ?_⟩
  · unfold load at h
    simp only [Result.bind_eq_ok_iff, Result.pure_eq_ok_iff] at h
    obtain ⟨_, _, _, _, rfl⟩ := h
    rfl
  · rw [build_normalModules hdocument]
    exact hbuilt
  · exact Result.map_eq_map_of_mapM hbuilt fun item hitem _ =>
      normalModule_eq_inDocument (hmodules item hitem)

/-- Two documents load as the same model exactly if they have the same normal form, and what the
model writes is that normal form: every attribute at every depth, in the order of the document. -/
theorem eq_iff_normalModules_eq {file absoluteFile : Option String} {first second : Json}
    {m n : Model} (hfirst : load file absoluteFile first = .ok m)
    (hsecond : load file absoluteFile second = .ok n) :
    (m = n ↔ normalModules first = normalModules second) ∧
    normalModules first = m.modules.map Module.inDocument := by
  obtain ⟨hfile, hbuilt, hwritten⟩ := normalModules_of_load hfirst
  obtain ⟨hfile', hbuilt', hwritten'⟩ := normalModules_of_load hsecond
  refine ⟨⟨?_, ?_⟩, hwritten⟩
  · -- One model writes one normal form.
    rintro rfl
    rw [hwritten, hwritten']
  · -- Both models are built from one normal form.
    intro hnormal
    rw [hnormal, hbuilt', Except.ok.injEq] at hbuilt
    cases m
    cases n
    simp only at hfile hfile' hbuilt
    rw [hfile, hfile', hbuilt]

/-- A document with one struct of one field: a tagged sequence of numbers. -/
def sequenceDocument (tag : Number) : Json :=
  let number : Json := .object [("kind", .string "primitive"), ("name", .string "int32")]
  let type : Json :=
    .object [("kind", .string "sequence"), ("optional", .bool true), ("element", number)]
  let field : Json := .object [("name", .string "values"), ("type", type), ("tag", .number tag)]
  let struct : Json :=
    .object [("name", .string "Series"), ("fields", .array [field]),
      ("encodings", .array [.string "Slice1", .string "Slice2"])]
  .object [("modules", .array [.object [("name", .string "Demo"), ("structs", .array [struct])]])]

/-- The number one, written with a point. -/
def pointedOne : Number :=
  .double (.ofDecimal false 10 (-1))

/-- The same document with other choices: the order of members and encodings, flags that are spelled
out, and members that are `null`. -/
def spelledDocument : Json :=
  let number : Json :=
    .object [("optional", .bool false), ("name", .string "int32"), ("kind", .string "primitive")]
  let type : Json :=
    .object [("element", number), ("optional", .bool true), ("kind", .string "sequence")]
  let field : Json :=
    .object [("doc", .null), ("tag", .number (.integer 1)), ("type", type),
      ("name", .string "values"), ("default", .null)]
  let struct : Json :=
    .object [("encodings", .array [.string "Slice2", .string "Slice1"]), ("compact", .bool false),
      ("deprecated", .null), ("fields", .array [field]), ("name", .string "Series")]
  .object [("modules", .array [.object [("structs", .array [struct]), ("name", .string "Demo")]])]

/-- The tags of the fields of a model. -/
def fieldTags (model : Model) : List (Option Number) :=
  model.structs.flatMap fun entry => entry.2.fields.map Field.tag

/-- The document in other spelling has the same normal form. -/
theorem normalModules_spelledDocument :
    normalModules spelledDocument = normalModules (sequenceDocument (.integer 1)) := by
  have hencodings : normalEncodings (.array [.string "Slice2", .string "Slice1"]) =
      normalEncodings (.array [.string "Slice1", .string "Slice2"]) := rfl
  simp [spelledDocument, sequenceDocument, normalModules, itemsOf, normalModule, normalStruct,
    normalField, normalType_eq, hencodings, Json.mapItems, Json.getSome?, Json.get?,
    Json.Members.get?]

/-- Other choices give the same model, and a tag that is written with a point gives another one. -/
theorem eq_iff_normalModules_eq_spelled :
    ∃ m n k, load none none (sequenceDocument (.integer 1)) = .ok m ∧
      load none none spelledDocument = .ok n ∧
      load none none (sequenceDocument pointedOne) = .ok k ∧ m = n ∧
      normalModules (sequenceDocument (.integer 1)) ≠
        normalModules (sequenceDocument pointedOne) := by
  obtain ⟨m, hm, htag⟩ : ∃ m, load none none (sequenceDocument (.integer 1)) = .ok m ∧
      fieldTags m = [some (.integer 1)] := Result.exists_of_toOption_map (by decide +kernel)
  obtain ⟨n, hn, _⟩ : ∃ n, load none none spelledDocument = .ok n ∧
      fieldTags n = [some (.integer 1)] := Result.exists_of_toOption_map (by decide +kernel)
  obtain ⟨k, hk, hpointed⟩ : ∃ k, load none none (sequenceDocument pointedOne) = .ok k ∧
      fieldTags k = [some pointedOne] := Result.exists_of_toOption_map (by decide +kernel)
  refine ⟨m, n, k, hm, hn, hk, ?_, ?_⟩
  · exact (eq_iff_normalModules_eq hm hn).1.mpr normalModules_spelledDocument.symm
  · intro hnormal
    have hsame := (eq_iff_normalModules_eq hm hk).1.mpr hnormal
    rw [hsame, hpointed] at htag
    simp [pointedOne] at htag

end Document

end SliceRecords
