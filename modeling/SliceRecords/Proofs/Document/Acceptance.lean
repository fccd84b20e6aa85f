import SliceRecords.Proofs.Document.Grammar
import SliceRecords.Proofs.Document.Soundness
import SliceRecords.Proofs.Model.Encodings

/-!
# Which documents load

A value loads exactly if it is a document whose structs keep the two rules on tags: a tagged field
has an optional type, and a compact struct has no tagged field. Main statement: `load_accepts_iff`.
-/

namespace SliceRecords

/-- A truth value of a document holds if its member says so. -/
theorem Json.flagOf_eq_true_iff {json : Json} {name : String} :
    json.flagOf name = true ↔ json.get? name = some (.bool true) := by
  unfold flagOf getSome?
  cases json.get? name with
  | none => simp
  | some value => cases value <;> simp [bool?]

namespace Document

/-- The kind that an object names is built. -/
theorem kindOfJson_of_isKind {json : Json} {names : List String} {kind : TypeKind}
    (hobject : HasOnly names json) (h : json.get? "kind" = some (.string kind.name)) :
    TypeRef.kindOfJson json = .ok kind := by
  obtain ⟨members, rfl, _⟩ := hobject
  simp [TypeRef.kindOfJson, h, Json.string?]

/-- The parts of a type are built if each of them is. -/
theorem exists_partOfJson {part? : Option Json}
    (h : ∀ part, part? = some part → ∃ type, TypeRef.ofJson part = .ok type) :
    ∃ type?, TypeRef.partOfJson part? = .ok type? := by
  cases part? with
  | none => exact ⟨none, rfl⟩
  | some part =>
    obtain ⟨type, htype⟩ := h part rfl
    exact ⟨some type, by simp [TypeRef.partOfJson, htype]⟩

/-- Every type of a document is built. -/
theorem exists_type {json : Json} (h : IsType json) : ∃ type, TypeRef.ofJson json = .ok type := by
  induction h with
  | intro kind hmembers hkind _ _ _ _ _ _ ihelement ihkey ihvalue =>
    obtain ⟨element, helement⟩ := exists_partOfJson ihelement
    obtain ⟨key, hkey⟩ := exists_partOfJson ihkey
    obtain ⟨value, hvalue⟩ := exists_partOfJson ihvalue
    rw [TypeRef.ofJson_eq]
    simp [kindOfJson_of_isKind hmembers hkind, helement, hkey, hvalue]

/-- A type that is built is optional if its document says so. -/
theorem optional_of_ofJson_eq_ok {json : Json} {type : TypeRef}
    (h : TypeRef.ofJson json = .ok type) : type.optional = json.flagOf "optional" := by
  rw [TypeRef.ofJson_eq] at h
  simp only [Result.bind_eq_ok_iff, Result.pure_eq_ok_iff] at h
  obtain ⟨kind, _, element, _, key, _, value, _, rfl⟩ := h
  rfl

/-- A field of a document that carries a tag. -/
def CarriesTag (json : Json) : Prop :=
  Has json "tag" (· ≠ .null)

/-- A field of a document whose type is optional. -/
def HasOptionalType (json : Json) : Prop :=
  Has json "type" fun type => type.get? "optional" = some (.bool true)

/-- A tag that the grammar admits is built, and only null stands for none. -/
theorem exists_tag {json : Json} (h : MayHave json "tag" IsTag) (fieldName : String) :
    ∃ tag, Field.tagOfJson fieldName json = .ok tag ∧ (tag.isSome = true ↔ CarriesTag json) := by
  unfold Field.tagOfJson Json.getSome? CarriesTag Has
  cases hget : json.get? "tag" with
  | none => simp
  | some value =>
    rcases h value hget with ⟨number, n, rfl, _⟩ | rfl
    · simp [Json.number?]
    · simp

/-- A field of a document is built exactly if it has an optional type or carries no tag. -/
theorem exists_field_iff {json : Json} (h : IsField json) (file : Option String) :
    (∃ field, Field.ofJson file json = .ok field) ↔ (CarriesTag json → HasOptionalType json) := by
  obtain ⟨part, hpart, htype⟩ := h.type
  obtain ⟨type, hbuilt⟩ := exists_type htype
  obtain ⟨tag, htag, hcarries⟩ := exists_tag h.tag ((json.textOf? "name").getD "")
  have hrule : HasOptionalType json ↔ type.optional = true := by
    simp [HasOptionalType, Has, hpart, optional_of_ofJson_eq_ok hbuilt, Json.flagOf_eq_true_iff]
  unfold Field.ofJson
  rw [hpart, hrule, ← hcarries]
  simp only [hbuilt, htag, Result.bind_eq_ok_iff, Except.ok.injEq, exists_eq_left']
  by_cases hoptional : tag.isSome = true → type.optional = true
  · exact iff_of_true ⟨_, dif_pos hoptional⟩ hoptional
  · simp only [dif_neg hoptional]
    exact iff_of_false (by rintro ⟨field, ⟨⟩⟩) hoptional

/-- A field that is built has a tag exactly if its part of the document carries one. -/
theorem isTagged_iff_carriesTag {json : Json} (h : IsField json) {file : Option String}
    {field : Field} (hfield : Field.ofJson file json = .ok field) :
    field.isTagged = true ↔ CarriesTag json := by
  obtain ⟨_, name, hname⟩ := Field.of_ofJson_eq_ok hfield
  obtain ⟨tag, htag, hcarries⟩ := exists_tag h.tag name
  rw [htag] at hname
  cases hname
  exact hcarries

/-- The items of a member that is an array. -/
def itemsOf (json : Json) (name : String) : List Json :=
  ((json.get? name).getD .null).items

/-- A struct of a document that keeps the rules on tags: its tagged fields have optional types, and
if it is compact it has none. -/
structure KeepsTagRules (json : Json) : Prop where
  optional : ∀ field ∈ itemsOf json "fields", CarriesTag field → HasOptionalType field
  compact : json.get? "compact" = some (.bool true) →
    ∀ field ∈ itemsOf json "fields", ¬CarriesTag field

/-- What holds of all items of an array under a name holds of the items found there. -/
theorem forall_mem_itemsOf {json : Json} {name : String} {P : Json → Prop}
    (h : Has json name (IsArrayOf P)) : ∀ item ∈ itemsOf json name, P item := by
  obtain ⟨_, hvalue, items, rfl, hitems⟩ := h
  simpa [itemsOf, hvalue, Json.items] using hitems

/-- Every list of encodings of a document is a set of encodings. -/
theorem exists_encodings {json : Json} (h : IsEncodings json) :
    ∃ encodings, SupportedEncodings.ofNames json.items = .ok encodings := by
  obtain ⟨encodings, hnonEmpty, _, rfl⟩ := h
  exact SupportedEncodings.exists_ofNames hnonEmpty

/-- The fields that a struct is built with are those of its document, one by one. -/
theorem exists_field_of_mem {json : Json} {moduleName file : Option String} {struct : Struct}
    (h : Struct.ofJson moduleName file json = .ok struct) {item : Json}
    (hitem : item ∈ itemsOf json "fields") :
    ∃ field ∈ struct.fields, Field.ofJson file item = .ok field :=
  Result.exists_mem_of_mapM (Struct.fields_of_ofJson_eq_ok h) hitem

/-- A struct that is built is compact if its document says so. -/
theorem isCompact_of_ofJson_eq_ok {json : Json} {moduleName file : Option String} {struct : Struct}
    (h : Struct.ofJson moduleName file json = .ok struct) :
    struct.isCompact = json.flagOf "compact" := by
  unfold Struct.ofJson at h
  simp only [Result.bind_eq_ok_iff] at h
  obtain ⟨fields, _, encodings, _, h⟩ := h
  split at h
  · cases h
    rfl
  · cases h

/-- A struct of a document is built exactly if it keeps the rules on tags. -/
theorem exists_struct_iff {json : Json} (h : IsStruct json) (moduleName file : Option String) :
    (∃ struct, Struct.ofJson moduleName file json = .ok struct) ↔ KeepsTagRules json := by
  have hfields := forall_mem_itemsOf h.fields
  constructor
  · rintro ⟨struct, hstruct⟩
    constructor
    · intro item hitem
      obtain ⟨field, _, hfield⟩ := exists_field_of_mem hstruct hitem
      exact (exists_field_iff (hfields item hitem) file).mp ⟨field, hfield⟩
    · intro hcompact item hitem
      obtain ⟨field, hmem, hfield⟩ := exists_field_of_mem hstruct hitem
      have hflag : struct.isCompact = true := by
        rw [isCompact_of_ofJson_eq_ok hstruct, Json.flagOf_eq_true_iff, hcompact]
      rw [← isTagged_iff_carriesTag (hfields item hitem) hfield, Bool.not_eq_true]
      exact struct.untagged_of_compact hflag field hmem
  · intro hrules
    obtain ⟨fields, hbuilt⟩ := Result.exists_mapM_eq_ok fun item hitem =>
      (exists_field_iff (hfields item hitem) file).mpr (hrules.optional item hitem)
    obtain ⟨value, hvalue, hencodings⟩ := h.encodings
    obtain ⟨encodings, hset⟩ := exists_encodings hencodings
    have hcompact : json.flagOf "compact" = true → ∀ field ∈ fields, field.isTagged = false := by
      intro hflag field hfield
      obtain ⟨item, hitem, hof⟩ := Result.exists_of_mem_mapM hbuilt hfield
      rw [← Bool.not_eq_true, isTagged_iff_carriesTag (hfields item hitem) hof]
      exact hrules.compact (Json.flagOf_eq_true_iff.mp hflag) item hitem
    unfold Struct.ofJson
    simp only [itemsOf] at hbuilt
    simp only [hbuilt, hvalue, Option.getD_some, hset, Except.mapError, Result.bind_eq_ok_iff,
      Except.ok.injEq, exists_eq_left']
    exact ⟨_, dif_pos hcompact⟩

/-- All structs of a document keep the rules on tags. -/
def AllKeepTagRules (json : Json) : Prop :=
  ∀ module ∈ itemsOf json "modules", ∀ struct ∈ itemsOf module "structs", KeepsTagRules struct

/-- A module of a document is built exactly if all its structs keep the rules on tags. -/
theorem exists_module_iff {json : Json} (h : IsModule json) (file : Option String) :
    (∃ module, buildModule file json = .ok module) ↔
      ∀ struct ∈ itemsOf json "structs", KeepsTagRules struct := by
  have hstructs := forall_mem_itemsOf h.structs
  have hbuilt : (∃ module, buildModule file json = .ok module) ↔
      ∃ structs, (itemsOf json "structs").mapM
        (buildStruct ((json.textOf? "name").getD "") file) = .ok structs := by
    simp [buildModule, itemsOf]
  rw [hbuilt, Result.exists_mapM_eq_ok_iff]
  refine forall₂_congr fun item hitem => ?_
  simp only [buildStruct, Result.mapError_eq_ok_iff]
  exact exists_struct_iff (hstructs item hitem) _ file

/-- The checks accept exactly the documents. -/
theorem validate_eq_ok_iff {json : Json} : validate json = .ok () ↔ IsDocument json := by
  rw [← violations_eq_nil_iff_isDocument]
  unfold validate
  split <;> simp_all

/-- The modules of a document are built exactly if all its structs keep the rules on tags. -/
theorem exists_modules_iff {json : Json} (h : IsDocument json) (file : Option String) :
    (∃ modules, (itemsOf json "modules").mapM (buildModule file) = .ok modules) ↔
      AllKeepTagRules json := by
  have hmodules := forall_mem_itemsOf h.modules
  rw [Result.exists_mapM_eq_ok_iff]
  exact forall₂_congr fun item hitem => exists_module_iff (hmodules item hitem) file

/-- The checks accept exactly the documents, and a value loads exactly if it is a document whose
structs keep the rules on tags. -/
theorem load_accepts_iff (json : Json) (file absoluteFile : Option String) :
    (validate json = .ok () ↔ IsDocument json) ∧
    ((∃ model, load file absoluteFile json = .ok model) ↔
     IsDocument json ∧ AllKeepTagRules json) := by
  refine ⟨validate_eq_ok_iff, ?_, ?_⟩
  · rintro ⟨model, hmodel⟩
    obtain ⟨hpasses, hbuilt⟩ := of_load_eq_ok hmodel
    have hdocument := violations_eq_nil_iff_isDocument.mp hpasses
    exact ⟨hdocument, (exists_modules_iff hdocument file).mp ⟨model.modules, hbuilt⟩⟩
  · rintro ⟨hdocument, hrules⟩
    obtain ⟨modules, hbuilt⟩ := (exists_modules_iff hdocument file).mpr hrules
    refine Result.exists_bind_eq_ok ⟨(), validate_eq_ok_iff.mpr hdocument⟩ fun _ _ => ?_
    exact Result.exists_bind_eq_ok ⟨modules, hbuilt⟩ fun _ _ => ⟨_, rfl⟩

end Document

end SliceRecords
