import SliceRecords.Proofs.Document.Acceptance

/-!
# The normal form of documents

A document says more than a model keeps: members come in some order, a member may be `null` or
missing, a flag may be spelled out or left to its default, and encodings are listed in some order.
The normal form settles these choices and nothing else. What is built from a document is built from
its normal form, at every level. Main statement: `build_normalModules`.
-/

namespace SliceRecords

namespace Json

/-- An object with those of some members that are there. -/
def ofMembers (members : List (String × Option Json)) : Json :=
  .object (members.filterMap fun member => member.2.map (member.1, ·))

/-- Nothing is found among no members. -/
@[simp] theorem get?_ofMembers_nil {name : String} : (ofMembers []).get? name = none := rfl

/-- A member that is there is found under its name, and one that is left out is not in the way. -/
@[simp] theorem get?_ofMembers_cons {name other : String} {value? : Option Json}
    {rest : List (String × Option Json)} :
    (ofMembers ((other, value?) :: rest)).get? name =
      if other = name then value?.or ((ofMembers rest).get? name)
      else (ofMembers rest).get? name := by
  cases value? with
  | none => simp [ofMembers, get?]
  | some value =>
    by_cases h : other = name
    · simp [ofMembers, get?, Members.get?, h]
    · simp [ofMembers, get?, Members.get?, h]

/-- An array has its items. -/
@[simp] theorem items_array {items : List Json} : (array items).items = items := rfl

/-- The array with a function applied to each item. -/
def mapItems (f : Json → Json) : Json → Json
  | array items => array (items.map f)
  | json => json

variable {a b : Json} {name : String}

/-- A member that is null counts as missing. -/
theorem getSome?_ne_some_null : a.getSome? name ≠ some null := by
  unfold getSome?
  split
  · simp
  · assumption

/-- Members that are the same, or are left out where they are `null`, are
absent in the same cases. -/
theorem forall_getSome?_eq {names : List String}
    (h : ∀ name ∈ names, a.get? name = b.get? name ∨ a.get? name = b.getSome? name) :
    ∀ name ∈ names, a.getSome? name = b.getSome? name := by
  intro name hname
  rcases h name hname with hsame | hsome
  · rw [getSome?, getSome?, hsame]
  · rw [getSome?, hsome]
    split
    · rename_i hnull
      exact absurd hnull getSome?_ne_some_null
    · rfl

/-- A flag that is spelled out keeps its value. -/
theorem flagOf_of_get?_eq_getD (h : a.get? name = some ((b.get? name).getD (.bool false))) :
    a.flagOf name = b.flagOf name := by
  unfold flagOf getSome?
  rw [h]
  cases b.get? name <;> rfl

end Json

namespace Document

open Check

/-- A type in normal form: its parts are in normal form, and it says whether it is optional. -/
def normalType (json : Json) : Json :=
  .ofMembers
    [("kind", json.get? "kind"), ("name", json.get? "name"),
      ("optional", some ((json.get? "optional").getD (.bool false))),
      ("element",
        match _h : json.get? "element" with
        | some part => some (normalType part)
        | none => none),
      ("key",
        match _h : json.get? "key" with
        | some part => some (normalType part)
        | none => none),
      ("value",
        match _h : json.get? "value" with
        | some part => some (normalType part)
        | none => none)]
termination_by sizeOf json
decreasing_by all_goals exact Json.sizeOf_lt_of_get? _h

/-- The normal form of a type names its kind, its name and its flag, and has the normal
forms of its parts. -/
theorem normalType_eq (json : Json) :
    normalType json = .ofMembers [("kind", json.get? "kind"), ("name", json.get? "name"),
      ("optional", some ((json.get? "optional").getD (.bool false))),
      ("element", (json.get? "element").map normalType), ("key", (json.get? "key").map normalType),
      ("value", (json.get? "value").map normalType)] := by
  rw [normalType]
  split <;> split <;> split <;> simp_all

/-- A field in normal form: of the members that may be `null`, it has those that are not. The
default value is kept as it is, with the order of its members. -/
def normalField (json : Json) : Json :=
  .ofMembers [("name", json.get? "name"), ("type", (json.get? "type").map normalType),
    ("tag", json.getSome? "tag"), ("default", json.getSome? "default"),
    ("doc", json.getSome? "doc"), ("deprecated", json.getSome? "deprecated"),
    ("line", json.get? "line")]

/-- The encodings in a list, the oldest first. -/
def normalEncodings (json : Json) : Json :=
  .array
    (namesOf (Encoding.all.filter fun encoding => some encoding.name ∈ json.items.map Json.string?))

/-- A struct in normal form: its fields are in normal form and in the same order, and it says
whether it is compact and whether it is read-only. -/
def normalStruct (json : Json) : Json :=
  .ofMembers
    [("name", json.get? "name"), ("fields", (json.get? "fields").map (Json.mapItems normalField)),
      ("encodings", (json.get? "encodings").map normalEncodings),
      ("compact", some ((json.get? "compact").getD (.bool false))),
      ("readonly", some ((json.get? "readonly").getD (.bool false))), ("doc", json.getSome? "doc"),
      ("deprecated", json.getSome? "deprecated"), ("line", json.get? "line")]

/-- A module in normal form: its structs are in normal form and in the same order. -/
def normalModule (json : Json) : Json :=
  .ofMembers
    [("name", json.get? "name"), ("doc", json.getSome? "doc"),
      ("structs", (json.get? "structs").map (Json.mapItems normalStruct))]

/-- The modules of a document in normal form, in the same order. -/
def normalModules (json : Json) : List Json :=
  (itemsOf json "modules").map normalModule

/-- An object that is put together has no other members. -/
theorem hasOnly_ofMembers {members : List (String × Option Json)} :
    HasOnly (members.map Prod.fst) (.ofMembers members) := by
  refine ⟨_, rfl, fun name hname => ?_⟩
  obtain ⟨_, hmember, rfl⟩ := List.mem_map.mp hname
  obtain ⟨⟨name, value?⟩, hmem, hsome⟩ := List.mem_filterMap.mp hmember
  obtain ⟨value, _, rfl⟩ := Option.map_eq_some_iff.mp hsome
  exact List.mem_map_of_mem hmem

/-- The part of a type that is built from a part in normal form. -/
theorem partOfJson_map_normalType {part? : Option Json}
    (h : ∀ part, part? = some part → TypeRef.ofJson (normalType part) = TypeRef.ofJson part) :
    TypeRef.partOfJson (part?.map normalType) = TypeRef.partOfJson part? := by
  cases part? with
  | none => rfl
  | some part => simp [TypeRef.partOfJson, h part rfl]

/-- From the normal form of a type the same type is built. -/
theorem ofJson_normalType {json : Json} (h : IsType json) :
    TypeRef.ofJson (normalType json) = TypeRef.ofJson json := by
  -- The induction is on the type in the document, so the parts are built alike already.
  induction h with
  | @intro json kind hmembers hkind _ _ _ _ _ _ ihelement ihkey ihvalue =>
    have hnormalKind : (normalType json).get? "kind" = some (.string kind.name) := by
      simp [normalType_eq, hkind]
    have hkindOf : TypeRef.kindOfJson (normalType json) = .ok kind :=
      kindOfJson_of_isKind (normalType_eq json ▸ hasOnly_ofMembers) hnormalKind
    have hname : (normalType json).getSome? "name" = json.getSome? "name" := by
      simp [Json.getSome?, normalType_eq]
    have hoptional : (normalType json).flagOf "optional" = json.flagOf "optional" :=
      Json.flagOf_of_get?_eq_getD (by simp [normalType_eq])
    have helement : (normalType json).get? "element" = (json.get? "element").map normalType := by
      simp [normalType_eq]
    have hkey : (normalType json).get? "key" = (json.get? "key").map normalType := by
      simp [normalType_eq]
    have hvalue : (normalType json).get? "value" = (json.get? "value").map normalType := by
      simp [normalType_eq]
    unfold Json.flagOf at hoptional
    rw [TypeRef.ofJson_eq, TypeRef.ofJson_eq json, hkindOf, kindOfJson_of_isKind hmembers hkind,
      hname, hoptional, helement, hkey, hvalue, partOfJson_map_normalType ihelement,
      partOfJson_map_normalType ihkey, partOfJson_map_normalType ihvalue]

/-- From the normal form of a field the same field is built. -/
theorem ofJson_normalField {json : Json} (h : IsField json) (file : Option String) :
    Field.ofJson file (normalField json) = Field.ofJson file json := by
  obtain ⟨part, hpart, htype⟩ := h.type
  have hbuilt := ofJson_normalType htype
  -- Of these members the builder takes `null` for absent, so it does not miss a `null` that is left
  -- out.
  have hkept : ∀ name ∈ ["name", "tag", "default", "doc", "deprecated", "line"],
      (normalField json).getSome? name = json.getSome? name :=
    Json.forall_getSome?_eq (by simp [normalField])
  simp only [List.forall_mem_cons] at hkept
  obtain ⟨hname, htag, hdefault, hdoc, hdeprecated, hline, -⟩ := hkept
  have hnormalPart : (normalField json).get? "type" = some (normalType part) := by
    simp [normalField, hpart]
  simp only [Field.ofJson, Field.tagOfJson, Json.textOf?, hname, htag, hdefault, hdoc, hdeprecated,
    hline, hpart, hnormalPart, hbuilt]

/-- The encodings that a set holds, in the order of all encodings. -/
theorem filter_mem_eq_toList (set : SupportedEncodings) :
    (Encoding.all.filter fun encoding => encoding ∈ set) = set.toList := by
  rcases set with (_ | _) | _ <;> decide

/-- The normal form of a list of encodings lists the encodings of the set. -/
theorem normalEncodings_eq {json : Json} {set : SupportedEncodings} (h : IsEncodings json)
    (hset : SupportedEncodings.ofNames json.items = .ok set) :
    normalEncodings json = .array (namesOf set.toList) := by
  obtain ⟨encodings, _, _, rfl⟩ := h
  change SupportedEncodings.ofNames (namesOf encodings) = .ok set at hset
  change normalEncodings (.array (namesOf encodings)) = _
  have hlist := SupportedEncodings.ofNames_names_eq_ok_iff.mp hset
  have hmem (encoding : Encoding) :
      some encoding.name ∈ (namesOf encodings).map Json.string? ↔ encoding ∈ set := by
    rw [SupportedEncodings.mem_of_ofList? hlist]
    simp [namesOf, Json.string?, Encoding.name_injective.eq_iff]
  simp only [normalEncodings, Json.items_array, hmem, filter_mem_eq_toList]

/-- From the normal form of a list of encodings the same set is built. -/
theorem ofNames_normalEncodings {json : Json} (h : IsEncodings json) :
    SupportedEncodings.ofNames (normalEncodings json).items =
      SupportedEncodings.ofNames json.items := by
  obtain ⟨set, hset⟩ := exists_encodings h
  rw [normalEncodings_eq h hset, hset, Json.items_array, namesOf,
    SupportedEncodings.ofNames_names_eq_ok_iff, SupportedEncodings.ofList?_toList]

/-- From the normal form of a struct the same struct is built. -/
theorem ofJson_normalStruct {json : Json} (h : IsStruct json) (moduleName file : Option String) :
    Struct.ofJson moduleName file (normalStruct json) = Struct.ofJson moduleName file json := by
  obtain ⟨fields, hget, items, rfl, hitems⟩ := h.fields
  obtain ⟨encodings, hencodings, hlist⟩ := h.encodings
  have hbuilt : (items.map normalField).mapM (Field.ofJson file) = items.mapM (Field.ofJson file) :=
    Result.mapM_map_of_forall fun item hitem => ofJson_normalField (hitems item hitem) file
  have hnames := ofNames_normalEncodings hlist
  have hkept : ∀ name ∈ ["name", "doc", "deprecated", "line"],
      (normalStruct json).getSome? name = json.getSome? name :=
    Json.forall_getSome?_eq (by simp [normalStruct])
  simp only [List.forall_mem_cons] at hkept
  obtain ⟨hname, hdoc, hdeprecated, hline, -⟩ := hkept
  have hcompact : (normalStruct json).flagOf "compact" = json.flagOf "compact" :=
    Json.flagOf_of_get?_eq_getD (by simp [normalStruct])
  have hreadonly : (normalStruct json).flagOf "readonly" = json.flagOf "readonly" :=
    Json.flagOf_of_get?_eq_getD (by simp [normalStruct])
  have hnormalFields :
      (normalStruct json).get? "fields" = some (.array (items.map normalField)) := by
    simp [normalStruct, hget, Json.mapItems]
  have hnormalEncodings :
      (normalStruct json).get? "encodings" = some (normalEncodings encodings) := by
    simp [normalStruct, hencodings]
  simp only [Struct.ofJson, Json.textOf?, hname, hcompact, hreadonly, hdoc, hdeprecated, hline,
    hget, hencodings, hnormalFields, hnormalEncodings, Option.getD_some, Json.items_array, hbuilt,
    hnames]

/-- From the normal form of a module the same module is built. -/
theorem buildModule_normalModule {json : Json} (h : IsModule json) (file : Option String) :
    buildModule file (normalModule json) = buildModule file json := by
  obtain ⟨structs, hget, items, rfl, hitems⟩ := h.structs
  have hkept : ∀ name ∈ ["name", "doc"], (normalModule json).getSome? name = json.getSome? name :=
    Json.forall_getSome?_eq (by simp [normalModule])
  simp only [List.forall_mem_cons] at hkept
  obtain ⟨hname, hdoc, -⟩ := hkept
  have hnormalStructs :
      (normalModule json).get? "structs" = some (.array (items.map normalStruct)) := by
    simp [normalModule, hget, Json.mapItems]
  have hbuilt (moduleName : String) :
      (items.map normalStruct).mapM (buildStruct moduleName file) =
        items.mapM (buildStruct moduleName file) := by
    refine Result.mapM_map_of_forall fun item hitem => ?_
    have hitemName : (normalStruct item).getSome? "name" = item.getSome? "name" := by
      simp [Json.getSome?, normalStruct]
    simp only [buildStruct, Json.textOf?, hitemName, ofJson_normalStruct (hitems item hitem)]
  simp only [buildModule, Json.textOf?, hname, hdoc, hget, hnormalStructs, Option.getD_some,
    Json.items_array, hbuilt]

/-- From the modules of a document in normal form the same modules are built. -/
theorem build_normalModules {json : Json} (h : IsDocument json) (file : Option String) :
    (normalModules json).mapM (buildModule file) =
      (itemsOf json "modules").mapM (buildModule file) := by
  have hmodules := forall_mem_itemsOf h.modules
  exact Result.mapM_map_of_forall fun item hitem =>
    buildModule_normalModule (hmodules item hitem) file

end Document

end SliceRecords
