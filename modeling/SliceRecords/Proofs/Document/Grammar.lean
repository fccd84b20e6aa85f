import SliceRecords.Proofs.Document.Checks
import SliceRecords.Proofs.Number.Integral

/-!
# The grammar of documents

What a document is, said of JSON values without the checks: a module, a struct, a field and a type
are objects with members of their own, and no others. The checks find nothing exactly in such
values. Main statement: `violations_eq_nil_iff_isDocument`.
-/

namespace SliceRecords

/-- Encodings with one name are one. -/
theorem Encoding.name_injective : Function.Injective Encoding.name := by
  intro a b h
  have hread := congrArg Encoding.ofName? h
  rwa [ofName?_name, ofName?_name, Option.some.injEq] at hread

/-- Kinds of types with one name are one. -/
theorem TypeKind.name_injective : Function.Injective TypeKind.name := by
  intro a b h
  have hread := congrArg TypeKind.ofName? h
  rwa [ofName?_name, ofName?_name, Option.some.injEq] at hread

namespace Document

/-- An object without members of other names. -/
def HasOnly (names : List String) (json : Json) : Prop :=
  ∃ members, json = .object members ∧ ∀ name ∈ Json.Members.names members, name ∈ names

/-- A member that is there and has a property. -/
def Has (json : Json) (name : String) (P : Json → Prop) : Prop :=
  ∃ value, json.get? name = some value ∧ P value

/-- A member that has a property if it is there. -/
def MayHave (json : Json) (name : String) (P : Json → Prop) : Prop :=
  ∀ value, json.get? name = some value → P value

/-- An array of items with a property. -/
def IsArrayOf (P : Json → Prop) (json : Json) : Prop :=
  ∃ items, json = .array items ∧ ∀ item ∈ items, P item

/-- A text. -/
def IsText (json : Json) : Prop :=
  ∃ text, json = .string text

/-- A text that is not empty. -/
def IsName (json : Json) : Prop :=
  ∃ text, text ≠ "" ∧ json = .string text

/-- A text or nothing. -/
def IsOptionalText (json : Json) : Prop :=
  IsText json ∨ json = .null

/-- A truth value. -/
def IsFlag (json : Json) : Prop :=
  ∃ flag, json = .bool flag

/-- A number that equals an integer, however it is written. -/
def IsIntegral (json : Json) : Prop :=
  ∃ (number : Number) (n : Int), json = .number number ∧ number.same (.integer n) = true

/-- A number that equals an integer from zero on, or nothing. -/
def IsTag (json : Json) : Prop :=
  (∃ (number : Number) (n : Nat), json = .number number ∧ number.same (.integer n) = true) ∨
  json = .null

/-- A list of encodings, which is not empty and repeats none. -/
def IsEncodings (json : Json) : Prop :=
  ∃ encodings : List Encoding, encodings ≠ [] ∧ encodings.Nodup ∧
    json = .array (encodings.map fun encoding => .string encoding.name)

/-- What a type of a kind needs: a sequence its element, a dictionary its key and value, a primitive
type one of the keywords as its name, and every other type a name. -/
def HasPartsOf (json : Json) : TypeKind → Prop
  | .sequence => (json.get? "element").isSome = true
  | .dictionary => (json.get? "key").isSome = true ∧ (json.get? "value").isSome = true
  | .primitive => ∃ primitive : Primitive, json.get? "name" = some (.string primitive.keyword)
  | _ => (json.get? "name").isSome = true

/-- A reference to a type. Its parts are types too, whether or not its kind needs them. -/
inductive IsType : Json → Prop
  | intro {json : Json} (kind : TypeKind)
    (members : HasOnly ["kind", "name", "optional", "element", "key", "value"] json)
    (isKind : json.get? "kind" = some (.string kind.name))
    (name : MayHave json "name" IsText) (optional : MayHave json "optional" IsFlag)
    (element : ∀ part, json.get? "element" = some part → IsType part)
    (key : ∀ part, json.get? "key" = some part → IsType part)
    (value : ∀ part, json.get? "value" = some part → IsType part)
    (parts : HasPartsOf json kind) : IsType json

/-- A field. Its default value is free. -/
structure IsField (json : Json) : Prop where
  members : HasOnly ["name", "type", "tag", "default", "doc", "deprecated", "line"] json
  name : Has json "name" IsName
  type : Has json "type" IsType
  tag : MayHave json "tag" IsTag
  doc : MayHave json "doc" IsOptionalText
  deprecated : MayHave json "deprecated" IsOptionalText
  line : MayHave json "line" IsIntegral

/-- A struct. -/
structure IsStruct (json : Json) : Prop where
  members : HasOnly
    ["name", "fields", "encodings", "compact", "readonly", "doc", "deprecated", "line"] json
  name : Has json "name" IsName
  fields : Has json "fields" (IsArrayOf IsField)
  encodings : Has json "encodings" IsEncodings
  compact : MayHave json "compact" IsFlag
  readonly : MayHave json "readonly" IsFlag
  doc : MayHave json "doc" IsOptionalText
  deprecated : MayHave json "deprecated" IsOptionalText
  line : MayHave json "line" IsIntegral

/-- A module. -/
structure IsModule (json : Json) : Prop where
  members : HasOnly ["name", "doc", "structs"] json
  name : Has json "name" IsText
  structs : Has json "structs" (IsArrayOf IsStruct)
  doc : MayHave json "doc" IsOptionalText

/-- A document. Members beside the modules are free. -/
structure IsDocument (json : Json) : Prop where
  object : ∃ members, json = .object members
  modules : Has json "modules" (IsArrayOf IsModule)

/-- A check finds nothing exactly in the values with a property, wherever they stand. -/
def Check.Decides (check : Check) (P : Json → Prop) : Prop :=
  ∀ (path : Path) (json : Json), check path json = [] ↔ P json

namespace Check

variable {check : Check} {P : Json → Prop} {path : Path} {json : Json}

/-- A check of a member decides what the member may be. -/
theorem decides_member (h : check.Decides P) {name : String} :
    (member name check).Decides fun json => MayHave json name P := by
  intro path json
  rw [member_eq_nil_iff]
  exact forall_congr' fun value => imp_congr Iff.rfl (h _ value)

/-- A check of an array decides what its items are. -/
theorem decides_arrayOf (h : check.Decides P) :
    (all [type [.array], items check]).Decides (IsArrayOf P) := by
  have hitems {path : Path} {index : Nat} {list : List Json} :
      itemsFrom check path index list = [] ↔ ∀ item ∈ list, P item := by
    induction list generalizing index with
    | nil => simp [itemsFrom]
    | cons item rest ih => rw [itemsFrom, List.append_eq_nil_iff, h, ih, List.forall_mem_cons]
  intro path json
  cases json <;>
    simp [all_eq_nil_iff, type_eq_nil_iff, ValueType.holds, items, Json.items, IsArrayOf, hitems]

/-- The type check for strings decides texts. -/
theorem decides_text : (type [.string]).Decides IsText := by
  intro path json
  cases json <;> simp [type_eq_nil_iff, ValueType.holds, IsText]

/-- The type check for truth values decides flags. -/
theorem decides_flag : (type [.boolean]).Decides IsFlag := by
  intro path json
  cases json <;> simp [type_eq_nil_iff, ValueType.holds, IsFlag]

/-- The type check for integers decides integral numbers, however they are written. -/
theorem decides_integral : (type [.integer]).Decides IsIntegral := by
  intro path json
  cases json <;> simp [type_eq_nil_iff, ValueType.holds, IsIntegral, Option.isSome_iff_exists,
    Number.toInt?_eq_some_iff]

/-- The check of a text that may be null decides that. -/
theorem decides_optionalText : checkOptionalText.Decides IsOptionalText := by
  intro path json
  cases json <;> simp [checkOptionalText, type_eq_nil_iff, ValueType.holds, IsOptionalText, IsText]

/-- The check of a name decides texts that are not empty. -/
theorem decides_name : checkName.Decides IsName := by
  intro path json
  cases json <;>
    simp [checkName, all_eq_nil_iff, type_eq_nil_iff, ValueType.holds, nonEmptyText, IsName]

/-- The check of a tag decides null and integral numbers that are not negative. -/
theorem decides_tag : (all [type [.integer, .null], notNegative]).Decides IsTag := by
  intro path json
  cases json with
  | number number =>
    have hchecks : all [type [.integer, .null], notNegative] path (.number number) = [] ↔
        (∃ n, number.same (.integer n) = true) ∧ number.isNegative = false := by
      simp [all_eq_nil_iff, type_eq_nil_iff, ValueType.holds, notNegative, Option.isSome_iff_exists,
        Number.toInt?_eq_some_iff]
    have htag : IsTag (.number number) ↔ ∃ n : Nat, number.same (.integer n) = true := by
      simp [IsTag]
    rw [hchecks, htag]
    constructor
    · rintro ⟨⟨n, hn⟩, hnegative⟩
      rw [Number.isNegative_of_same_integer hn, decide_eq_false_iff_not] at hnegative
      exact ⟨n.toNat, by rwa [Int.toNat_of_nonneg (by omega)]⟩
    · rintro ⟨n, hn⟩
      refine ⟨⟨n, hn⟩, ?_⟩
      rw [Number.isNegative_of_same_integer hn, decide_eq_false_iff_not]
      omega
  | _ => simp [all_eq_nil_iff, type_eq_nil_iff, ValueType.holds, notNegative, IsTag]

/-- No two texts of a list are the same value if the texts differ. -/
theorem hasSamePair_map_string_iff {texts : List String} :
    hasSamePair (texts.map Json.string) = true ↔ ¬texts.Nodup := by
  induction texts with
  | nil => simp [hasSamePair]
  | cons text rest ih =>
    rw [List.map_cons, hasSamePair, Bool.or_eq_true, ih, List.nodup_cons, not_and_or, not_not]
    refine or_congr_left ?_
    rw [List.any_map, List.any_eq_true]
    simp [Json.same]

/-- Texts repeat themselves exactly if one of them stands there twice. -/
theorem repeats_map_string_iff {texts : List String} :
    repeats (texts.map Json.string) = true ↔ ¬texts.Nodup := by
  have htexts : (texts.map Json.string).all (fun item => item.string?.isSome) = true := by
    simp [Json.string?]
  rw [repeats, if_pos htexts, hasSamePair_map_string_iff]

/-- The list of the names of encodings, as an array of a document. -/
def namesOf (encodings : List Encoding) : List Json :=
  encodings.map fun encoding => .string encoding.name

/-- So do the names of encodings, as different encodings have different names. -/
theorem repeats_namesOf_iff {encodings : List Encoding} :
    repeats (namesOf encodings) = true ↔ ¬encodings.Nodup := by
  have hnames : namesOf encodings = (encodings.map Encoding.name).map Json.string := by
    rw [List.map_map]
    rfl
  rw [hnames, repeats_map_string_iff, List.nodup_map_iff Encoding.name_injective]

/-- Items that are names of encodings are the names of a list of encodings. -/
theorem forall_name_iff {items : List Json} :
    (∀ item ∈ items, ∃ text ∈ Encoding.all.map Encoding.name, item = .string text) ↔
      ∃ encodings, items = namesOf encodings := by
  constructor
  · intro h
    induction items with
    | nil => exact ⟨[], rfl⟩
    | cons item rest ih =>
      obtain ⟨encodings, rfl⟩ := ih fun other hother => h other (List.mem_cons_of_mem item hother)
      obtain ⟨text, htext, rfl⟩ := h item List.mem_cons_self
      obtain ⟨encoding, _, rfl⟩ := List.mem_map.mp htext
      exact ⟨encoding :: encodings, rfl⟩
  · rintro ⟨encodings, rfl⟩ item hitem
    obtain ⟨encoding, _, rfl⟩ := List.mem_map.mp hitem
    exact ⟨encoding.name, List.mem_map_of_mem (by cases encoding <;> decide), rfl⟩

/-- The check of encodings decides arrays that name each encoding at most once, and at least one. -/
theorem decides_encodings : checkEncodings.Decides IsEncodings := by
  intro path json
  have hsplit : checkEncodings path json = [] ↔
      all [type [.array], items (oneOf (Encoding.all.map Encoding.name))] path json = [] ∧
        nonEmptyArray path json = [] ∧ unique path json = [] := by
    simp [checkEncodings, all_eq_nil_iff, and_assoc]
  have hlist : (all [type [.array], items (oneOf (Encoding.all.map Encoding.name))]).Decides
      (IsArrayOf fun item => ∃ text ∈ Encoding.all.map Encoding.name, item = .string text) :=
    decides_arrayOf fun _ _ => oneOf_eq_nil_iff
  rw [hsplit, hlist]
  constructor
  · rintro ⟨⟨items, rfl, hitems⟩, hnonEmpty, hunique⟩
    obtain ⟨encodings, rfl⟩ := forall_name_iff.mp hitems
    refine ⟨encodings, ?_, ?_, rfl⟩
    · rintro rfl
      simp [nonEmptyArray, namesOf] at hnonEmpty
    · by_contra hrepeated
      simp [unique, Json.items, repeats_namesOf_iff.mpr hrepeated] at hunique
  · rintro ⟨encodings, hnonEmpty, hdistinct, rfl⟩
    refine ⟨⟨namesOf encodings, rfl, forall_name_iff.mpr ⟨encodings, rfl⟩⟩, ?_, ?_⟩
    · simp [nonEmptyArray, hnonEmpty]
    · have hrepeats : ¬repeats (namesOf encodings) = true := fun h =>
        repeats_namesOf_iff.mp h hdistinct
      exact if_neg hrepeats

/-- In an object, the required members are there. -/
theorem required_eq_nil_iff_of_hasOnly {allowed names : List String} (h : HasOnly allowed json) :
    required names path json = [] ↔ ∀ name ∈ names, (json.get? name).isSome = true := by
  obtain ⟨members, rfl, _⟩ := h
  simp [required_eq_nil_iff]

/-- An object with all members of some names, and none but those of others. -/
theorem objectRules_iff {allowed names : List String} :
    (type [.object] path json = [] ∧ required names path json = [] ∧
     noOthers allowed path json = []) ↔
    HasOnly allowed json ∧ ∀ name ∈ names, (json.get? name).isSome = true := by
  have hobject : (type [.object] path json = [] ∧ noOthers allowed path json = []) ↔
      HasOnly allowed json := by
    cases json <;> simp [type_eq_nil_iff, ValueType.holds, noOthers, HasOnly]
  rw [and_comm (b := noOthers allowed path json = []), ← and_assoc, hobject]
  exact and_congr_right required_eq_nil_iff_of_hasOnly

end Check

open Check

/-- A member that has a property is there, and has the property if it is. -/
theorem has_iff {json : Json} {name : String} {P : Json → Prop} :
    Has json name P ↔ (json.get? name).isSome = true ∧ MayHave json name P := by
  unfold Has MayHave
  cases json.get? name <;> simp

/-- In a type of a kind, the kind may be one of a list exactly if it is in the list. -/
theorem kindMayBe_iff {json : Json} {kind : TypeKind}
    (h : json.get? "kind" = some (.string kind.name)) (kinds : List TypeKind) :
    kindMayBe kinds json = true ↔ kind ∈ kinds := by
  simp [kindMayBe, h, List.mem_map, TypeKind.name_injective.eq_iff]

/-- The list of all primitives is complete. -/
theorem mem_all (primitive : Primitive) : primitive ∈ Primitive.all := by
  cases primitive <;> decide

/-- The rules on the parts of a type ask for what its kind needs. -/
theorem kindRules_eq_nil_iff {path : Path} {json : Json} {kind : TypeKind} {names : List String}
    (hobject : HasOnly names json) (hkind : json.get? "kind" = some (.string kind.name)) :
    kindRules path json = [] ↔ HasPartsOf json kind := by
  simp only [kindRules, all_eq_nil_iff, List.forall_mem_cons, whenKind_eq_nil_iff,
    kindMayBe_iff hkind, required_eq_nil_iff_of_hasOnly hobject, member_eq_nil_iff,
    oneOf_eq_nil_iff]
  cases kind with
  | primitive =>
    have hkeyword : HasPartsOf json .primitive ↔ Has json "name" fun value =>
        ∃ text ∈ Primitive.all.map Primitive.keyword, value = .string text := by
      simp [HasPartsOf, Has, mem_all]
    rw [hkeyword, has_iff]
    simp [namedKinds, MayHave]
  | _ => simp [HasPartsOf, namedKinds]

/-- The check of a type finds nothing exactly in types. -/
theorem decides_type (path : Path) (json : Json) : checkType path json = [] ↔ IsType json := by
  have hpart (name : String) : member name checkType path json = [] ↔ MayHave json name IsType := by
    rw [member_eq_nil_iff]
    exact forall_congr' fun value => forall_congr' fun hvalue => decides_type _ value
  rw [checkType_eq]
  simp only [typeAttributes, all_eq_nil_iff, List.forall_mem_cons, hpart,
    decides_member decides_text _ _, decides_member decides_flag _ _]
  constructor
  · rintro ⟨hobject, ⟨hkinds, hname, hoptional, -⟩, helement, hkey, hvalue, hrequired, hothers,
      hparts, -⟩
    obtain ⟨hmembers, hthere⟩ := objectRules_iff.mp ⟨hobject, hrequired, hothers⟩
    obtain ⟨value, hvalueOf⟩ := Option.isSome_iff_exists.mp (hthere "kind" List.mem_cons_self)
    obtain ⟨text, htext, rfl⟩ := oneOf_eq_nil_iff.mp (of_member_eq_nil hkinds hvalueOf)
    obtain ⟨kind, _, rfl⟩ := List.mem_map.mp htext
    exact .intro kind hmembers hvalueOf hname hoptional helement hkey hvalue
      ((kindRules_eq_nil_iff hmembers hvalueOf).mp hparts)
  · rintro ⟨kind, hmembers, hkind, hname, hoptional, helement, hkey, hvalue, hparts⟩
    have hthere : ∀ name ∈ ["kind"], (json.get? name).isSome = true := by simp [hkind]
    obtain ⟨hobject, hrequired, hothers⟩ := objectRules_iff.mpr ⟨hmembers, hthere⟩
    refine ⟨hobject, ⟨?_, hname, hoptional, List.forall_mem_nil _⟩, helement, hkey, hvalue,
      hrequired, hothers, (kindRules_eq_nil_iff hmembers hkind).mpr hparts, List.forall_mem_nil _⟩
    rw [member_eq_nil_iff, hkind]
    rintro _ ⟨⟩
    exact oneOf_eq_nil_iff.mpr ⟨kind.name, List.mem_map_of_mem (by cases kind <;> decide), rfl⟩
termination_by sizeOf json
decreasing_by exact Json.sizeOf_lt_of_get? hvalue

/-- The check of a field decides what the grammar calls one. -/
theorem decides_field : checkField.Decides IsField := by
  intro path json
  simp only [checkField, all_eq_nil_iff, List.forall_mem_cons, decides_member decides_name _ _,
    decides_member decides_type _ _, decides_member decides_tag _ _,
    decides_member decides_optionalText _ _, decides_member decides_integral _ _]
  constructor
  · rintro ⟨hobject, hname, htype, htag, -, hdoc, hdeprecated, hline, hrequired, hothers, -⟩
    obtain ⟨hmembers, hthere⟩ := objectRules_iff.mp ⟨hobject, hrequired, hothers⟩
    exact
      { members := hmembers
        name := has_iff.mpr ⟨hthere "name" (by simp), hname⟩
        type := has_iff.mpr ⟨hthere "type" (by simp), htype⟩
        tag := htag
        doc := hdoc
        deprecated := hdeprecated
        line := hline }
  · intro h
    have hname := has_iff.mp h.name
    have htype := has_iff.mp h.type
    have hthere : ∀ name ∈ ["name", "type"], (json.get? name).isSome = true := by
      simp [hname.1, htype.1]
    obtain ⟨hobject, hrequired, hothers⟩ := objectRules_iff.mpr ⟨h.members, hthere⟩
    have hdefault : member "default" anything path json = [] :=
      member_eq_nil_iff.mpr fun _ _ => rfl
    exact ⟨hobject, hname.2, htype.2, h.tag, hdefault, h.doc, h.deprecated, h.line, hrequired,
      hothers, List.forall_mem_nil _⟩

/-- The check of a struct decides what the grammar calls one. -/
theorem decides_struct : checkStruct.Decides IsStruct := by
  intro path json
  simp only [checkStruct, all_eq_nil_iff, List.forall_mem_cons, decides_member decides_name _ _,
    decides_member (decides_arrayOf decides_field) _ _, decides_member decides_encodings _ _,
    decides_member decides_flag _ _, decides_member decides_optionalText _ _,
    decides_member decides_integral _ _]
  constructor
  · rintro ⟨hobject, hname, hfields, hencodings, hcompact, hreadonly, hdoc, hdeprecated, hline,
      hrequired, hothers, -⟩
    obtain ⟨hmembers, hthere⟩ := objectRules_iff.mp ⟨hobject, hrequired, hothers⟩
    exact
      { members := hmembers
        name := has_iff.mpr ⟨hthere "name" (by simp), hname⟩
        fields := has_iff.mpr ⟨hthere "fields" (by simp), hfields⟩
        encodings := has_iff.mpr ⟨hthere "encodings" (by simp), hencodings⟩
        compact := hcompact
        readonly := hreadonly
        doc := hdoc
        deprecated := hdeprecated
        line := hline }
  · intro h
    have hname := has_iff.mp h.name
    have hfields := has_iff.mp h.fields
    have hencodings := has_iff.mp h.encodings
    have hthere : ∀ name ∈ ["name", "fields", "encodings"], (json.get? name).isSome = true := by
      simp [hname.1, hfields.1, hencodings.1]
    obtain ⟨hobject, hrequired, hothers⟩ := objectRules_iff.mpr ⟨h.members, hthere⟩
    exact ⟨hobject, hname.2, hfields.2, hencodings.2, h.compact, h.readonly, h.doc, h.deprecated,
      h.line, hrequired, hothers, List.forall_mem_nil _⟩

/-- The check of a module decides what the grammar calls one. -/
theorem decides_module : checkModule.Decides IsModule := by
  intro path json
  simp only [checkModule, all_eq_nil_iff, List.forall_mem_cons, decides_member decides_text _ _,
    decides_member (decides_arrayOf decides_struct) _ _, decides_member decides_optionalText _ _]
  constructor
  · rintro ⟨hobject, hname, hdoc, hstructs, hrequired, hothers, -⟩
    obtain ⟨hmembers, hthere⟩ := objectRules_iff.mp ⟨hobject, hrequired, hothers⟩
    exact
      { members := hmembers
        name := has_iff.mpr ⟨hthere "name" (by simp), hname⟩
        structs := has_iff.mpr ⟨hthere "structs" (by simp), hstructs⟩
        doc := hdoc }
  · intro h
    have hname := has_iff.mp h.name
    have hstructs := has_iff.mp h.structs
    have hthere : ∀ name ∈ ["name", "structs"], (json.get? name).isSome = true := by
      simp [hname.1, hstructs.1]
    obtain ⟨hobject, hrequired, hothers⟩ := objectRules_iff.mpr ⟨h.members, hthere⟩
    exact ⟨hobject, hname.2, h.doc, hstructs.2, hrequired, hothers, List.forall_mem_nil _⟩

/-- The checks find nothing exactly in documents. -/
theorem violations_eq_nil_iff_isDocument {json : Json} :
    violations json = [] ↔ IsDocument json := by
  rw [violations_eq_nil_iff]
  simp only [checkDocument, all_eq_nil_iff, List.forall_mem_cons,
    decides_member (decides_arrayOf decides_module) _ _]
  have hobject : Check.type [.object] [] json = [] ↔ ∃ members, json = .object members := by
    cases json <;> simp [type_eq_nil_iff, ValueType.holds]
  rw [hobject]
  constructor
  · rintro ⟨⟨members, rfl⟩, hmodules, hrequired, -⟩
    have hthere := required_eq_nil_iff.mp hrequired members rfl "modules" List.mem_cons_self
    exact { object := ⟨members, rfl⟩, modules := has_iff.mpr ⟨hthere, hmodules⟩ }
  · intro h
    have hmodules := has_iff.mp h.modules
    refine ⟨h.object, hmodules.2, required_eq_nil_iff.mpr ?_, List.forall_mem_nil _⟩
    simp [hmodules.1]

end Document

end SliceRecords
