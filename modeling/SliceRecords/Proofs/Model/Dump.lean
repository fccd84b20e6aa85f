import Mathlib.Data.List.Forall2
import Mathlib.Data.Option.Basic
import SliceRecords.Model.Dump
import SliceRecords.Proofs.Document.NormalForm
import SliceRecords.Proofs.Json.Equality

/-!
# Faithful dumps

The value that a dump writes for a model holds all of the model: two models that are loaded have
equal values exactly if they agree in every file, name, type, tag, default value, documentation and
line, whatever notion of equality of values is used. Main statement: `Model.toJson_eq_iff_agree`.
-/

namespace SliceRecords

section Agree

variable (eq : Json → Json → Prop) (sameNumber : Number → Number → Prop)

/-- Fields that agree in all that they hold, with notions of equality for default
values and for numbers. -/
@[mk_iff]
structure Field.Agree (a b : Field) : Prop where
  name : a.name = b.name
  type : a.type = b.type
  tag : Option.Rel sameNumber a.tag b.tag
  defaultValue : Option.Rel eq a.defaultValue b.defaultValue
  doc : a.doc = b.doc
  deprecated : a.deprecated = b.deprecated
  file : a.origin.file = b.origin.file
  line : Option.Rel sameNumber a.origin.line b.origin.line

/-- Structs that agree in all that they hold, field by field. -/
@[mk_iff]
structure Struct.Agree (a b : Struct) : Prop where
  name : a.name = b.name
  fields : List.Forall₂ (Field.Agree eq sameNumber) a.fields b.fields
  encodings : a.encodings = b.encodings
  isCompact : a.isCompact = b.isCompact
  moduleName : a.moduleName = b.moduleName
  doc : a.doc = b.doc
  isReadonly : a.isReadonly = b.isReadonly
  deprecated : a.deprecated = b.deprecated
  file : a.origin.file = b.origin.file
  line : Option.Rel sameNumber a.origin.line b.origin.line

/-- Modules that agree struct by struct. -/
@[mk_iff]
structure Module.Agree (a b : Module) : Prop where
  name : a.name = b.name
  structs : List.Forall₂ (Struct.Agree eq sameNumber) a.structs b.structs
  doc : a.doc = b.doc

/-- Models of one file that agree module by module. -/
@[mk_iff]
structure Model.Agree (a b : Model) : Prop where
  file : a.file = b.file
  modules : List.Forall₂ (Module.Agree eq sameNumber) a.modules b.modules

end Agree

/-- A default value that is there is not the null value, which stands for its absence. -/
def Field.HasShownDefault (field : Field) : Prop :=
  field.defaultValue ≠ some .null

/-- A default value that is built is not null. -/
theorem Field.hasShownDefault_of_ofJson {file : Option String} {json : Json} {field : Field}
    (h : Field.ofJson file json = .ok field) : field.HasShownDefault := by
  unfold Field.ofJson at h
  simp only at h
  split at h
  · simp only [Result.bind_eq_ok_iff] at h
    obtain ⟨type, _, tag, _, h⟩ := h
    split at h
    · cases h
      exact Json.getSome?_ne_some_null
    · cases h
  · cases h

/-- Loading leaves out default values that are null. -/
theorem Document.hasShownDefault_of_load {file absoluteFile : Option String} {json : Json}
    {model : Model} (h : load file absoluteFile json = .ok model) :
    ∀ module ∈ model.modules,
      ∀ struct ∈ module.structs, ∀ field ∈ struct.fields, field.HasShownDefault := by
  intro module hmodule struct hstruct field hfield
  obtain ⟨moduleItem, _, hmoduleBuilt⟩ := Result.exists_of_mem_mapM (of_load_eq_ok h).2 hmodule
  obtain ⟨name, hstructs⟩ := structs_of_buildModule_eq_ok hmoduleBuilt
  obtain ⟨structItem, _, hstructBuilt⟩ := Result.exists_of_mem_mapM hstructs hstruct
  have hfields := Struct.fields_of_ofJson_eq_ok (Result.mapError_eq_ok_iff.mp hstructBuilt)
  obtain ⟨fieldItem, _, hfieldBuilt⟩ := Result.exists_of_mem_mapM hfields hfield
  exact Field.hasShownDefault_of_ofJson hfieldBuilt

/-- Lists that are mapped agree if what they are made from does. -/
theorem forall₂_map_iff_of_mem {α β : Type} {f : α → β} {R : β → β → Prop} {S : α → α → Prop}
    {xs ys : List α} (h : ∀ x ∈ xs, ∀ y ∈ ys, R (f x) (f y) ↔ S x y) :
    List.Forall₂ R (xs.map f) (ys.map f) ↔ List.Forall₂ S xs ys := by
  induction xs generalizing ys with
  | nil => cases ys <;> simp
  | cons x xs ih =>
    cases ys with
    | nil => simp
    | cons y ys =>
      rw [List.map_cons, List.map_cons, List.forall₂_cons, List.forall₂_cons,
        h x List.mem_cons_self y List.mem_cons_self,
        ih fun a ha b hb => h a (List.mem_cons_of_mem x ha) b (List.mem_cons_of_mem y hb)]

namespace Json.IsEquality

variable {eq : Json → Json → Prop} {sameNumber : Number → Number → Prop}
  (h : IsEquality eq sameNumber)
include h

/-- Texts have equal values exactly if they are the same, missing ones included. -/
theorem ofText?_iff (a b : Option String) : eq (.ofText? a) (.ofText? b) ↔ a = b := by
  cases a <;> cases b <;> simp [ofText?, h.null_left, h.null_right, h.string]

/-- Numbers have equal values exactly if they are equal, missing ones included. -/
theorem ofNumber?_iff (a b : Option Number) :
    eq (.ofNumber? a) (.ofNumber? b) ↔ Option.Rel sameNumber a b := by
  cases a <;> cases b <;> simp [ofNumber?, h.null_left, h.null_right, h.number]

/-- Values with null in place of a missing one are equal exactly if both are
missing or they are equal. -/
theorem getD_null_iff {a b : Option Json} (ha : a ≠ some null) (hb : b ≠ some null) :
    eq (a.getD null) (b.getD null) ↔ Option.Rel eq a b := by
  cases a <;> cases b <;> simp_all [h.null_left, h.null_right]

/-- Types with equal values are the same type. -/
theorem type_iff (a b : TypeRef) : eq a.toJson b.toJson ↔ a = b := by
  induction a generalizing b with
  | mk kind name optional element key value helement hkey hvalue =>
    obtain ⟨kind', name', optional', element', key', value'⟩ := b
    have part {a? : Option TypeRef} (hpart : ∀ p, a? = some p → ∀ b, eq p.toJson b.toJson ↔ p = b)
        (b? : Option TypeRef) : eq (TypeRef.partToJson a?) (TypeRef.partToJson b?) ↔ a? = b? := by
      have hnull (p : TypeRef) : p.toJson ≠ null := by
        cases p
        simp [TypeRef.toJson]
      cases a? with
      | none => cases b? <;> simp [TypeRef.partToJson, h.null_left, hnull]
      | some p => cases b? <;> simp [TypeRef.partToJson, h.null_right, hnull, hpart p rfl]
    rw [TypeRef.toJson, TypeRef.toJson, h.object]
    · simp only [List.forall₂_cons, List.forall₂_nil_left_iff, h.string, h.bool, h.ofText?_iff,
        part helement, part hkey, part hvalue, TypeKind.name_injective.eq_iff, TypeRef.mk.injEq,
        and_true]
    · rfl
    · simp

/-- Fields whose default values show have equal values exactly if they agree. -/
theorem field_iff {a b : Field} (ha : a.HasShownDefault) (hb : b.HasShownDefault) :
    eq a.toJson b.toJson ↔ a.Agree eq sameNumber b := by
  rw [Field.toJson, Field.toJson, Field.agree_iff, h.object]
  · simp only [List.forall₂_cons, List.forall₂_nil_left_iff, h.string, h.type_iff, h.ofText?_iff,
      h.ofNumber?_iff, h.getD_null_iff ha hb, and_true]
  · rfl
  · simp

/-- Sets of encodings are listed in one order. -/
theorem encodings_iff (a b : SupportedEncodings) :
    List.Forall₂ eq (a.toList.map fun encoding => .string encoding.name)
      (b.toList.map fun encoding => .string encoding.name) ↔ a = b := by
  have hnames (x y : Encoding) : eq (.string x.name) (.string y.name) ↔ x = y := by
    rw [h.string, Encoding.name_injective.eq_iff]
  rw [forall₂_map_iff_of_mem fun x _ y _ => hnames x y, List.forall₂_eq_eq_eq]
  refine ⟨fun hlists => ?_, fun hsame => by rw [hsame]⟩
  have hread := congrArg SupportedEncodings.ofList? hlists
  rwa [SupportedEncodings.ofList?_toList, SupportedEncodings.ofList?_toList,
    Option.some.injEq] at hread

/-- So do structs of such fields. -/
theorem struct_iff {a b : Struct} (ha : ∀ field ∈ a.fields, field.HasShownDefault)
    (hb : ∀ field ∈ b.fields, field.HasShownDefault) :
    eq a.toJson b.toJson ↔ a.Agree eq sameNumber b := by
  have hfields := forall₂_map_iff_of_mem fun x hx y hy => h.field_iff (ha x hx) (hb y hy)
  rw [Struct.toJson, Struct.toJson, Struct.agree_iff, h.object]
  · simp only [List.forall₂_cons, List.forall₂_nil_left_iff, h.string, h.array, h.bool,
      h.encodings_iff, h.ofText?_iff, h.ofNumber?_iff, hfields, and_true]
  · rfl
  · simp

/-- So do modules of such structs. -/
theorem module_iff {a b : Module}
    (ha : ∀ struct ∈ a.structs, ∀ field ∈ struct.fields, field.HasShownDefault)
    (hb : ∀ struct ∈ b.structs, ∀ field ∈ struct.fields, field.HasShownDefault) :
    eq a.toJson b.toJson ↔ a.Agree eq sameNumber b := by
  have hstructs := forall₂_map_iff_of_mem fun x hx y hy => h.struct_iff (ha x hx) (hb y hy)
  rw [Module.toJson, Module.toJson, Module.agree_iff, h.object]
  · simp only [List.forall₂_cons, List.forall₂_nil_left_iff, h.string, h.array, h.ofText?_iff,
      hstructs, and_true]
  · rfl
  · simp

/-- The value of a model whose default values show is equal to that of another one
exactly if they agree. -/
theorem model_iff {a b : Model}
    (ha : ∀ module ∈ a.modules,
        ∀ struct ∈ module.structs, ∀ field ∈ struct.fields, field.HasShownDefault)
    (hb : ∀ module ∈ b.modules,
        ∀ struct ∈ module.structs, ∀ field ∈ struct.fields, field.HasShownDefault) :
    eq a.toJson b.toJson ↔ a.Agree eq sameNumber b := by
  have hmodules := forall₂_map_iff_of_mem fun x hx y hy => h.module_iff (ha x hx) (hb y hy)
  rw [Model.toJson, Model.toJson, Model.agree_iff, h.object]
  · simp only [List.forall₂_cons, List.forall₂_nil_left_iff, h.array, h.ofText?_iff, hmodules,
      and_true]
  · rfl
  · simp

end Json.IsEquality

/-- The value that is written for a loaded model is equal to that of another one exactly if the
models agree, up to the order of members in default values: with numbers told apart as they are
written, and with numbers compared by value. -/
theorem Model.toJson_eq_iff_agree {file absoluteFile otherFile otherAbsoluteFile : Option String}
    {first second : Json} {m n : Model} (hm : Document.load file absoluteFile first = .ok m)
    (hn : Document.load otherFile otherAbsoluteFile second = .ok n) :
    Model.dump (some m) = m.toJson.sorted.printed ∧
      (m.toJson.sorted = n.toJson.sorted ↔ m.Agree (fun a b => a.sorted = b.sorted) Eq n) ∧
      (m.toJson.same n.toJson = true ↔
        m.Agree (fun a b => a.same b = true) (fun a b => a.same b = true) n) := by
  have hshown := Document.hasShownDefault_of_load hm
  have hshown' := Document.hasShownDefault_of_load hn
  exact ⟨(Json.printed_sorted _).symm, Json.isEquality_sorted.model_iff hshown hshown',
    Json.isEquality_same.model_iff hshown hshown'⟩

/-- A document of one field with a default value. -/
def defaultDocument (default : Json) : Json :=
  let type : Json := .object [("kind", .string "custom"), ("name", .string "Settings")]
  let field : Json := .object [("name", .string "settings"), ("type", type), ("default", default)]
  let struct : Json :=
    .object [("name", .string "Options"), ("fields", .array [field]),
      ("encodings", .array [.string "Slice2"])]
  .object [("modules", .array [.object [("name", .string "Demo"), ("structs", .array [struct])]])]

/-- The model of such a document. -/
def defaultModel (default : Json) : Model :=
  let type : TypeRef := { kind := .custom, name := some "Settings" }
  let field : Field := { name := "settings", type, defaultValue := some default }
  let struct : Struct :=
    { name := "Options", fields := [field], encodings := .only .slice2, moduleName := some "Demo" }
  { file := none, modules := [{ name := "Demo", structs := [struct] }] }

/-- A document of one field with a default value that is not null is loaded with that value. -/
theorem Document.load_defaultDocument (default : Json) (hnull : default ≠ .null)
    (hvalid : violations (defaultDocument default) = []) :
    load none none (defaultDocument default) = .ok (defaultModel default) := by
  let type : Json := .object [("kind", .string "custom"), ("name", .string "Settings")]
  let field : Json :=
    .object [("name", .string "settings"), ("type", type), ("default", default)]
  let struct : Json :=
    .object [("name", .string "Options"), ("fields", .array [field]),
      ("encodings", .array [.string "Slice2"])]
  let module : Json := .object [("name", .string "Demo"), ("structs", .array [struct])]
  have htype : TypeRef.ofJson type = .ok { kind := .custom, name := some "Settings" } := by
    rw [TypeRef.ofJson_eq]
    rfl
  have hdefault : field.getSome? "default" = some default := by
    cases default with
    | null => exact (hnull rfl).elim
    | _ => rfl
  have hmodule : [module].mapM (buildModule none) = .ok (defaultModel default).modules := by
    refine Result.mapM_eq_ok_iff.mpr (.cons ?_ .nil)
    have hstructs : [struct].mapM (buildStruct "Demo" none) =
        .ok ((defaultModel default).modules.flatMap Module.structs) := by
      refine Result.mapM_eq_ok_iff.mpr (.cons ?_ .nil)
      have hfields : [field].mapM (Field.ofJson none) =
          .ok (((defaultModel default).modules.flatMap Module.structs).flatMap Struct.fields) := by
        refine Result.mapM_eq_ok_iff.mpr (.cons ?_ .nil)
        rw [Field.ofJson, hdefault]
        change Except.bind (TypeRef.ofJson type) _ = _
        rw [htype]
        rfl
      unfold buildStruct Struct.ofJson
      change Except.mapError _ (Except.bind ([field].mapM (Field.ofJson none)) _) = _
      rw [hfields]
      rfl
    unfold buildModule
    change Except.bind ([struct].mapM (buildStruct "Demo" none)) _ = _
    rw [hstructs]
    rfl
  have hvalidate : validate (defaultDocument default) = .ok () := by rw [validate, hvalid]
  rw [load, hvalidate]
  change Except.bind ([module].mapM (buildModule none)) _ = _
  rw [hmodule]
  rfl

/-- Two such models agree exactly if their default values are equal. -/
theorem Model.agree_defaultModel {eq : Json → Json → Prop} {sameNumber : Number → Number → Prop}
    {a b : Json} : (defaultModel a).Agree eq sameNumber (defaultModel b) ↔ eq a b := by
  simp [defaultModel, Model.agree_iff, Module.agree_iff, Struct.agree_iff, Field.agree_iff]

/-- Members of a default value in another order make no difference to a dump, and a number that is
written with a point makes one unless numbers are compared by value. -/
theorem Model.toJson_eq_iff_agree_defaultModel :
    let plain : Json := .object [("a", .null), ("b", .number (.integer 1))]
    let swapped : Json := .object [("b", .number (.integer 1)), ("a", .null)]
    let pointed : Json :=
      .object [("a", .null), ("b", .number (.double (.ofDecimal false 10 (-1))))]
    (defaultModel plain).toJson.sorted = (defaultModel swapped).toJson.sorted ∧
      (defaultModel plain).toJson.sorted ≠ (defaultModel pointed).toJson.sorted ∧
      (defaultModel plain).toJson.same (defaultModel pointed).toJson = true := by
  intro plain swapped pointed
  have hplain := Document.load_defaultDocument plain nofun (by decide +kernel)
  have hswapped := Document.load_defaultDocument swapped nofun (by decide +kernel)
  have hpointed := Document.load_defaultDocument pointed nofun (by decide +kernel)
  refine ⟨?_, ?_, ?_⟩
  · rw [(Model.toJson_eq_iff_agree hplain hswapped).2.1, Model.agree_defaultModel]
    exact Json.sorted_object_of_perm (.swap _ _ []) (by decide)
  · rw [ne_eq, (Model.toJson_eq_iff_agree hplain hpointed).2.1, Model.agree_defaultModel]
    change ¬(Json.object _).sorted = (Json.object _).sorted
    rw [Json.isEquality_sorted.object]
    · simp [Json.sorted]
    · rfl
    · simp
  · rw [(Model.toJson_eq_iff_agree hplain hpointed).2.2, Model.agree_defaultModel]
    decide +kernel

end SliceRecords
