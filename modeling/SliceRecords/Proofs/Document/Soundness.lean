import SliceRecords.Layout
import SliceRecords.Proofs.Document.Types

/-!
# What a loaded model promises

The document grammar is checked before anything is built, so a model has only fields with
well-formed types and integral tags. Main statement: `Document.isSound_of_load`.
-/

namespace SliceRecords

open Document Check

namespace Number

/-- A number that equals an integer has a place in the order of numbers. -/
theorem isOrdered_of_toInt? {number : Number} (h : number.toInt?.isSome = true) :
    number.isOrdered = true := by
  unfold isOrdered
  rw [bne_iff_ne]
  rintro rfl
  cases h

end Number

namespace Field

/-- A field as documents give it: its type is well-formed and its tag, if it
has one, is an integer. -/
structure IsSound (field : Field) : Prop where
  wellFormed : field.type.WellFormed
  integral : ∀ tag, field.tag = some tag → tag.toInt?.isSome = true

/-- The tag of a sound field has an order. -/
theorem IsSound.hasOrderedTag {field : Field} (h : field.IsSound) : field.hasOrderedTag = true := by
  unfold Field.hasOrderedTag
  cases htag : field.tag with
  | none => rfl
  | some tag => exact Number.isOrdered_of_toInt? (h.integral tag htag)

/-- A field that is built has the type and the tag that its members give. -/
theorem of_ofJson_eq_ok {file : Option String} {json : Json} {field : Field}
    (h : Field.ofJson file json = .ok field) :
    (∃ part, json.get? "type" = some part ∧ TypeRef.ofJson part = .ok field.type) ∧
      ∃ name, tagOfJson name json = .ok field.tag := by
  unfold Field.ofJson at h
  simp only at h
  split at h
  · rename_i part hpart
    simp only [Result.bind_eq_ok_iff] at h
    obtain ⟨type, htype, tag, htag, h⟩ := h
    split at h
    · cases h
      exact ⟨⟨part, hpart, htype⟩, _, htag⟩
    · cases h
  · cases h

/-- The tag of a field is the number that its member is. -/
theorem get?_tag_of_tagOfJson {name : String} {json : Json} {tag : Number}
    (h : tagOfJson name json = .ok (some tag)) : json.get? "tag" = some (.number tag) := by
  unfold tagOfJson at h
  split at h
  · cases h
  · rename_i value hvalue
    split at h
    · rename_i number hnumber
      cases h
      cases value <;> simp only [Json.number?, Option.some.injEq, reduceCtorEq] at hnumber
      subst hnumber
      unfold Json.getSome? at hvalue
      split at hvalue
      · cases hvalue
      · exact hvalue
    · cases h

/-- A field that is built from a part of a document which passes the grammar is sound. -/
theorem isSound_of_checkField {path : Path} {file : Option String} {json : Json} {field : Field}
    (hpasses : checkField path json = []) (h : Field.ofJson file json = .ok field) :
    field.IsSound := by
  obtain ⟨⟨part, hpart, htype⟩, name, htag⟩ := of_ofJson_eq_ok h
  have hchecks := all_eq_nil_iff.mp hpasses
  constructor
  · have htypePasses := of_member_eq_nil (hchecks (member "type" checkType) (by simp)) hpart
    exact TypeRef.wellFormed_of_checkType htypePasses htype
  · intro tag heq
    rw [heq] at htag
    have htagPasses := of_member_eq_nil
      (hchecks (member "tag" (all [Check.type [.integer, .null], notNegative])) (by simp))
      (get?_tag_of_tagOfJson htag)
    have hkind := all_eq_nil_iff.mp htagPasses (Check.type [.integer, .null]) (by simp)
    simpa [type_eq_nil_iff, ValueType.holds] using hkind

end Field

namespace Struct

/-- The fields of a struct that is built are built from the items of its list of fields. -/
theorem fields_of_ofJson_eq_ok {moduleName file : Option String} {json : Json} {struct : Struct}
    (h : Struct.ofJson moduleName file json = .ok struct) :
    ((json.get? "fields").getD .null).items.mapM (Field.ofJson file) = .ok struct.fields := by
  unfold Struct.ofJson at h
  simp only [Result.bind_eq_ok_iff] at h
  obtain ⟨fields, hfields, encodings, _, h⟩ := h
  split at h
  · cases h
    exact hfields
  · cases h

/-- All fields of a struct that passes its check are sound. -/
theorem isSound_of_checkStruct {path : Path} {moduleName file : Option String} {json : Json}
    {struct : Struct} (hpasses : checkStruct path json = [])
    (h : Struct.ofJson moduleName file json = .ok struct) :
    ∀ field ∈ struct.fields, field.IsSound := by
  intro field hfield
  obtain ⟨item, hitem, hbuilt⟩ := Result.exists_of_mem_mapM (fields_of_ofJson_eq_ok h) hfield
  have hfields := all_eq_nil_iff.mp hpasses
    (member "fields" (all [type [.array], items checkField])) (by simp)
  obtain ⟨place, hplace⟩ := items_of_member hfields item hitem
  exact Field.isSound_of_checkField hplace hbuilt

end Struct

namespace Document

/-- The structs of a module that is built are built from the items of its list of structs. -/
theorem structs_of_buildModule_eq_ok {file : Option String} {json : Json} {module : Module}
    (h : buildModule file json = .ok module) :
    ∃ name, ((json.get? "structs").getD .null).items.mapM (buildStruct name file) =
      .ok module.structs := by
  unfold buildModule at h
  simp only [Result.bind_eq_ok_iff, Result.pure_eq_ok_iff] at h
  obtain ⟨structs, hstructs, rfl⟩ := h
  exact ⟨_, hstructs⟩

/-- All fields of all structs of a module that passes its check are sound. -/
theorem isSound_of_checkModule {path : Path} {file : Option String} {json : Json} {module : Module}
    (hpasses : checkModule path json = []) (h : buildModule file json = .ok module) :
    ∀ struct ∈ module.structs, ∀ field ∈ struct.fields, field.IsSound := by
  intro struct hstruct
  obtain ⟨name, hstructs⟩ := structs_of_buildModule_eq_ok h
  obtain ⟨item, hitem, hbuilt⟩ := Result.exists_of_mem_mapM hstructs hstruct
  have hchecked := all_eq_nil_iff.mp hpasses
    (member "structs" (all [type [.array], items checkStruct])) (by simp)
  obtain ⟨place, hplace⟩ := items_of_member hchecked item hitem
  exact Struct.isSound_of_checkStruct hplace (Result.mapError_eq_ok_iff.mp hbuilt)

/-- A value that loads has no violations, and its modules are built from the items of
its list of modules. -/
theorem of_load_eq_ok {file absoluteFile : Option String} {json : Json} {model : Model}
    (h : load file absoluteFile json = .ok model) :
    violations json = [] ∧
      ((json.get? "modules").getD .null).items.mapM (buildModule file) = .ok model.modules := by
  unfold load at h
  simp only [Result.bind_eq_ok_iff, Result.pure_eq_ok_iff] at h
  obtain ⟨_, hvalid, modules, hmodules, rfl⟩ := h
  refine ⟨?_, hmodules⟩
  unfold validate at hvalid
  split at hvalid
  · assumption
  · cases hvalid

/-- All fields of a model that is loaded are sound. -/
theorem isSound_of_load {file absoluteFile : Option String} {json : Json} {model : Model}
    (h : load file absoluteFile json = .ok model) :
    ∀ module ∈ model.modules, ∀ struct ∈ module.structs, ∀ field ∈ struct.fields,
      field.IsSound := by
  intro module hmodule
  obtain ⟨hvalid, hmodules⟩ := of_load_eq_ok h
  obtain ⟨item, hitem, hbuilt⟩ := Result.exists_of_mem_mapM hmodules hmodule
  have hchecked := all_eq_nil_iff.mp (violations_eq_nil_iff.mp hvalid)
    (member "modules" (all [type [.array], items checkModule])) (by simp)
  obtain ⟨place, hplace⟩ := items_of_member hchecked item hitem
  exact isSound_of_checkModule hplace hbuilt

end Document

end SliceRecords
