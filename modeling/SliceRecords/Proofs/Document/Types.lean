import SliceRecords.Proofs.Document.Checks
import SliceRecords.Proofs.Result

/-!
# Types of documents

A type of a document is built from its members part by part, and one that passes the document
grammar is well-formed at every depth. Main statement: `TypeRef.wellFormed_of_checkType`.
-/

namespace SliceRecords

open Document Check

namespace Json

/-- A member that is a text is the text of the member. -/
theorem textOf?_of_get? {json : Json} {name text : String}
    (h : json.get? name = some (.string text)) : (json.getSome? name).bind string? = some text := by
  simp [getSome?, h, string?]

end Json

namespace TypeKind

/-- A kind is found under no name but its own. -/
theorem name_of_ofName? {name : String} {kind : TypeKind} (h : ofName? name = some kind) :
    name = kind.name := by
  have hname := List.find?_some h
  simpa [eq_comm] using hname

end TypeKind

namespace TypeRef

/-- A kind is read off an object, from a member that is its name. -/
theorem kindOfJson_eq_ok {json : Json} {kind : TypeKind} (h : kindOfJson json = .ok kind) :
    (∃ members, json = .object members) ∧ json.get? "kind" = some (.string kind.name) := by
  unfold kindOfJson at h
  split at h
  · cases h
  · rename_i members value hvalue
    split at h
    · rename_i read hread
      cases h
      obtain ⟨name, hname, hkind⟩ := Option.bind_eq_some_iff.mp hread
      refine ⟨⟨members, rfl⟩, ?_⟩
      cases value <;> simp only [Json.string?, Option.some.injEq, reduceCtorEq] at hname
      subst hname
      rw [hvalue, TypeKind.name_of_ofName? hkind]
    · cases h
  · cases h

/-- The type that a part describes, if there is a part. -/
def partOfJson : Option Json → Except StructError (Option TypeRef)
  | some part => some <$> ofJson part
  | none => pure none

/-- A part is built exactly where there is one. -/
theorem partOfJson_eq_ok {part? : Option Json} {type? : Option TypeRef}
    (h : partOfJson part? = .ok type?) :
    Option.Rel (fun part type => ofJson part = .ok type) part? type? := by
  cases part? with
  | none =>
    rw [partOfJson, Result.pure_eq_ok_iff] at h
    subst h
    exact .none
  | some part =>
    rw [partOfJson, Result.map_eq_ok_iff] at h
    obtain ⟨type, htype, rfl⟩ := h
    exact .some htype

/-- A type is built from its kind, then its parts. -/
theorem ofJson_eq (json : Json) :
    ofJson json = (do
      let kind ← kindOfJson json
      let element ← partOfJson (json.get? "element")
      let key ← partOfJson (json.get? "key")
      let value ← partOfJson (json.get? "value")
      return {
        kind, element, key, value
        name := (json.getSome? "name").bind Json.string?
        optional := ((json.getSome? "optional").bind Json.bool?).getD false }) := by
  rw [ofJson]
  congr 1
  funext kind
  simp only [partOfJson]
  split <;> split <;> split <;> simp_all

/-- A type that is built has the kind and the name that its members give, and its parts are built
from the parts that are there. -/
theorem of_ofJson_eq_ok {json : Json} {type : TypeRef} (h : ofJson json = .ok type) :
    kindOfJson json = .ok type.kind ∧ type.name = (json.getSome? "name").bind Json.string? ∧
      Option.Rel (fun part type => ofJson part = .ok type) (json.get? "element") type.element ∧
      Option.Rel (fun part type => ofJson part = .ok type) (json.get? "key") type.key ∧
      Option.Rel (fun part type => ofJson part = .ok type) (json.get? "value") type.value := by
  rw [ofJson_eq] at h
  simp only [Result.bind_eq_ok_iff, Result.pure_eq_ok_iff] at h
  obtain ⟨kind, hkind, element, helement, key, hkey, value, hvalue, rfl⟩ := h
  exact ⟨hkind, rfl, partOfJson_eq_ok helement, partOfJson_eq_ok hkey, partOfJson_eq_ok hvalue⟩

/-- A part that the kind of a type requires is built, from a part of the
document that passes too. -/
theorem exists_part_of_required {path : Path} {json : Json} {names : List String} {name : String}
    {type? : Option TypeRef} (hobject : ∃ members, json = .object members)
    (hrequired : required names path json = []) (hname : name ∈ names)
    (hmember : member name checkType path json = [])
    (hpart : Option.Rel (fun part type => ofJson part = .ok type) (json.get? name) type?) :
    ∃ type place part, type? = some type ∧ checkType place part = [] ∧ ofJson part = .ok type := by
  obtain ⟨members, hmembers⟩ := hobject
  have hsome := required_eq_nil_iff.mp hrequired members hmembers name hname
  obtain ⟨part, hvalue⟩ := Option.isSome_iff_exists.mp hsome
  have hpasses := of_member_eq_nil hmember hvalue
  rw [hvalue] at hpart
  cases hpart with
  | some htype => exact ⟨_, _, part, rfl, hpasses, htype⟩

/-- The rule for the kinds of which a type is one applies to it. -/
theorem of_whenKind {kinds : List TypeKind} {check : Check} {path : Path} {json : Json}
    {kind : TypeKind} (hkind : json.get? "kind" = some (.string kind.name)) (hmem : kind ∈ kinds)
    (h : whenKind kinds check path json = []) : check path json = [] := by
  apply whenKind_eq_nil_iff.mp h
  simp only [kindMayBe, hkind, decide_eq_true_eq]
  exact List.mem_map_of_mem hmem

/-- A type of a kind that has a name is built with one. -/
theorem exists_name_of_required {path : Path} {json : Json}
    (hobject : ∃ members, json = .object members) (hrequired : required ["name"] path json = [])
    (hmember : member "name" (type [.string]) path json = []) :
    ∃ text, json.get? "name" = some (.string text) := by
  obtain ⟨members, hmembers⟩ := hobject
  have hsome := required_eq_nil_iff.mp hrequired members hmembers "name" List.mem_cons_self
  obtain ⟨value, hvalue⟩ := Option.isSome_iff_exists.mp hsome
  have htext := type_eq_nil_iff.mp (of_member_eq_nil hmember hvalue)
  cases value <;> simp only [List.mem_singleton, exists_eq_left, ValueType.holds,
    Bool.false_eq_true] at htext
  exact ⟨_, hvalue⟩

/-- A type that is built from a part of a document which passes the grammar is well-formed. -/
theorem wellFormed_of_checkType {path : Path} {json : Json} {type : TypeRef}
    (hpasses : checkType path json = []) (h : ofJson json = .ok type) : type.WellFormed := by
  induction type generalizing path json with
  | mk kind name optional element key value ihelement ihkey ihvalue =>
    obtain ⟨hkindOf, hname, helement, hkey, hvalue⟩ := of_ofJson_eq_ok h
    obtain ⟨hobject, hkind⟩ := kindOfJson_eq_ok hkindOf
    rw [checkType_eq, all_eq_nil_iff] at hpasses
    simp only [List.forall_mem_cons] at hpasses
    obtain ⟨_, hattributes, htypeElement, htypeKey, htypeValue, _, _, hrules, _⟩ := hpasses
    simp only [kindRules, all_eq_nil_iff, List.forall_mem_cons] at hrules
    obtain ⟨hsequence, hdictionary, hnamedRule, hprimitive, _⟩ := hrules
    have htextual := all_eq_nil_iff.mp hattributes (member "name" (Check.type [.string])) (by simp)
    have hnamed (hmem : kind ∈ namedKinds) : ∃ text, json.get? "name" = some (.string text) :=
      exists_name_of_required hobject (of_whenKind hkind hmem hnamedRule) htextual
    dsimp only at hkind hname helement hkey hvalue
    cases kind with
    | sequence =>
      obtain ⟨type, place, part, rfl, hpart, htype⟩ := exists_part_of_required hobject
        (of_whenKind hkind List.mem_cons_self hsequence) List.mem_cons_self htypeElement helement
      exact .sequence name optional type key value (ihelement type rfl hpart htype)
    | dictionary =>
      have hboth := of_whenKind hkind List.mem_cons_self hdictionary
      obtain ⟨keyType, keyPlace, keyPart, rfl, hkeyPart, hkeyType⟩ :=
        exists_part_of_required hobject hboth (by simp) htypeKey hkey
      obtain ⟨valueType, valuePlace, valuePart, rfl, hvaluePart, hvalueType⟩ :=
        exists_part_of_required hobject hboth (by simp) htypeValue hvalue
      exact .dictionary name optional element keyType valueType
        (ihkey keyType rfl hkeyPart hkeyType) (ihvalue valueType rfl hvaluePart hvalueType)
    | primitive =>
      obtain ⟨text, htext⟩ := hnamed (by simp [namedKinds])
      have hkeyword := of_whenKind hkind List.mem_cons_self hprimitive
      obtain ⟨word, hword, heq⟩ := oneOf_eq_nil_iff.mp (of_member_eq_nil hkeyword htext)
      obtain ⟨primitive, _, rfl⟩ := List.mem_map.mp hword
      cases heq
      rw [Json.textOf?_of_get? htext] at hname
      subst hname
      exact .primitive primitive optional element key value
    | _ =>
      obtain ⟨text, htext⟩ := hnamed (by simp [namedKinds])
      rw [Json.textOf?_of_get? htext] at hname
      subst hname
      exact .named _ text optional element key value (by simp) (by simp) (by simp)

end TypeRef

end SliceRecords
