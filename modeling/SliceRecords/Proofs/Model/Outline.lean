import SliceRecords.Model.Outline

/-!
# Outlines of sound models

The outline of a type reads the parts that the kind of the type needs, at every depth, so a model of
structs with well-formed field types has an outline. Main statement: `Model.exists_outline`.
-/

namespace SliceRecords

/-- A list of lookups has a result if each of them has one. -/
theorem exists_mapM_eq_some {α β : Type} {f : α → Option β} {xs : List α}
    (h : ∀ x ∈ xs, ∃ y, f x = some y) : ∃ ys, xs.mapM f = some ys := by
  induction xs with
  | nil => exact ⟨[], rfl⟩
  | cons x xs ih =>
    obtain ⟨y, hy⟩ := h x List.mem_cons_self
    obtain ⟨ys, hys⟩ := ih fun z hz => h z (List.mem_cons_of_mem x hz)
    exact ⟨y :: ys, by simp [List.mapM_cons, hy, hys]⟩

/-- A well-formed type has an outline. -/
theorem TypeRef.WellFormed.exists_outline {type : TypeRef} (h : type.WellFormed) :
    ∃ text, type.outline? = some text := by
  induction h with
  | primitive keyword optional element key value => simp [TypeRef.outline?]
  | sequence name optional element key value _ ih =>
    obtain ⟨text, htext⟩ := ih
    simp [TypeRef.outline?, TypeRef.partOutline?, htext]
  | dictionary name optional element key value _ _ ihkey ihvalue =>
    obtain ⟨keyText, hkey⟩ := ihkey
    obtain ⟨valueText, hvalue⟩ := ihvalue
    simp [TypeRef.outline?, TypeRef.partOutline?, hkey, hvalue]
  | named kind name optional element key value h₁ h₂ h₃ =>
    cases kind <;> simp_all [TypeRef.outline?]

/-- A struct with fields of well-formed types has an outline. -/
theorem Struct.exists_outline {struct : Struct}
    (h : ∀ field ∈ struct.fields, field.type.WellFormed) :
    ∃ lines, struct.outline? = some lines := by
  have hfields : ∀ field ∈ struct.fields, ∃ line, field.outline? = some line := by
    intro field hfield
    obtain ⟨text, htext⟩ := (h field hfield).exists_outline
    simp [Field.outline?, htext]
  obtain ⟨lines, hlines⟩ := exists_mapM_eq_some hfields
  simp [Struct.outline?, hlines]

/-- A model of structs with well-formed field types has an outline. -/
theorem Model.exists_outline {model : Model}
    (h : ∀ module ∈ model.modules, ∀ struct ∈ module.structs, ∀ field ∈ struct.fields,
      field.type.WellFormed) : ∃ text, model.outline? = some text := by
  have hmodules : ∀ module ∈ model.modules, ∃ lines, module.outline? = some lines := by
    intro module hmodule
    obtain ⟨lines, hlines⟩ := exists_mapM_eq_some fun struct hstruct =>
      Struct.exists_outline (h module hmodule struct hstruct)
    simp [Module.outline?, hlines]
  obtain ⟨lines, hlines⟩ := exists_mapM_eq_some hmodules
  simp [Model.outline?, hlines]

end SliceRecords
