import SliceRecords.Code.SourceFile
import SliceRecords.Proofs.Code.Rendering

/-!
# Declarations for sound structs

A struct whose fields have well-formed types has a declaration in every namespace: its members, both
of its constructors and its encoding method have code. A model of such structs therefore has files.
Main statements: `exists_structDeclaration` and `exists_generate`.
-/

namespace SliceRecords

namespace Dispatch

/-- What holds of the synthesized instructions of each encoding and of what frames them, and is kept
by guards and branches, holds of the instructions of a body. -/
theorem forall_mem_body {P : Instruction → Prop} {struct : Struct} {direction : Direction}
    (hsynthesized : ∀ encoding, ∀ i ∈ Layout.synthesize struct.fields encoding direction, P i)
    (hguarded : ∀ {block : Block}, (∀ i ∈ block, P i) → P (.guarded direction block))
    (hbranch : ∀ {slice1 slice2 : Block}, (∀ i ∈ slice1, P i) → (∀ i ∈ slice2, P i) →
      P (.branch direction slice1 slice2))
    (hskip : P .skipTagged) (hmarker : P .tagEndMarker) {block : Block}
    (hblock : body struct direction = .ok block) : ∀ i ∈ block, P i := by
  simp only [body, Result.bind_eq_ok_iff, Result.pure_eq_ok_iff] at hblock
  obtain ⟨fieldBlock, hgenerate, rfl⟩ := hblock
  intro instruction hmem
  rcases List.mem_append.mp hmem with hfield | hframing
  · exact forall_mem_generate hsynthesized hguarded hbranch hgenerate instruction hfield
  · unfold Struct.framing at hframing
    split at hframing
    · cases hframing
    · cases direction with
      | decode =>
        rw [List.mem_singleton.mp hframing]
        exact hskip
      | encode =>
        rw [List.mem_singleton.mp hframing]
        exact hmarker

/-- Every struct has a body in each direction, and if the types of its fields are well-formed, all
of the body has code. -/
theorem exists_renderable_body {struct : Struct}
    (h : ∀ field ∈ struct.fields, field.type.WellFormed) (direction : Direction) :
    ∃ block, body struct direction = .ok block ∧ ∀ instruction ∈ block, instruction.Renderable := by
  obtain ⟨fieldBlock, hgenerate, _⟩ := generate_toList struct.fields struct.encodings direction
  have hbody : body struct direction = .ok (fieldBlock ++ struct.framing direction) := by
    simp [body, hgenerate]
  exact ⟨_, hbody,
    forall_mem_body (fun encoding => Layout.renderable_of_synthesize h encoding) .guarded .branch
      .skipTagged .tagEndMarker hbody⟩

end Dispatch

namespace Code

variable (namespaceName : String) {struct : Struct}

/-- A field of a well-formed type has a declaration. -/
theorem exists_fieldDeclaration {field : Field} (h : field.type.WellFormed) (struct : Struct) :
    ∃ block, fieldDeclaration namespaceName struct field = .ok block := by
  obtain ⟨text, htext⟩ := typeText_of_wellFormed namespaceName h
  simp [fieldDeclaration, htext]

/-- A field of a well-formed type has a parameter. -/
theorem exists_fieldParameter {field : Field} (h : field.type.WellFormed) (withDefault : Bool) :
    ∃ parameter, fieldParameter namespaceName field withDefault = .ok parameter := by
  obtain ⟨text, htext⟩ := typeText_of_wellFormed namespaceName h
  simp [fieldParameter, htext]

/-- A constructor can take the values of all fields, however many parameters it has already. -/
theorem exists_addFieldParameters {fields : List Field}
    (h : ∀ field ∈ fields, field.type.WellFormed) (required : Nat) (method : Method) (index : Nat) :
    ∃ complete, addFieldParameters namespaceName required method index fields = .ok complete := by
  induction fields generalizing method index with
  | nil => exact ⟨method, rfl⟩
  | cons field rest ih =>
    rw [addFieldParameters]
    apply Result.exists_bind_eq_ok
    · exact exists_fieldParameter namespaceName (h field List.mem_cons_self) _
    · intro parameter _
      exact ih (fun other hother => h other (List.mem_cons_of_mem field hother)) _ _

/-- A struct with fields of well-formed types has a constructor from their values. -/
theorem exists_mainConstructor (h : ∀ field ∈ struct.fields, field.type.WellFormed) :
    ∃ block, mainConstructor namespaceName struct = .ok block := by
  unfold mainConstructor
  apply Result.exists_bind_eq_ok
  · exact exists_addFieldParameters namespaceName h _ _ _
  · exact fun constructor _ => ⟨constructor.build, rfl⟩

/-- The body of such a struct can be rendered in both directions. -/
theorem exists_structBody (h : ∀ field ∈ struct.fields, field.type.WellFormed)
    (direction : Direction) : ∃ code, structBody namespaceName struct direction = .ok code := by
  obtain ⟨block, hbody, hrenderable⟩ := Dispatch.exists_renderable_body h direction
  obtain ⟨code, hcode⟩ := exists_renderBlock namespaceName hrenderable
  simp [structBody, hbody, hcode]

/-- A struct of fields with well-formed types has a declaration. -/
theorem exists_structDeclaration (h : ∀ field ∈ struct.fields, field.type.WellFormed) :
    ∃ block, structDeclaration namespaceName struct = .ok block := by
  obtain ⟨declarations, hdeclarations⟩ := Result.exists_mapM_eq_ok fun field hfield =>
    exists_fieldDeclaration namespaceName (h field hfield) struct
  obtain ⟨constructor, hconstructor⟩ := exists_mainConstructor namespaceName h
  obtain ⟨decoding, hdecoding⟩ := exists_structBody namespaceName h .decode
  obtain ⟨encoding, hencoding⟩ := exists_structBody namespaceName h .encode
  simp [structDeclaration, decodeConstructor, encodeMethod, hdeclarations, hconstructor, hdecoding,
    hencoding]

/-- A module of such structs has a body. -/
theorem exists_moduleBody {module : Module}
    (h : ∀ struct ∈ module.structs, ∀ field ∈ struct.fields, field.type.WellFormed) :
    ∃ text, moduleBody module = .ok text := by
  obtain ⟨declarations, hdeclarations⟩ := Result.exists_mapM_eq_ok fun struct hstruct =>
    exists_structDeclaration (namespaceOf module.name) (h struct hstruct)
  simp [moduleBody, hdeclarations]

/-- A module with a body goes into the files whatever they hold: at the end of the file of its
name, or as a new one. -/
theorem exists_addModule {module : Module} (h : ∃ text, moduleBody module = .ok text)
    (files : Files) (name : String) : ∃ after, addModule files name module = .ok after := by
  obtain ⟨text, htext⟩ := h
  induction files with
  | nil => simp [addModule, moduleFile, htext]
  | cons file rest ih =>
    obtain ⟨after, hafter⟩ := ih
    by_cases hname : file.1 = name
    · simp [addModule, hname, htext]
    · simp [addModule, hname, hafter]

/-- A model of modules with bodies has files, under every name for them. -/
theorem exists_generate_of_moduleBody {model : Model}
    (h : ∀ module ∈ model.modules, ∃ text, moduleBody module = .ok text)
    (outputName : Option String) : ∃ files, generate model outputName = .ok files := by
  unfold generate
  apply Result.exists_foldlM_eq_ok
  intro files module hmodule
  exact exists_addModule (h module hmodule) files _

/-- A model of structs with well-formed field types has files, under every name for them. -/
theorem exists_generate {model : Model}
    (h : ∀ module ∈ model.modules, ∀ struct ∈ module.structs, ∀ field ∈ struct.fields,
      field.type.WellFormed) (outputName : Option String) :
    ∃ files, generate model outputName = .ok files :=
  exists_generate_of_moduleBody (fun module hmodule => exists_moduleBody (h module hmodule))
    outputName

end Code

end SliceRecords
