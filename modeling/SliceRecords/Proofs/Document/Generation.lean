import SliceRecords.Command.Session
import SliceRecords.Proofs.Code.Declarations
import SliceRecords.Proofs.Code.Names
import SliceRecords.Proofs.Document.Soundness
import SliceRecords.Proofs.Layout.TagOrder
import SliceRecords.Proofs.Model.Outline

/-!
# Loaded models can be generated

The document grammar is strong enough for everything that follows loading: a model that is
loaded has files under every name for them, in verbose sessions too, and an outline. Main
statement: `generates_of_load`.
-/

namespace SliceRecords

/-- A session generates the files of its model, whether or not it is verbose, and tells
where it writes them. -/
theorem Command.Session.result_generate {session : Session} {model : Model} {files : Code.Files}
    (hmodel : session.model = some model)
    (hfiles : Code.generate model session.outputName = .ok files) :
    session.generate.result =
      .ok (files.map fun file => (file.1, Storage.Path.join session.outputDirectory file.1)) := by
  unfold generate
  rw [hmodel]
  simp only [hfiles]
  rfl

namespace Document

open Command

/-- A model that is loaded has files, under every name for them and in every session, and an
outline. Behind this, every struct has a body in each direction, its tags can be sorted, and the
types of its fields have all that their kinds need at every depth; and no name lacks a last part
or has an empty word. -/
theorem generates_of_load {file absoluteFile : Option String} {json : Json} {model : Model}
    (h : load file absoluteFile json = .ok model) :
    (∀ outputName, ∃ files, Code.generate model outputName = .ok files) ∧
    (∀ session : Session, session.model = some model →
       ∃ files, Code.generate model session.outputName = .ok files ∧
         session.generate.result =
           .ok (files.map fun file => (file.1, Storage.Path.join session.outputDirectory file.1))) ∧
    (∃ text, model.outline? = some text) ∧
    (∀ module ∈ model.modules, ∀ struct ∈ module.structs,
         (∀ direction, ∃ block, Dispatch.body struct direction = .ok block) ∧
         ((Layout.taggedFields struct.fields).Pairwise fun a b => b.tagBefore a = false) ∧
         ∀ field ∈ struct.fields, field.type.WellFormed ∧ field.hasOrderedTag = true) ∧
    ∀ name : String, (Code.scopes name).getLast? = some (Code.localName name) ∧
      ∀ word ∈ Code.words name.toList, word ≠ [] := by
  have hsound := isSound_of_load h
  have htypes : ∀ module ∈ model.modules, ∀ struct ∈ module.structs, ∀ field ∈ struct.fields,
      field.type.WellFormed := fun module hmodule struct hstruct field hfield =>
    (hsound module hmodule struct hstruct field hfield).wellFormed
  have hgenerate (outputName : Option String) := Code.exists_generate htypes outputName
  refine ⟨hgenerate, ?_, Model.exists_outline htypes, ?_, ?_⟩
  · intro session hmodel
    obtain ⟨files, hfiles⟩ := hgenerate session.outputName
    exact ⟨files, hfiles, Session.result_generate hmodel hfiles⟩
  · intro module hmodule struct hstruct
    have hfields := hsound module hmodule struct hstruct
    refine ⟨?_, ?_, ?_⟩
    · intro direction
      obtain ⟨block, hblock, _⟩ :=
        Dispatch.exists_renderable_body (htypes module hmodule struct hstruct) direction
      exact ⟨block, hblock⟩
    · exact Layout.pairwise_taggedFields fun field hfield => (hfields field hfield).hasOrderedTag
    · exact fun field hfield =>
        ⟨(hfields field hfield).wellFormed, (hfields field hfield).hasOrderedTag⟩
  · exact fun name => ⟨Code.getLast?_scopes name, fun _ => Code.ne_nil_of_mem_words⟩

/-- A document with a tagged field whose type is nested: a dictionary of optional
sequences of classes. -/
def nestedDocument : Json :=
  let text : Json := .object [("kind", .string "primitive"), ("name", .string "string")]
  let shape : Json := .object [("kind", .string "class"), ("name", .string "::Demo::Shape")]
  let shapes : Json :=
    .object [("kind", .string "sequence"), ("optional", .bool true), ("element", shape)]
  let index : Json :=
    .object
      [("kind", .string "dictionary"), ("optional", .bool true), ("key", text), ("value", shapes)]
  let field : Json :=
    .object [("name", .string "index"), ("type", index), ("tag", .number (.integer 3))]
  let struct : Json :=
    .object [("name", .string "Drawing"), ("fields", .array [field]),
      ("encodings", .array [.string "Slice1", .string "Slice2"])]
  .object [("modules", .array [.object [("name", .string "Demo"), ("structs", .array [struct])]])]

/-- A document with a tagged field of a nested type is loaded, and all that is
made of it is there. -/
theorem generates_of_load_nested :
    ∃ model, load none none nestedDocument = .ok model ∧
      model.structs.map (fun entry => entry.2.fields.map Field.isTagged) = [[true]] ∧
      (∃ files, Code.generate model none = .ok files) ∧
      (∃ files, Code.generate model (some "Drawings") = .ok files) ∧
      ∃ text, model.outline? = some text := by
  have hloads : (load none none nestedDocument).toOption.map
      (fun model => model.structs.map fun entry => entry.2.fields.map Field.isTagged) =
        some [[true]] := by decide +kernel
  cases hload : load none none nestedDocument with
  | error error =>
    rw [hload] at hloads
    cases hloads
  | ok model =>
    rw [hload] at hloads
    obtain ⟨hgenerate, _, houtline, _⟩ := generates_of_load hload
    exact ⟨model, rfl, Option.some.inj hloads, hgenerate none, hgenerate (some "Drawings"),
      houtline⟩

end Document

end SliceRecords
