import SliceRecords.Model.Basic
import SliceRecords.Text.Trim

/-!
# Outlines

A short text for a model: its modules, structs and fields with their types, one to a line.
-/

namespace SliceRecords

mutual

/-- The text of a type, if it has the parts that its kind needs. A missing name
shows as a question mark. -/
def TypeRef.outline? : TypeRef → Option String
  | ⟨kind, name, optional, element, key, value⟩ => do
    let text ←
      match kind with
      | .sequence => do
        let element ← TypeRef.partOutline? element
        pure s!"sequence<{element}>"
      | .dictionary => do
        let key ← TypeRef.partOutline? key
        let value ← TypeRef.partOutline? value
        pure s!"dictionary<{key}, {value}>"
      | _ => pure ((name.filter fun name => !name.isEmpty).getD "?")
    return if optional then text ++ "?" else text

/-- The text of a part that a type needs. -/
def TypeRef.partOutline? : Option TypeRef → Option String
  | some type => TypeRef.outline? type
  | none => none

end

/-- The line of a field. -/
def Field.outline? (field : Field) : Option String := do
  let type ← field.type.outline?
  let tag :=
    match field.tag with
    | some tag => s!"tag({tag.text}) "
    | none => ""
  return s!"      {tag}{field.name}: {type}"

/-- The lines of a struct. -/
def Struct.outline? (struct : Struct) : Option (List String) := do
  let fields ← struct.fields.mapM Field.outline?
  let flags :=
    struct.encodings.toList.map Encoding.name ++ if struct.isCompact then ["compact"] else []
  let flagText := ", ".intercalate flags
  return s!"    struct {struct.name} [{flagText}]" :: fields

/-- The lines of a module. -/
def Module.outline? (module : Module) : Option (List String) := do
  let structs ← module.structs.mapM Struct.outline?
  return s!"  module {module.name}" :: structs.flatten

/-- The outline of a model, if its types have the parts that their kinds need. -/
def Model.outline? (model : Model) : Option String := do
  let modules ← model.modules.mapM Module.outline?
  return Text.unlines (s!"Model(file={Json.displayText? model.file})" :: modules.flatten)

end SliceRecords
