import SliceRecords.Model.Basic
import SliceRecords.Json.Printer

/-!
# Dumps

A model as a JSON value that holds everything the model does, for inspection.
What is absent is `null`.
-/

namespace SliceRecords

/-- A text that may be absent as a JSON value. -/
def Json.ofText? (text : Option String) : Json :=
  (text.map Json.string).getD .null

/-- A number that may be absent as a JSON value. -/
def Json.ofNumber? (number : Option Number) : Json :=
  (number.map Json.number).getD .null

mutual

/-- A type as a JSON value. -/
def TypeRef.toJson : TypeRef → Json
  | ⟨kind, name, optional, element, key, value⟩ =>
    .object
      [("kind", .string kind.name), ("name", .ofText? name), ("optional", .bool optional),
        ("element", TypeRef.partToJson element), ("key", TypeRef.partToJson key),
        ("value", TypeRef.partToJson value)]

/-- A part of a type as a JSON value. -/
def TypeRef.partToJson : Option TypeRef → Json
  | some type => TypeRef.toJson type
  | none => .null

end

/-- A field as a JSON value. -/
def Field.toJson (field : Field) : Json :=
  .object
    [("name", .string field.name), ("type_ref", field.type.toJson),
      ("tag", .ofNumber? field.tag), ("default", field.defaultValue.getD .null),
      ("doc", .ofText? field.doc), ("deprecated", .ofText? field.deprecated),
      ("file", .ofText? field.origin.file), ("line", .ofNumber? field.origin.line)]

/-- A struct as a JSON value. -/
def Struct.toJson (struct : Struct) : Json :=
  .object
    [("name", .string struct.name), ("fields", .array (struct.fields.map Field.toJson)),
      ("supported_encodings",
        .array (struct.encodings.toList.map fun encoding => .string encoding.name)),
      ("is_compact", .bool struct.isCompact), ("module", .ofText? struct.moduleName),
      ("doc", .ofText? struct.doc), ("is_readonly", .bool struct.isReadonly),
      ("deprecated", .ofText? struct.deprecated), ("file", .ofText? struct.origin.file),
      ("line", .ofNumber? struct.origin.line)]

/-- A module as a JSON value. -/
def Module.toJson (module : Module) : Json :=
  .object
    [("name", .string module.name), ("structs", .array (module.structs.map Struct.toJson)),
      ("doc", .ofText? module.doc)]

/-- A model as a JSON value. -/
def Model.toJson (model : Model) : Json :=
  .object [("file", .ofText? model.file), ("modules", .array (model.modules.map Module.toJson))]

/-- The text of a dump; without a model it is that of the null value. -/
def Model.dump (model : Option Model) : String :=
  ((model.map Model.toJson).getD .null).printed

end SliceRecords
