import SliceRecords.Model.Basic

/-!
# Building the model

From the parts of a document to types, fields and structs. Each builder reads the members that it
needs and checks the rules that hold of every field and struct by construction.
-/

namespace SliceRecords

namespace TypeRef

/-- The kind that a type of a document names. -/
def kindOfJson (json : Json) : Except StructError TypeKind :=
  match json, json.get? "kind" with
  | .object _, none => .error (.missing "kind")
  | .object _, some kind =>
    match kind.string?.bind TypeKind.ofName? with
    | some kind => .ok kind
    | none => .error (.unknownKind kind)
  | _, _ => .error .typeNotAnObject

/-- The type that a part of a document describes. -/
def ofJson (json : Json) : Except StructError TypeRef := do
  let kind ← kindOfJson json
  let element ←
    match _h : json.get? "element" with
    | some part => some <$> ofJson part
    | none => pure none
  let key ←
    match _h : json.get? "key" with
    | some part => some <$> ofJson part
    | none => pure none
  let value ←
    match _h : json.get? "value" with
    | some part => some <$> ofJson part
    | none => pure none
  return {
    kind, element, key, value
    name := (json.getSome? "name").bind Json.string?
    optional := ((json.getSome? "optional").bind Json.bool?).getD false }
termination_by sizeOf json
decreasing_by all_goals exact Json.sizeOf_lt_of_get? _h

end TypeRef

/-- The text of a member, if there is one. -/
def Json.textOf? (json : Json) (name : String) : Option String :=
  (json.getSome? name).bind Json.string?

/-- The truth value of a member; without the member it is false. -/
def Json.flagOf (json : Json) (name : String) : Bool :=
  ((json.getSome? name).bind Json.bool?).getD false

namespace Field

/-- The tag of a field of a document. -/
def tagOfJson (fieldName : String) (json : Json) : Except StructError (Option Number) :=
  match json.getSome? "tag" with
  | none => .ok none
  | some tag =>
    match tag.number? with
    | some tag => .ok (some tag)
    | none => .error (.notATag fieldName)

/-- The field that a part of a document describes, in a file. -/
def ofJson (file : Option String) (json : Json) : Except StructError Field := do
  let name := (json.textOf? "name").getD ""
  let type ←
    match json.get? "type" with
    | some type => TypeRef.ofJson type
    | none => throw (.missing "type")
  let tag ← tagOfJson name json
  if h : tag.isSome = true → type.optional = true then
    return {
      name, type, tag
      defaultValue := json.getSome? "default"
      doc := json.textOf? "doc"
      deprecated := json.textOf? "deprecated"
      origin := { file, line := (json.getSome? "line").bind Json.number? }
      optional_of_tag := h }
  else throw (.requiredTagged name)

end Field

namespace Struct

/-- The struct that a part of a document describes, in a module and a file. -/
def ofJson (moduleName : Option String) (file : Option String) (json : Json) :
    Except StructError Struct := do
  let name := (json.textOf? "name").getD ""
  let fields ← ((json.get? "fields").getD .null).items.mapM (Field.ofJson file)
  let encodings ←
    (SupportedEncodings.ofNames ((json.get? "encodings").getD .null).items).mapError .encodings
  let isCompact := json.flagOf "compact"
  if h : isCompact = true → ∀ field ∈ fields, field.isTagged = false then
    return {
      name, fields, encodings, isCompact, moduleName
      doc := json.textOf? "doc"
      isReadonly := json.flagOf "readonly"
      deprecated := json.textOf? "deprecated"
      origin := { file, line := (json.getSome? "line").bind Json.number? }
      untagged_of_compact := h }
  else throw (.compactTagged name)

end Struct

end SliceRecords
