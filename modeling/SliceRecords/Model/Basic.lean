import SliceRecords.Model.Encoding
import SliceRecords.Model.TypeRef

/-!
# The model

Structs with their fields, grouped by module, as the generator consumes them. Two rules hold of
every field and every struct by construction: a tagged field has an optional type, and a compact
struct has no tagged field.
-/

namespace SliceRecords

/-- The place of a declaration in the document and the sources: a file and a line. -/
structure Origin where
  file : Option String := none
  line : Option Number := none
  deriving DecidableEq

/-- A field of a struct. A tag is a number, kept as it is written; tags compare by value. A
deprecation message that is empty marks the field without a reason. -/
structure Field where
  name : String
  type : TypeRef
  tag : Option Number := none
  defaultValue : Option Json := none
  doc : Option String := none
  deprecated : Option String := none
  origin : Origin := {}
  optional_of_tag : tag.isSome = true → type.optional = true := by simp

namespace Field

/-- A field that carries a tag. -/
def isTagged (field : Field) : Bool :=
  field.tag.isSome

/-- A field whose type is optional. -/
def isOptional (field : Field) : Bool :=
  field.type.optional

/-- A field with a default value. -/
def hasDefault (field : Field) : Bool :=
  field.defaultValue.isSome

/-- A tagged field is optional. -/
theorem isOptional_of_isTagged {field : Field} (h : field.isTagged = true) :
    field.isOptional = true :=
  field.optional_of_tag h

/-- A field as messages show it. -/
def display (field : Field) : String :=
  s!"ModelField(name={Text.quoted field.name}, type_ref={field.type.display}, " ++
    s!"tag={(field.tag.map Number.text).getD Json.nullWord})"

end Field

/-- A struct. Its fields are in declared order. -/
structure Struct where
  name : String
  fields : List Field
  encodings : SupportedEncodings
  isCompact : Bool := false
  moduleName : Option String := none
  doc : Option String := none
  isReadonly : Bool := false
  deprecated : Option String := none
  origin : Origin := {}
  untagged_of_compact : isCompact = true → ∀ field ∈ fields, field.isTagged = false := by simp

namespace Struct

/-- The name of a struct from the global scope on. -/
def scopedName (struct : Struct) : String :=
  match struct.moduleName with
  | some path => if path.isEmpty then s!"::{struct.name}" else s!"::{path}::{struct.name}"
  | none => s!"::{struct.name}"

/-- A struct as messages show it. -/
def display (struct : Struct) : String :=
  s!"ModelStruct(name={Text.quoted struct.name}, fields={struct.fields.length}, " ++
    s!"encodings={struct.encodings.display})"

end Struct

/-- A module with its structs in declared order. -/
structure Module where
  name : String
  structs : List Struct
  doc : Option String := none

/-- A model: the modules of a document and the absolute path of its file, if it comes from one. -/
structure Model where
  file : Option String
  modules : List Module

namespace Model

/-- The structs of a model with their modules, in declared order. -/
def structs (model : Model) : List (Module × Struct) :=
  model.modules.flatMap fun module => module.structs.map fun struct => (module, struct)

end Model

/-- Why a struct cannot be built from its parts. -/
inductive StructError where
  | missing (member : String)
  | typeNotAnObject
  | unknownKind (kind : Json)
  | notATag (field : String)
  | requiredTagged (field : String)
  | encodings (error : EncodingsError)
  | compactTagged (struct : String)
  deriving Repr

/-- The wording of a struct that cannot be built. -/
def StructError.message : StructError → String
  | missing member => s!"The member '{member}' is missing"
  | typeNotAnObject => "A type must be an object"
  | unknownKind kind => s!"{kind.display} is not a valid TypeKind"
  | notATag field => s!"The tag of field '{field}' must be a number"
  | requiredTagged field => s!"Tagged field '{field}' must have an optional type"
  | encodings error => error.message
  | compactTagged struct => s!"Compact struct '{struct}' cannot have tagged fields"

end SliceRecords
