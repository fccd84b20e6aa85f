import SliceRecords.Code.Body
import SliceRecords.Code.Declaration

/-!
# Record structs

The declaration that is generated for a struct: a member per field, a constructor from the values of
all fields, a constructor that decodes them, and a method that encodes them.
-/

namespace SliceRecords.Code

/-- Why no declaration can be generated. -/
inductive GenerationError where
  | render (error : RenderError)
  | dispatch (error : DispatchError)
  deriving DecidableEq, Repr

/-- The wording of a declaration that cannot be generated. -/
def GenerationError.message : GenerationError → String
  | render error => error.message
  | dispatch error => error.message

/-- The name by which generated files call their generator. -/
def generatorName : String := "slice_wrangler"

/-- A text as a summary comment. -/
def summary (text : String) : CommentTag :=
  ⟨"summary", text, none, none⟩

/-- A documentation text, unless it is empty. -/
def docText? (doc : Option String) : Option String :=
  doc.filter fun text => !text.isEmpty

/-- The declaration of the member for a field. -/
def fieldDeclaration (namespaceName : String) (struct : Struct) (field : Field) :
    Except RenderError Block := do
  let comments := (docText? field.doc).toList.map fun doc => (summary doc).text
  let obsolete := field.deprecated.toList.map fun message => s!"[{obsoleteAttribute message}]"
  let modifier := if struct.isReadonly then "public readonly" else "public"
  let type ← typeText namespaceName field.type
  return Block.ofLines
    (comments ++ obsolete ++ [s!"{modifier} {type} {memberName field.name};"])

/-- The number of fields in front of the longest final part of fields with default values. Only
final parameters can have default values. -/
def requiredCount (fields : List Field) : Nat :=
  (Text.dropTrailing Field.hasDefault fields).length

/-- The parameter of the field-wise constructor for a field. -/
def fieldParameter (namespaceName : String) (field : Field) (withDefault : Bool) :
    Except RenderError Parameter := do
  let value := if withDefault then field.defaultValue.map (defaultLiteral field.type) else none
  let type ← typeText namespaceName field.type
  return ⟨type, parameterName field.name, value⟩

/-- Adds the parameters for the fields from an index on. -/
def addFieldParameters (namespaceName : String) (required : Nat) (method : Method) :
    Nat → List Field → Except RenderError Method
  | _, [] => .ok method
  | index, field :: rest => do
    let parameter ← fieldParameter namespaceName field (required ≤ index)
    addFieldParameters namespaceName required (method.addParameter parameter field.doc) (index + 1)
      rest

/-- The assignment of the field-wise constructor for a field. -/
def fieldAssignment (field : Field) : String :=
  s!"{member field} = {parameterName field.name};"

/-- The constructor from the values of all fields. -/
def mainConstructor (namespaceName : String) (struct : Struct) : Except RenderError Block := do
  let identifier := memberName struct.name
  let constructor : Method :=
    { access := "public"
      returnType := ""
      name := identifier
      preamble :=
        { comments := [summary s!"Constructs a new instance of <see cref=\"{identifier}\" />."] }
      body := Block.ofLines (struct.fields.map fieldAssignment) }
  let constructor ←
    addFieldParameters namespaceName (requiredCount struct.fields) constructor 0 struct.fields
  return constructor.build

/-- The code of the body of a struct. -/
def structBody (namespaceName : String) (struct : Struct) (direction : Direction) :
    Except GenerationError Block := do
  let block ← (Dispatch.body struct direction).mapError .dispatch
  (renderBlock namespaceName block).mapError .render

/-- The constructor that decodes the fields. -/
def decodeConstructor (namespaceName : String) (struct : Struct) :
    Except GenerationError Block := do
  let identifier := memberName struct.name
  let text :=
    s!"Constructs a new instance of <see cref=\"{identifier}\" /> and decodes its fields from " ++
      "a Slice decoder."
  let constructor : Method :=
    { access := "public"
      returnType := ""
      name := identifier
      preamble := { comments := [summary text] }
      body := ← structBody namespaceName struct .decode }
  let parameter : Parameter := { type := "ref SliceDecoder", name := "decoder" }
  return (constructor.addParameter parameter (some "The Slice decoder.")).build

/-- The method that encodes the fields. -/
def encodeMethod (namespaceName : String) (struct : Struct) : Except GenerationError Block := do
  let method : Method :=
    { access := "public readonly"
      returnType := "void"
      name := "Encode"
      preamble :=
        { comments := [summary "Encodes the fields of this struct with a Slice encoder."] }
      body := ← structBody namespaceName struct .encode }
  let parameter : Parameter := { type := "ref SliceEncoder", name := "encoder" }
  return (method.addParameter parameter (some "The Slice encoder.")).build

/-- The words in front of the identifier of a declaration. -/
def structKeywords (struct : Struct) : String :=
  if struct.isReadonly then "public readonly partial record struct"
  else "public partial record struct"

/-- What stands in front of a declaration: its documentation, where it comes from, and
whether it is deprecated. -/
def structPreamble (struct : Struct) : Preamble :=
  let remarks :=
    s!"The {generatorName} generator created this record struct from Slice struct " ++
      s!"<c>{struct.scopedName}</c>."
  let comments := (docText? struct.doc).toList.map summary ++ [⟨"remarks", remarks, none, none⟩]
  ({ comments } : Preamble).addObsolete struct.deprecated

/-- The declaration for a struct in a namespace. -/
def structDeclaration (namespaceName : String) (struct : Struct) :
    Except GenerationError Block := do
  let declarations ←
    (struct.fields.mapM (fieldDeclaration namespaceName struct)).mapError GenerationError.render
  let constructor ← (mainConstructor namespaceName struct).mapError GenerationError.render
  let decoder ← decodeConstructor namespaceName struct
  let encoder ← encodeMethod namespaceName struct
  let container : Container :=
    { type := structKeywords struct
      name := memberName struct.name
      preamble := structPreamble struct }
  let members := ⟨"\n\n".intercalate (declarations.map Block.text)⟩
  return ([members, constructor, decoder, encoder].foldl Container.addBlock container).build

end SliceRecords.Code
