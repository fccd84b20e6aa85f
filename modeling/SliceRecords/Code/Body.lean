import SliceRecords.Code.Codec
import SliceRecords.Code.Block
import SliceRecords.Dispatch

/-!
# Bodies of coding methods

The statements for a block of instructions. An instruction gives a list of pieces, each a line or,
for the arm of a dispatch, the lines of a whole block.
-/

namespace SliceRecords.Code

/-- The member that holds a field. -/
def member (field : Field) : String :=
  s!"this.{memberName field.name}"

/-- The value of a member that is known not to be null. -/
def unwrapped (field : Field) : String :=
  if field.type.isValueType then s!"{member field}.Value" else member field

/-- The statement that encodes a field which may be null. Classes and proxies have
methods of their own. -/
def encodeNullable (namespaceName : String) (field : Field) : Except RenderError String :=
  match field.type.kind with
  | .classType => return s!"encoder.EncodeNullableClass({member field});"
  | .proxy => return s!"encoder.EncodeNullableProxy({member field});"
  | _ => do
    let value := if field.type.isValueType then s!"{member field}.Value" else s!"{member field}!"
    let expression ← encodeExpression namespaceName field.type.asRequired value
    return s!"{expression};"

/-- The statement that decodes a field which may be null. -/
def decodeNullable (namespaceName : String) (field : Field) : Except RenderError String := do
  let required := field.type.asRequired
  match required.kind with
  | .classType => do
    let text ← typeText namespaceName required
    return s!"{member field} = decoder.DecodeNullableClass<{text}>();"
  | .proxy => do
    let text ← typeText namespaceName required
    return s!"{member field} = decoder.DecodeNullableProxy<{text}>();"
  | _ => do
    let expression ← decodeExpression namespaceName required
    return s!"{member field} = {expression};"

/-- The tag of a field in a coding call. -/
def tagText (field : Field) : String :=
  (field.tag.map Number.text).getD Json.nullWord

/-- The statements that encode a tagged field, if it has a value. -/
def encodeTagged (namespaceName : String) (field : Field) (encoding : Encoding)
    (format : Option TagFormat) (size : Option Number) : Except RenderError (List String) := do
  let action ← encodeAction namespaceName field.type.asRequired
  let frame ←
    match encoding, format, size with
    | .slice1, some format, _ => .ok s!"TagFormat.{format.name}, "
    | .slice1, none, _ => .error .missingPart
    | .slice2, _, some size => .ok s!"size: {size.text}, "
    | .slice2, _, none => .ok ""
  return [s!"if ({member field} != null)", "\x7b",
    s!"    encoder.EncodeTagged({tagText field}, {frame}{unwrapped field}, {action});", "\x7d"]

/-- The statement that decodes a tagged field. -/
def decodeTagged (namespaceName : String) (field : Field) (encoding : Encoding)
    (format : Option TagFormat) : Except RenderError String := do
  let function ← decodeFunction namespaceName field.type
  match encoding, format with
  | .slice1, some format =>
    return s!"{member field} = decoder.DecodeTagged({tagText field}, TagFormat.{format.name}, " ++
      s!"{function}, useTagEndMarker: false);"
  | .slice1, none => .error .missingPart
  | .slice2, _ =>
    return s!"{member field} = decoder.DecodeTagged({tagText field}, {function}, " ++
      "useTagEndMarker: true);"

/-- The statements for a field that has no tag. -/
def untaggedPieces (namespaceName : String) (direction : Direction) (form : FieldForm)
    (field : Field) : Except RenderError (List String) := do
  match form, direction with
  | .plain, .encode =>
    let expression ← encodeExpression namespaceName field.type (member field)
    return [s!"{expression};"]
  | .plain, .decode =>
    let expression ← decodeExpression namespaceName field.type
    return [s!"{member field} = {expression};"]
  | .nullable, .encode => return [← encodeNullable namespaceName field]
  | .nullable, .decode => return [← decodeNullable namespaceName field]
  | .bitSequence, .encode =>
    let expression ← encodeExpression namespaceName field.type.asRequired (unwrapped field)
    return [s!"bitSequenceWriter.Write({member field} != null);", s!"if ({member field} != null)",
      "\x7b", s!"    {expression};", "\x7d"]
  | .bitSequence, .decode =>
    let expression ← decodeExpression namespaceName field.type.asRequired
    return [s!"{member field} = bitSequenceReader.Read() ? {expression} : null;"]

/-- Where code finds the live encoding. -/
def liveEncoding : Direction → String
  | .encode => "encoder.Encoding"
  | .decode => "decoder.Encoding"

/-- The condition line of a guard. -/
def guardLine (direction : Direction) : String :=
  s!"if ({liveEncoding direction} != SliceEncoding.Slice1) // Slice2 only"

/-- The condition line of a branch. -/
def branchLine (direction : Direction) : String :=
  s!"if ({liveEncoding direction} == SliceEncoding.Slice1)"

mutual

/-- The pieces of code for an instruction. -/
def instructionPieces (namespaceName : String) : Instruction → Except RenderError (List String)
  | .untagged direction form field => untaggedPieces namespaceName direction form field
  | .tagged .encode field encoding format size =>
    encodeTagged namespaceName field encoding format size
  | .tagged .decode field encoding format _ => do
    return [← decodeTagged namespaceName field encoding format]
  | .bitSequence .encode size =>
    return [s!"var bitSequenceWriter = encoder.GetBitSequenceWriter({size.text});"]
  | .bitSequence .decode size =>
    return [s!"var bitSequenceReader = decoder.GetBitSequenceReader({size.text});"]
  | .skipTagged => return ["decoder.SkipTagged();"]
  | .tagEndMarker => return ["encoder.EncodeVarInt32(Slice2Definitions.TagEndMarker);"]
  | .guarded direction block => do
    let pieces ← blockPieces namespaceName block
    return [guardLine direction, "\x7b", (Block.ofLines pieces).indent.text, "\x7d"]
  | .branch direction slice1 slice2 => do
    let older ← blockPieces namespaceName slice1
    let newer ← blockPieces namespaceName slice2
    return [branchLine direction, "\x7b", (Block.ofLines older).indent.text, "\x7d",
      "else // Slice2", "\x7b", (Block.ofLines newer).indent.text, "\x7d"]
  | .blank => .error .blankInstruction

/-- The pieces of code for a block of instructions. -/
def blockPieces (namespaceName : String) : List Instruction → Except RenderError (List String)
  | [] => .ok []
  | instruction :: rest => do
    let pieces ← instructionPieces namespaceName instruction
    return pieces ++ (← blockPieces namespaceName rest)

end

/-- The code of a block of instructions. -/
def renderBlock (namespaceName : String) (block : SliceRecords.Block) :
    Except RenderError Block := do
  return Block.ofLines (← blockPieces namespaceName block)

end SliceRecords.Code
