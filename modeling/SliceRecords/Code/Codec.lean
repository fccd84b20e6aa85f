import SliceRecords.Code.TypeText

/-!
# Coding expressions

The expressions that encode and decode a value of a type, and the lambdas that do so for the
elements of collections and for tagged values. How a value is laid out is left to the coding library
that the generated code calls; the expressions only choose its methods.
-/

namespace SliceRecords.Code

/-- The lambda that encodes with an expression over `value`. -/
def encodeLambda (type expression : String) : String :=
  s!"(ref SliceEncoder encoder, {type} value) => {expression}"

/-- The lambda that decodes with an expression. -/
def decodeLambda (expression : String) : String :=
  s!"(ref SliceDecoder decoder) => {expression}"

/-- A part that a type needs. -/
def requirePart (part : Option TypeRef) : Except RenderError TypeRef :=
  match part with
  | some type => .ok type
  | none => .error .missingPart

mutual

/-- The expression that encodes `target`, a value of a type that is not null. -/
def encodeExpression (namespaceName : String) :
    TypeRef → String → Except RenderError String
  | ⟨kind, name, optional, element, key, value⟩, target =>
    let type : TypeRef := ⟨kind, name, optional, element, key, value⟩
    match kind with
    | .primitive => do
      let suffix ← methodSuffix type
      return s!"encoder.Encode{suffix}({target})"
    | .enum | .custom => do
      let name ← nameOf type
      return s!"encoder.Encode{localName name}({target})"
    | .struct => return s!"{target}.Encode(ref encoder)"
    | .classType => return s!"encoder.EncodeClass({target})"
    | .proxy => return s!"encoder.EncodeProxy({target})"
    | .sequence => do
      let required ← requirePart element
      let method := if required.optional then "EncodeSequenceOfOptionals" else "EncodeSequence"
      let elementText ← typeText namespaceName required.asRequired
      let expression ← encodePart namespaceName element
      return s!"encoder.{method}({target}, {encodeLambda elementText expression})"
    | .dictionary => do
      let required ← requirePart value
      let method :=
        if required.optional then "EncodeDictionaryWithOptionalValueType" else "EncodeDictionary"
      let keyText ← partText namespaceName key
      let keyExpression ← encodePart namespaceName key
      let valueText ← typeText namespaceName required.asRequired
      let valueExpression ← encodePart namespaceName value
      return s!"encoder.{method}({target}, {encodeLambda keyText keyExpression}, " ++
        s!"{encodeLambda valueText valueExpression})"

/-- The expression that encodes `value`, a value of a part that a type needs. -/
def encodePart (namespaceName : String) : Option TypeRef → Except RenderError String
  | some type => encodeExpression namespaceName type "value"
  | none => .error .missingPart

end

/-- The lambda that encodes a value of a type. -/
def encodeAction (namespaceName : String) (type : TypeRef) : Except RenderError String := do
  let text ← typeText namespaceName type
  let expression ← encodeExpression namespaceName type "value"
  return encodeLambda text expression

/-- The expression of a decoding lambda: an optional value of a value type is widened to its
nullable form, so that null can stand for an absent value. -/
def widen (namespaceName : String) (type : TypeRef) (expression : String) :
    Except RenderError String :=
  if type.optional && type.isValueType then do
    let text ← typeText namespaceName type
    return s!"{expression} as {text}"
  else return expression

mutual

/-- The expression that decodes a value of a type that is not null. -/
def decodeExpression (namespaceName : String) : TypeRef → Except RenderError String
  | ⟨kind, name, optional, element, key, value⟩ => do
    let type : TypeRef := ⟨kind, name, optional, element, key, value⟩
    let text ← typeText namespaceName type.asRequired
    match kind with
    | .primitive => do
      let suffix ← methodSuffix type
      return s!"decoder.Decode{suffix}()"
    | .enum | .custom => do
      let name ← nameOf type
      return s!"decoder.Decode{localName name}()"
    | .struct => return s!"new {text}(ref decoder)"
    | .classType => return s!"decoder.DecodeClass<{text}>()"
    | .proxy => return s!"decoder.DecodeProxy<{text}>()"
    | .sequence => do
      let required ← requirePart element
      let method := if required.optional then "DecodeSequenceOfOptionals" else "DecodeSequence"
      let function ← decodePart namespaceName element
      return s!"decoder.{method}({function})"
    | .dictionary => do
      let keyText ← partText namespaceName key
      let valueText ← partText namespaceName value
      let required ← requirePart value
      let method :=
        if required.optional then "DecodeDictionaryWithOptionalValueType" else "DecodeDictionary"
      let keyFunction ← decodePart namespaceName key
      let valueFunction ← decodePart namespaceName value
      return s!"decoder.{method}(count => new Dictionary<{keyText}, {valueText}>(count), " ++
        s!"{keyFunction}, {valueFunction})"

/-- The lambda that decodes a value of a part that a type needs. -/
def decodePart (namespaceName : String) : Option TypeRef → Except RenderError String
  | some type => do
    let expression ← decodeExpression namespaceName type
    return decodeLambda (← widen namespaceName type expression)
  | none => .error .missingPart

end

/-- The lambda that decodes a value of a type. -/
def decodeFunction (namespaceName : String) (type : TypeRef) : Except RenderError String :=
  decodePart namespaceName (some type)

end SliceRecords.Code
