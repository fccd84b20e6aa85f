import SliceRecords.Instruction
import SliceRecords.Sorting.Sort

/-!
# The layout of a struct on the wire

Which instruction codes a field under an encoding, and the order in which the fields of a struct
travel: fields without a tag as declared, then tagged fields by increasing tag.
-/

namespace SliceRecords

/-- The number of bytes of an encoded value, if it is the same for all values of the type. -/
def TypeRef.fixedSize (type : TypeRef) : Option Nat :=
  match type.kind with
  | .primitive => type.primitive?.bind Primitive.fixedSize
  | _ => none

/-- The tag format of a type in the older encoding. A type without one cannot be tagged there, and a
field of such a type is left off the wire. -/
def TypeRef.tagFormat (type : TypeRef) : Option TagFormat :=
  match type.kind with
  | .primitive => type.primitive?.bind Primitive.tagFormat
  | .enum => some .size
  | .classType => some .classFormat
  | .sequence =>
    match type.element with
    | some element =>
      if !element.optional && element.fixedSize.isSome then some .vSize else some .fSize
    | none => some .fSize
  | .dictionary =>
    match type.key, type.value with
    | some key, some value =>
      if !value.optional && key.fixedSize.isSome && value.fixedSize.isSome then some .vSize
      else some .fSize
    | _, _ => some .fSize
  | .struct | .proxy => some .fSize
  | .custom => none

namespace Field

/-- Whether a bit tells the presence of a field. -/
def usesBitSequence (field : Field) (encoding : Encoding) : Bool :=
  encoding == .slice2 && field.isOptional && !field.isTagged

/-- The instructions that code a field: one, or none for a tagged field whose type cannot be tagged
in the older encoding. A reader takes the size of a tagged value from the wire. -/
def instructions (field : Field) (encoding : Encoding) (direction : Direction) : Block :=
  match field.isTagged, encoding with
  | false, _ =>
    if !field.isOptional then [.untagged direction .plain field]
    else
      match encoding with
      | .slice1 => [.untagged direction .nullable field]
      | .slice2 => [.untagged direction .bitSequence field]
  | true, .slice1 =>
    match field.type.asRequired.tagFormat with
    | none => []
    | some format => [.tagged direction field .slice1 (some format) none]
  | true, .slice2 =>
    let size :=
      match direction with
      | .encode => field.type.asRequired.fixedSize.map fun size => .integer size
      | .decode => none
    [.tagged direction field .slice2 none size]

/-- The order of tagged fields: the tag of the one is below the tag of the other. -/
def tagBefore (a b : Field) : Bool :=
  match a.tag, b.tag with
  | some x, some y => x.lt y
  | _, _ => false

/-- A field whose tag, if it has one, has a place in the order of numbers. -/
def hasOrderedTag (field : Field) : Bool :=
  field.tag.all Number.isOrdered

end Field

namespace Layout

/-- The fields that have no tag, as declared. -/
def untaggedFields (fields : List Field) : List Field :=
  fields.filter fun field => !field.isTagged

/-- The tagged fields by increasing tag; equal tags keep their order. With a tag that has no place
in the order of numbers there is no such list, and the places depend on the method of sorting. -/
def taggedFields (fields : List Field) : List Field :=
  let tagged := fields.filter Field.isTagged
  if tagged.all Field.hasOrderedTag then tagged.mergeSort fun a b => !b.tagBefore a
  else (Sorting.sort? (fun a b => some (a.tagBefore b)) tagged).getD tagged

/-- The fields in the order in which they travel. -/
def wireOrder (fields : List Field) : List Field :=
  untaggedFields fields ++ taggedFields fields

/-- The number of presence bits of a list of fields. -/
def bitSequenceSize (fields : List Field) (encoding : Encoding) : Nat :=
  fields.countP fun field => field.usesBitSequence encoding

/-- The instruction that opens the presence bits, if there are any. -/
def header (fields : List Field) (encoding : Encoding) (direction : Direction) : Block :=
  if bitSequenceSize fields encoding = 0 then []
  else [.bitSequence direction (.integer (bitSequenceSize fields encoding))]

/-- The instructions that code a list of fields under one encoding. -/
def synthesize (fields : List Field) (encoding : Encoding) (direction : Direction) : Block :=
  header fields encoding direction ++
    (wireOrder fields).flatMap fun field => field.instructions encoding direction

end Layout

/-- What follows the fields of a struct under every encoding: a compact struct ends with its last
field, any other one with an end marker, which a reader takes for the end of the tagged fields
that it does not know. -/
def Struct.framing (struct : Struct) (direction : Direction) : Block :=
  if struct.isCompact then []
  else
    match direction with
    | .decode => [.skipTagged]
    | .encode => [.tagEndMarker]

end SliceRecords
