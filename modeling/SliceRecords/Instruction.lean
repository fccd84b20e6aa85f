import SliceRecords.Model.Basic

/-!
# Instructions

What the generated encoding and decoding code does, before it is text: one instruction per
field, framing around tagged fields, and dispatch on the live encoding. Two instructions are the
same if they produce the same code, so documentation and default values do not count, and tags
and sizes compare by value.
-/

namespace SliceRecords

/-- Whether code writes values or reads them. -/
inductive Direction where
  | encode
  | decode
  deriving DecidableEq, Repr

namespace Direction

/-- The name of a direction. -/
def name : Direction → String
  | encode => "encode"
  | decode => "decode"

/-- The direction with a name. -/
def ofName? (name : String) : Option Direction :=
  [encode, decode].find? fun direction => direction.name = name

/-- A direction as messages show it. -/
def display : Direction → String
  | encode => "<Direction.ENCODE: 'encode'>"
  | decode => "<Direction.DECODE: 'decode'>"

end Direction

/-- A tag format as messages show it. -/
def TagFormat.display (format : TagFormat) : String :=
  s!"<TagFormat.{format.name.map Char.toUpper}: {Text.quoted format.name}>"

/-- How a field without a tag travels: as a bare value, as a value that may be null, or as a value
whose presence a bit sequence tells. -/
inductive FieldForm where
  | plain
  | nullable
  | bitSequence
  deriving DecidableEq, Repr

/-- An instruction of generated code. -/
inductive Instruction where
  /-- Codes a field that has no tag. -/
  | untagged (direction : Direction) (form : FieldForm) (field : Field)
  /-- Codes a tagged field in a frame, which holds a tag format or a size. -/
  | tagged (direction : Direction) (field : Field) (encoding : Encoding) (format : Option TagFormat)
    (size : Option Number)
  /-- Opens the sequence of presence bits. -/
  | bitSequence (direction : Direction) (size : Number)
  /-- Skips the tagged fields that the reader does not know. -/
  | skipTagged
  /-- Writes the marker after the last tagged field. -/
  | tagEndMarker
  /-- Runs its block unless the live encoding is the older one. -/
  | guarded (direction : Direction) (block : List Instruction)
  /-- Runs one of two blocks, as the live encoding says. -/
  | branch (direction : Direction) (slice1 slice2 : List Instruction)
  /-- An instruction without a meaning; it has no code. -/
  | blank

/-- A sequence of instructions. -/
abbrev Block := List Instruction

namespace Instruction

/-- Numbers that may be absent agree if both are absent or their values are equal. -/
def sameNumber : Option Number → Option Number → Bool
  | some a, some b => a.same b
  | none, none => true
  | _, _ => false

/-- Fields agree if their names, types and tags do. -/
def sameField (a b : Field) : Bool :=
  a.name == b.name && a.type == b.type && sameNumber a.tag b.tag

mutual

/-- Equality of the code that instructions stand for. -/
def same : Instruction → Instruction → Bool
  | untagged d₁ form₁ field₁, untagged d₂ form₂ field₂ =>
    d₁ == d₂ && form₁ == form₂ && sameField field₁ field₂
  | tagged d₁ field₁ encoding₁ format₁ size₁, tagged d₂ field₂ encoding₂ format₂ size₂ =>
    d₁ == d₂ && sameField field₁ field₂ && encoding₁ == encoding₂ && format₁ == format₂ &&
      sameNumber size₁ size₂
  | bitSequence d₁ size₁, bitSequence d₂ size₂ => d₁ == d₂ && size₁.same size₂
  | skipTagged, skipTagged => true
  | tagEndMarker, tagEndMarker => true
  | guarded d₁ block₁, guarded d₂ block₂ => d₁ == d₂ && sameBlock block₁ block₂
  | branch d₁ a₁ b₁, branch d₂ a₂ b₂ => d₁ == d₂ && sameBlock a₁ a₂ && sameBlock b₁ b₂
  | blank, blank => true
  | _, _ => false

/-- Equality of blocks, instruction by instruction. -/
def sameBlock : List Instruction → List Instruction → Bool
  | [], [] => true
  | a :: as, b :: bs => same a b && sameBlock as bs
  | _, _ => false

end

/-- The name of the instruction that a direction gives, as messages show it. -/
def directed (direction : Direction) (rest : String) : String :=
  match direction with
  | .encode => "Encode" ++ rest
  | .decode => "Decode" ++ rest

/-- The word for an instruction in messages. -/
def label : Instruction → String
  | untagged direction .plain _ => directed direction "Field"
  | untagged direction .nullable _ => directed direction "NullableField"
  | untagged direction .bitSequence _ => directed direction "BitSequenceField"
  | tagged direction _ _ _ _ => directed direction "TaggedField"
  | bitSequence _ _ => "BitSequenceStart"
  | skipTagged => "SkipTagged"
  | tagEndMarker => "EncodeTagEndMarker"
  | guarded _ _ => "EncodingGuard"
  | branch _ _ _ => "EncodingBranch"
  | blank => "Instruction"

/-- The parts of a field that count for equality, as messages show them. -/
def fieldParts (field : Field) : List String :=
  [Text.quoted field.name, field.type.display, (field.tag.map Number.text).getD Json.nullWord]

/-- A block as messages show it. -/
def displayedBlock (instructions : List String) : String :=
  "EncodingBlock(" ++ Json.bracketed "[" "]" instructions ++ ")"

mutual

/-- The parts that count for equality, as messages show them. -/
def parts : Instruction → List String
  | untagged _ _ field => fieldParts field
  | tagged _ field encoding format size =>
    fieldParts field ++
      [encoding.display, (format.map TagFormat.display).getD Json.nullWord,
        (size.map Number.text).getD Json.nullWord]
  | bitSequence direction size => [direction.display, size.text]
  | guarded direction block => [direction.display, displayedBlock (displayAll block)]
  | branch direction slice1 slice2 =>
    [direction.display, displayedBlock (displayAll slice1), displayedBlock (displayAll slice2)]
  | skipTagged | tagEndMarker | blank => []

/-- The instructions of a block as messages show them. -/
def displayAll : List Instruction → List String
  | [] => []
  | instruction :: rest =>
    (instruction.label ++ Json.bracketed "(" ")" (parts instruction)) :: displayAll rest

end

/-- An instruction as messages show it. -/
def display (instruction : Instruction) : String :=
  instruction.label ++ Json.bracketed "(" ")" instruction.parts

end Instruction

namespace Block

/-- Equality of the code that blocks stand for. -/
def same (a b : Block) : Bool :=
  Instruction.sameBlock a b

/-- A block as messages show it. -/
def display (block : Block) : String :=
  Instruction.displayedBlock (block.map Instruction.display)

end Block

end SliceRecords
