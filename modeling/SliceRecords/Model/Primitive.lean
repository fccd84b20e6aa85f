/-!
# Primitive types

The keywords of the primitive types and what each means: its name in generated code,
the suffix of the methods that encode and decode it, its size on the wire and its tag
format in the older encoding.
-/

namespace SliceRecords

/-- The formats of a tagged value in the older encoding, written in the header of the value. -/
inductive TagFormat where
  | f1
  | f2
  | f4
  | f8
  | size
  | vSize
  | fSize
  | classFormat
  | ovSize
  deriving DecidableEq, Repr

namespace TagFormat

/-- All tag formats. -/
def all : List TagFormat := [f1, f2, f4, f8, size, vSize, fSize, classFormat, ovSize]

/-- The name of a tag format in generated code. -/
def name : TagFormat → String
  | f1 => "F1"
  | f2 => "F2"
  | f4 => "F4"
  | f8 => "F8"
  | size => "Size"
  | vSize => "VSize"
  | fSize => "FSize"
  | classFormat => "Class"
  | ovSize => "OVSize"

/-- The tag format with a name. -/
def ofName? (name : String) : Option TagFormat :=
  all.find? fun format => format.name = name

end TagFormat

/-- A primitive type. -/
inductive Primitive where
  | bool
  | int8
  | uint8
  | int16
  | uint16
  | int32
  | uint32
  | varint32
  | varuint32
  | int64
  | uint64
  | varint62
  | varuint62
  | float32
  | float64
  | string
  deriving DecidableEq, Repr

namespace Primitive

/-- All primitive types, in the order in which messages list them. -/
def all : List Primitive :=
  [bool, int8, uint8, int16, uint16, int32, uint32, varint32, varuint32, int64, uint64, varint62,
    varuint62, float32, float64, string]

/-- The keyword of a primitive type. -/
def keyword : Primitive → String
  | bool => "bool"
  | int8 => "int8"
  | uint8 => "uint8"
  | int16 => "int16"
  | uint16 => "uint16"
  | int32 => "int32"
  | uint32 => "uint32"
  | varint32 => "varint32"
  | varuint32 => "varuint32"
  | int64 => "int64"
  | uint64 => "uint64"
  | varint62 => "varint62"
  | varuint62 => "varuint62"
  | float32 => "float32"
  | float64 => "float64"
  | string => "string"

/-- The primitive type with a keyword. -/
def ofKeyword? (keyword : String) : Option Primitive :=
  all.find? fun primitive => primitive.keyword = keyword

/-- The name of a primitive type in generated code. -/
def typeName : Primitive → String
  | bool => "bool"
  | int8 => "sbyte"
  | uint8 => "byte"
  | int16 => "short"
  | uint16 => "ushort"
  | int32 => "int"
  | uint32 => "uint"
  | varint32 => "int"
  | varuint32 => "uint"
  | int64 => "long"
  | uint64 => "ulong"
  | varint62 => "long"
  | varuint62 => "ulong"
  | float32 => "float"
  | float64 => "double"
  | string => "string"

/-- What the names of the encoding and decoding methods of a primitive type end in. -/
def methodSuffix : Primitive → String
  | bool => "Bool"
  | int8 => "Int8"
  | uint8 => "UInt8"
  | int16 => "Int16"
  | uint16 => "UInt16"
  | int32 => "Int32"
  | uint32 => "UInt32"
  | varint32 => "VarInt32"
  | varuint32 => "VarUInt32"
  | int64 => "Int64"
  | uint64 => "UInt64"
  | varint62 => "VarInt62"
  | varuint62 => "VarUInt62"
  | float32 => "Float32"
  | float64 => "Float64"
  | string => "String"

/-- The number of bytes of an encoded value, if it is the same for all values. -/
def fixedSize : Primitive → Option Nat
  | bool | int8 | uint8 => some 1
  | int16 | uint16 => some 2
  | int32 | uint32 | float32 => some 4
  | int64 | uint64 | float64 => some 8
  | varint32 | varuint32 | varint62 | varuint62 | string => none

/-- The tag format in the older encoding. A primitive type without one exists in the
newer encoding alone. -/
def tagFormat : Primitive → Option TagFormat
  | bool | uint8 => some .f1
  | int16 => some .f2
  | int32 | float32 => some .f4
  | int64 | float64 => some .f8
  | string => some .ovSize
  | _ => none

/-- A primitive is found under its keyword. -/
@[simp] theorem ofKeyword?_keyword (primitive : Primitive) :
    ofKeyword? primitive.keyword = some primitive := by
  cases primitive <;> decide

end Primitive

end SliceRecords
