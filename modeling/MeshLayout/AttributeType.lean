/-
MeshLayout/AttributeType.lean

The declared type of a block of vertex attribute values.  It fixes the
scalar type of the components and whether the device maps integers into
`[0, 1]` or `[-1, 1]` when it reads them.
-/
import MeshLayout.Scalar

namespace MeshLayout

/-- The declared type of an attribute block. -/
inductive AttributeType where
  | float
  | int | uint | normInt | normUint
  | short | ushort | normShort | normUshort
  | byte | ubyte | normByte | normUbyte
deriving DecidableEq

namespace AttributeType

/-- Every attribute type, in table order. -/
def all : List AttributeType :=
  [float, int, uint, normInt, normUint, short, ushort, normShort, normUshort, byte, ubyte,
   normByte, normUbyte]

/-- The name in mesh descriptions. -/
def name : AttributeType → String
  | float => "float"
  | int => "int"
  | uint => "uint"
  | normInt => "norm-int"
  | normUint => "norm-uint"
  | short => "short"
  | ushort => "ushort"
  | normShort => "norm-short"
  | normUshort => "norm-ushort"
  | byte => "byte"
  | ubyte => "ubyte"
  | normByte => "norm-byte"
  | normUbyte => "norm-ubyte"

/-- The scalar type of a component. -/
def scalar : AttributeType → Scalar
  | float => .f32
  | int | normInt => .i32
  | uint | normUint => .u32
  | short | normShort => .i16
  | ushort | normUshort => .u16
  | byte | normByte => .i8
  | ubyte | normUbyte => .u8

/-- Are the integers mapped into the unit range when they are read? -/
def isNormalized : AttributeType → Bool
  | normInt | normUint | normShort | normUshort | normByte | normUbyte => true
  | float | int | uint | short | ushort | byte | ubyte => false

/-- The number of bytes of a component. -/
def size (type : AttributeType) : Nat := type.scalar.size

/-- The attribute type with the given name. -/
def ofName? (name : String) : Option AttributeType := all.find? fun type => type.name = name

theorem size_pos (type : AttributeType) : 0 < type.size := type.scalar.size_pos

end AttributeType

end MeshLayout
