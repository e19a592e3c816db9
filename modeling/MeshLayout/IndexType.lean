/-
MeshLayout/IndexType.lean

The element type of a block of indices: an unsigned integer of one, two or
four bytes.
-/
import MeshLayout.Scalar

namespace MeshLayout

/-- The element type of an index block. -/
inductive IndexType where
  | ubyte | ushort | uint
deriving DecidableEq

namespace IndexType

/-- Every index type, in table order. -/
def all : List IndexType := [ubyte, ushort, uint]

/-- The name in mesh descriptions. -/
def name : IndexType → String
  | ubyte => "ubyte"
  | ushort => "ushort"
  | uint => "uint"

/-- The scalar type of an index. -/
def scalar : IndexType → Scalar
  | ubyte => .u8
  | ushort => .u16
  | uint => .u32

/-- The short name in listings of commands. -/
def label : IndexType → String
  | ubyte => "U8"
  | ushort => "U16"
  | uint => "U32"

/-- The number of bytes of an index. -/
def size (type : IndexType) : Nat := type.scalar.size

/-- The component type code. -/
def code (type : IndexType) : Nat := type.scalar.code

/-- The index type with the given name. -/
def ofName? (name : String) : Option IndexType := all.find? fun type => type.name = name

theorem size_pos (type : IndexType) : 0 < type.size := type.scalar.size_pos

end IndexType

end MeshLayout
