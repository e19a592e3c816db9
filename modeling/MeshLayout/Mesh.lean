/-
MeshLayout/Mesh.lean

The result of compiling a mesh description: the layout of the vertex
attributes, the draw commands, and the two buffers that both refer to.

Attributes are not interleaved.  Each occupies one block of the vertex
buffer, its values packed without gaps; the indices of each indexed command
occupy one block of the index buffer.
-/
import MeshLayout.AttributeType
import MeshLayout.IndexType
import MeshLayout.Primitive
import MeshLayout.Buffer

namespace MeshLayout

/-! ### Attributes -/

/-- Where a vertex attribute lies in the vertex buffer. -/
structure Attribute where
  slot : UInt32
  /-- components of a vertex -/
  components : UInt32
  type : AttributeType
  /-- first byte of the block -/
  offset : Nat
  /-- number of bytes of the block -/
  length : Nat
deriving DecidableEq

namespace Attribute

/-- The number of values in the block. -/
def valueCount (a : Attribute) : Nat := a.length / a.type.size

/-- The number of whole vertices in the block. -/
def vertexCount (a : Attribute) : Nat := a.valueCount / a.components.toNat

/-- The number of bytes from one vertex to the next. -/
def stride (a : Attribute) : Nat := a.type.size * a.components.toNat

end Attribute

/-! ### Commands -/

/-- A draw command. -/
inductive Command where
  /-- draws `count` vertices by their indices, which start `offset` bytes into the index
  buffer -/
  | indexed (mode : Primitive) (offset count : Nat) (type : IndexType)
  /-- draws `count` vertices from vertex `first` on -/
  | direct (mode : Primitive) (first count : UInt32)
deriving DecidableEq

namespace Command

/-- How the vertices are interpreted. -/
def mode : Command → Primitive
  | indexed mode .. => mode
  | direct mode .. => mode

/-- Does the command draw through the index buffer? -/
def isIndexed : Command → Bool
  | indexed .. => true
  | direct .. => false

/-- The command in a listing. -/
def listing : Command → String
  | indexed mode offset count type =>
    "Indexed \x7b mode: " ++ mode.label ++ ", offset: " ++ toString offset ++ ", count: " ++
      toString count ++ ", index_type: " ++ type.label ++ " \x7d"
  | direct mode first count =>
    "Direct \x7b mode: " ++ mode.label ++ ", first: " ++ toString first.toNat ++ ", count: " ++
      toString count.toNat ++ " \x7d"

end Command

/-! ### Meshes -/

/-- A compiled mesh. -/
structure Mesh where
  /-- in the order of declaration -/
  attributes : List Attribute
  /-- in the order of declaration -/
  commands : List Command
  vertexData : Buffer
  indexData : Buffer
deriving DecidableEq

namespace Mesh

/-- The first attribute with the given slot. -/
def attribute? (mesh : Mesh) (slot : UInt32) : Option Attribute :=
  mesh.attributes.find? fun a => a.slot = slot

/-- Has any command indices? -/
def hasIndices (mesh : Mesh) : Bool := !mesh.indexData.bytes.isEmpty

/-- The number of vertices, if all attributes agree on it. -/
def vertexCount? (mesh : Mesh) : Option Nat :=
  match mesh.attributes with
  | [] => none
  | first :: rest =>
    if rest.all fun a => a.vertexCount = first.vertexCount then some first.vertexCount else none

/-- The values of the first attribute with the given slot, if its components are of the given
scalar type. -/
def readAttribute (mesh : Mesh) (k : Scalar) (slot : UInt32) : Option (List k.Word) := do
  let a ← mesh.attribute? slot
  if a.type.scalar = k then mesh.vertexData.values? k a.offset a.valueCount else none

end Mesh

end MeshLayout
