/-
MeshLayout/Primitive.lean

The way in which a run of vertices is put together into points, lines or
triangles.
-/
import MeshLayout.Scalar

namespace MeshLayout

/-- How vertices are interpreted as primitives. -/
inductive Primitive where
  | points | lines | lineLoop | lineStrip | triangles | triangleStrip | triangleFan
deriving DecidableEq

namespace Primitive

/-- Every primitive, in the order of the codes. -/
def all : List Primitive :=
  [points, lines, lineLoop, lineStrip, triangles, triangleStrip, triangleFan]

/-- The name in mesh descriptions. -/
def name : Primitive → String
  | points => "points"
  | lines => "lines"
  | lineLoop => "line-loop"
  | lineStrip => "line-strip"
  | triangles => "triangles"
  | triangleStrip => "tri-strip"
  | triangleFan => "tri-fan"

/-- The name in listings of commands. -/
def label : Primitive → String
  | points => "Points"
  | lines => "Lines"
  | lineLoop => "LineLoop"
  | lineStrip => "LineStrip"
  | triangles => "Triangles"
  | triangleStrip => "TriangleStrip"
  | triangleFan => "TriangleFan"

/-- The drawing mode code. -/
def code : Primitive → Nat
  | points => 0
  | lines => 1
  | lineLoop => 2
  | lineStrip => 3
  | triangles => 4
  | triangleStrip => 5
  | triangleFan => 6

/-- The primitive with the given name. -/
def ofName? (name : String) : Option Primitive := all.find? fun p => p.name = name

/-- The primitive with the given code. -/
def ofCode (code : Nat) : Except UnknownCode Primitive :=
  match all.find? fun p => p.code = code with
  | some p => .ok p
  | none => .error .primitive

end Primitive

end MeshLayout
