/-
MeshLayout/Event.lean

Mesh descriptions as a sequence of events.

A description is a root element `mesh` that holds blocks: vertex attribute
values, indexed draw commands with their indices, and direct draw commands.
Names of types and primitives, and the values of a block, are still text
here.  `Event.tokens` writes an event as the markup tokens that read back
as it.
-/
import MeshLayout.Error
import MeshLayout.Token

namespace MeshLayout

/-- One block of a mesh description. -/
inductive Block where
  /-- values of one vertex attribute -/
  | attribute (slot : UInt32) (typeName : String) (components : UInt32) (text : String)
  /-- a command that draws the vertices its indices name -/
  | indices (primitiveName typeName text : String)
  /-- a command that draws a run of vertices -/
  | arrays (primitiveName : String) (first count : UInt32)
deriving DecidableEq

/-- The element that a block is written as. -/
def Block.element : Block → Element
  | .attribute .. => .attribute
  | indices .. => .indices
  | arrays .. => .arrays

/-- One step through a mesh description. -/
inductive Event where
  | enterMesh
  | block (block : Block)
  | exitMesh
deriving DecidableEq

namespace Event

/-- The element that an event belongs to. -/
def element : Event → Element
  | enterMesh | exitMesh => .mesh
  | block b => b.element

/-- An event that stands where the root element was expected. -/
def found : Event → Found
  | exitMesh => .closing Element.mesh.name
  | event => .opening event.element.name

end Event

/-! ### Writing events as markup -/

namespace Block

/-- The attributes of the opening tag of a block. -/
def tag : Block → List (String × String)
  | .attribute slot typeName components _ =>
    [("index", toString slot.toNat), ("type", typeName), ("size", toString components.toNat)]
  | indices primitiveName typeName _ => [("cmd", primitiveName), ("type", typeName)]
  | arrays primitiveName first count =>
    [("cmd", primitiveName), ("start", toString first.toNat), ("count", toString count.toNat)]

/-- What stands between the tags of a block. -/
def inner : Block → List Token
  | .attribute _ _ _ text | indices _ _ text => [.text text]
  | arrays .. => []

/-- The tokens of a block. -/
def tokens (block : Block) : List Token :=
  .opening block.element.name block.tag :: (block.inner ++ [.closing block.element.name])

end Block

/-- The tokens of an event. -/
def Event.tokens : Event → List Token
  | enterMesh => [.opening "mesh" []]
  | block b => b.tokens
  | exitMesh => [.closing "mesh"]

end MeshLayout
