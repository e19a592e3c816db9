/-
MeshLayout/Compiler/Basic.lean

Compiling a mesh description into a mesh.

A compiler holds what has been declared so far.  An event is checked
against it and against the policy, in a fixed order, before anything is
added (`push`); only the scratch space, where the values of a block are
read, may be left changed by a block that fails.  After the last event,
`finish` checks that the description is complete.

The checks of an attribute block are, in this order: the type is known,
there is at least one component, the slot is new, every token is a value,
there is a value, the last vertex is whole, there are as many vertices as
in the first attribute.  The third and the last two are matters of policy.
-/
import MeshLayout.Compiler.Step
import MeshLayout.Token.Reader

namespace MeshLayout

namespace Compiler

/-! ### Checks -/

/-- Treats a violation, if there is one, as the policy says. -/
def review (options : Options) : Option Violation → Logged Error Unit
  | none => pure ()
  | some violation =>
    if options.enforces violation.check then Logged.fail (.violation violation)
    else Logged.note (.passedOver violation)

/-- The slot has been declared before. -/
def duplicateSlot? (c : Compiler) (slot : UInt32) : Option Violation :=
  if c.attributes.any fun a => a.slot = slot then some (.duplicateSlot slot) else none

/-- The values do not make up whole vertices. -/
def partialVertex? (slot components : UInt32) (values : Nat) : Option Violation :=
  if values % components.toNat = 0 then none else some (.partialVertex slot components values)

/-- The first attribute has another number of vertices. -/
def vertexCount? (c : Compiler) (slot : UInt32) (vertices : Nat) : Option Violation :=
  match c.attributes with
  | [] => none
  | first :: _ =>
    if first.vertexCount = vertices then none
    else some (.vertexCount slot first.vertexCount vertices)

/-- The attribute type with the given name. -/
def attributeType (name : String) : Except Error AttributeType :=
  match AttributeType.ofName? name with
  | some type => .ok type
  | none => .error (.unsupportedType name)

/-- The index type with the given name. -/
def indexType (name : String) : Except Error IndexType :=
  match IndexType.ofName? name with
  | some type => .ok type
  | none => .error (.unsupportedType name)

/-- The primitive with the given name. -/
def primitive (name : String) : Except Error Primitive :=
  match Primitive.ofName? name with
  | some mode => .ok mode
  | none => .error (.unsupportedPrimitive name)

/-! ### Blocks -/

/-- Appends the values of a text to the scratch space.  Gives their number. -/
def fillScratch (k : Scalar) (text : String) : Step Nat := fun c =>
  let (count, scratch) := k.encodeInto text c.scratch
  ⟨{ c with scratch := scratch }, ⟨[], count⟩⟩

/-- Reads the values of a block into the scratch space, which is cleared first.  Gives their
number. -/
def encode (k : Scalar) (text : String) : Step Nat := do
  Step.change fun c => { c with scratch := [] }
  fillScratch k text

/-- Moves the block that has been read to the end of the vertex buffer, as an attribute. -/
def appendAttribute (slot components : UInt32) (type : AttributeType) : Step Unit := do
  let c ← Step.current
  let a : Attribute := ⟨slot, components, type, c.vertices.length, c.scratch.length⟩
  Step.change fun c => { c with vertices := c.vertices ++ c.scratch }
  Step.note (.addedAttribute a)
  Step.change fun c => { c with attributes := c.attributes ++ [a] }

/-- Adds a command. -/
def appendCommand (command : Command) : Step Unit := do
  Step.note (.addedCommand command)
  Step.change fun c => { c with commands := c.commands ++ [command] }

/-- Checks an attribute block and adds it. -/
def pushAttribute (slot : UInt32) (typeName : String) (components : UInt32) (text : String) :
    Step Unit := do
  let type ← attributeType typeName
  Step.require (components ≠ 0) (.zeroComponents slot)
  let c ← Step.current
  review c.options (c.duplicateSlot? slot)
  let count ← encode type.scalar text
  Step.require (count ≠ 0) (.emptyBlock .attribute)
  review c.options (partialVertex? slot components count)
  review c.options (c.vertexCount? slot (count / components.toNat))
  appendAttribute slot components type

/-- Checks a block of indices and adds it as an indexed command. -/
def pushIndices (primitiveName typeName text : String) : Step Unit := do
  let mode ← primitive primitiveName
  let type ← indexType typeName
  let count ← encode type.scalar text
  Step.require (count ≠ 0) (.emptyBlock .indices)
  let c ← Step.current
  Step.change fun c => { c with indices := c.indices ++ c.scratch }
  appendCommand (.indexed mode c.indices.length count type)

/-- Checks a direct command and adds it. -/
def pushArrays (primitiveName : String) (first count : UInt32) : Step Unit := do
  let mode ← primitive primitiveName
  appendCommand (.direct mode first count)

/-- Checks a block and adds it. -/
def pushBlock : Block → Step Unit
  | .attribute slot typeName components text => pushAttribute slot typeName components text
  | .indices primitiveName typeName text => pushIndices primitiveName typeName text
  | .arrays primitiveName first count => pushArrays primitiveName first count

/-! ### Events -/

/-- Goes to another stage. -/
def enter (stage : Stage) : Step Unit := Step.change fun c => { c with stage := stage }

/-- The step that an event calls for. -/
def eventStep (stage : Stage) (event : Event) : Step Unit :=
  match stage, event with
  | .root, .enterMesh => enter .mesh
  | .root, event => Step.check (Logged.fail (.missingRoot event.found))
  | .mesh, .enterMesh => Step.check (Logged.fail (.unexpectedTag .mesh Element.mesh.name))
  | .mesh, .block block => pushBlock block
  | .mesh, .exitMesh => enter .done
  | .done, _ => Step.check (Logged.fail .trailingContent)

/-- Pushes an event. -/
def push (c : Compiler) (event : Event) : Stepped Unit := (eventStep c.stage event).run c

/-- The mesh, if the description is complete. -/
def finish (c : Compiler) : Logged Error Mesh := do
  Logged.require (c.stage = .done) .unexpectedEnd
  Logged.require (!c.attributes.isEmpty) .noAttributes
  Logged.require (!c.commands.isEmpty) .noCommands
  Logged.note
    (.compiled c.attributes.length c.commands.length c.vertices.length c.indices.length)
  return ⟨c.attributes, c.commands, ⟨.array, c.vertices⟩, ⟨.elementArray, c.indices⟩⟩

/-- Pushes events up to the first that is not in order. -/
def pushAll (c : Compiler) : List Event → Logged Error Compiler
  | [] => pure c
  | event :: rest => do
    let c ← (c.push event).next
    c.pushAll rest

/-- Pushes what a token reader gives, up to the first error of either. -/
def pushItems (c : Compiler) : List (Except Error Event) → Logged Error Compiler
  | [] => pure c
  | item :: rest => do
    let event ← item
    let c ← (c.push event).next
    c.pushItems rest

/-- Compiles the events of a whole description. -/
def compile (c : Compiler) (events : List Event) : Logged Error Mesh := do
  let c ← c.pushAll events
  c.finish

/-- Compiles the tokens of a whole description. -/
def compileTokens (c : Compiler) (tokens : List Token) : Logged Error Mesh := do
  let c ← c.pushItems (Reader.items tokens)
  c.finish

end Compiler

/-- Compiles a description under the given policy. -/
def compile (options : Options) (events : List Event) : Logged Error Mesh :=
  (Compiler.start options).compile events

/-- Compiles the tokens of a description under the given policy. -/
def compileTokens (options : Options) (tokens : List Token) : Logged Error Mesh :=
  (Compiler.start options).compileTokens tokens

end MeshLayout
