/-
MeshLayout/Proofs/Declarations.lean

The tables of a compiler follow the blocks it has read.

Every attribute block has its row in the attribute table and every command
block its command, in the order of the description, and what the text of a
block says is stored where the row or the command points (`Realized`).
Placing a further block moves nothing that is already there, so the blocks
read before keep their rows (`Holds.place`), and the statement carries over
to a whole run (`Places.holds`).
-/
import Mathlib.Data.List.Forall2
import MeshLayout.Proofs.Run

namespace MeshLayout

/-! ### What is declared -/

/-- An attribute block, as it is written. -/
structure Declaration where
  slot : UInt32
  typeName : String
  components : UInt32
  text : String

namespace Declaration

/-- The number of tokens. -/
def count (d : Declaration) : Nat := (words d.text).length

/-- The number of whole vertices that the tokens make up. -/
def vertices (d : Declaration) : Nat := d.count / d.components.toNat

end Declaration

namespace Block

/-- The attribute that a block declares. -/
def declaration? : Block → Option Declaration
  | .attribute slot typeName components text => some ⟨slot, typeName, components, text⟩
  | .indices .. | .arrays .. => none

/-- Does the block declare a command? -/
def isCommand : Block → Bool
  | .attribute .. => false
  | .indices .. | .arrays .. => true

/-- The text of a block of indices. -/
def indexText? : Block → Option String
  | .indices _ _ text => some text
  | .attribute .. | .arrays .. => none

end Block

/-- The block of an event. -/
def Event.block? : Event → Option Block
  | .block b => some b
  | .enterMesh | .exitMesh => none

/-- The blocks of a list of events. -/
def blocksOf (events : List Event) : List Block := events.filterMap Event.block?

/-- The attributes that a list of events declares. -/
def declarations (events : List Event) : List Declaration :=
  (blocksOf events).filterMap Block.declaration?

@[simp] theorem blocksOf_description (blocks : List Block) :
    blocksOf (.enterMesh :: (blocks.map .block ++ [.exitMesh])) = blocks := by
  have hblocks : (blocks.map Event.block).filterMap Event.block? = blocks := by
    rw [List.filterMap_map]
    exact List.filterMap_some
  show (blocks.map Event.block ++ [Event.exitMesh]).filterMap Event.block? = blocks
  rw [List.filterMap_append, hblocks]
  exact List.append_nil blocks

/-! ### Rows and commands -/

/-- The attribute is the declared one, and the declared values are stored in its block. -/
structure Declaration.Realized (bytes : List UInt8) (d : Declaration) (a : Attribute) : Prop where
  slot_eq : a.slot = d.slot
  components_eq : a.components = d.components
  name_eq : a.type.name = d.typeName
  stored : ∃ values, a.type.scalar.readText d.text = .ok values ∧
    a.length = values.length * a.type.size ∧
    Stored bytes a.offset (a.type.scalar.bytesOf values)

namespace Declaration.Realized

variable {bytes : List UInt8} {d : Declaration} {a : Attribute}

theorem append (h : Realized bytes d a) (more : List UInt8) : Realized (bytes ++ more) d a := by
  obtain ⟨values, hread, hlength, hstored⟩ := h.stored
  exact ⟨h.slot_eq, h.components_eq, h.name_eq, values, hread, hlength, hstored.append more⟩

theorem valueCount_eq (h : Realized bytes d a) : a.valueCount = d.count := by
  obtain ⟨values, hread, hlength, -⟩ := h.stored
  rw [Attribute.valueCount, hlength, Nat.mul_div_cancel _ a.type.size_pos,
    Scalar.length_of_readText hread, Declaration.count]

theorem vertexCount_eq (h : Realized bytes d a) : a.vertexCount = d.vertices := by
  rw [Attribute.vertexCount, h.valueCount_eq, h.components_eq, Declaration.vertices]

end Declaration.Realized

/-- What is said of the attributes in a table is what is said of their declarations. -/
theorem map_realized {bytes : List UInt8} {ds : List Declaration} {attributes : List Attribute}
    {α : Type} {f : Attribute → α} {g : Declaration → α}
    (h : List.Forall₂ (Declaration.Realized bytes) ds attributes)
    (hfg : ∀ d a, d.Realized bytes a → f a = g d) : attributes.map f = ds.map g := by
  induction h with
  | nil => rfl
  | cons hfirst _ ih => rw [List.map_cons, List.map_cons, ih, hfg _ _ hfirst]

/-- The command is the declared one, and the declared indices, if any, are stored where it
points. -/
inductive Block.Realized (bytes : List UInt8) : Block → Command → Prop
  | indexed {mode : Primitive} {type : IndexType} {text : String} {offset : Nat}
      {values : List type.scalar.Word} (hread : type.scalar.readText text = .ok values)
      (hstored : Stored bytes offset (type.scalar.bytesOf values)) :
      Realized bytes (.indices mode.name type.name text)
        (.indexed mode offset values.length type)
  | direct {mode : Primitive} {first count : UInt32} :
      Realized bytes (.arrays mode.name first count) (.direct mode first count)

theorem Block.Realized.append {bytes : List UInt8} {block : Block} {command : Command}
    (h : block.Realized bytes command) (more : List UInt8) :
    block.Realized (bytes ++ more) command := by
  cases h with
  | indexed hread hstored => exact .indexed hread (hstored.append more)
  | direct => exact .direct

namespace Compiler

variable {c d : Compiler} {before : List Block}

/-- The tables of the compiler are those of the blocks. -/
structure Holds (c : Compiler) (blocks : List Block) : Prop where
  attributes : List.Forall₂ (Declaration.Realized c.vertices)
    (blocks.filterMap Block.declaration?) c.attributes
  commands : List.Forall₂ (Block.Realized c.indices) (blocks.filter Block.isCommand) c.commands

theorem holds_opened (options : Options) : (opened options).Holds [] := ⟨.nil, .nil⟩

/-- A block is added behind the blocks that have been read. -/
theorem Holds.place (h : c.Holds before) {block : Block} {content : Content}
    (hdenotes : block.Denotes content) : (c.place content).Holds (before ++ [block]) := by
  obtain ⟨hattributes, hcommands⟩ := h
  cases hdenotes with
  | @ofAttribute slot components typeName text type values hname _ hread _ =>
    constructor
    · -- the old rows stand for bytes that have not moved, the new one for those at the end
      have hnew : Declaration.Realized (c.vertices ++ type.scalar.bytesOf values)
          ⟨slot, typeName, components, text⟩
          ⟨slot, components, type, c.vertices.length, values.length * type.size⟩ :=
        ⟨rfl, rfl, hname, values, hread, rfl, .last ..⟩
      rw [List.filterMap_append]
      apply List.rel_append
      · exact hattributes.imp fun _ _ h => h.append _
      · exact .cons hnew .nil
    · rw [List.filter_append, List.filter_cons_of_neg Bool.false_ne_true, List.filter_nil,
        List.append_nil]
      exact hcommands
  | @ofIndices primitiveName typeName text mode type values hmode hname hread _ =>
    subst hmode hname
    constructor
    · rw [List.filterMap_append, List.filterMap_cons_none rfl, List.filterMap_nil, List.append_nil]
      exact hattributes
    · rw [List.filter_append]
      apply List.rel_append
      · exact hcommands.imp fun _ _ h => h.append _
      · exact .cons (.indexed hread (.last ..)) .nil
  | ofArrays hmode =>
    subst hmode
    constructor
    · rw [List.filterMap_append, List.filterMap_cons_none rfl, List.filterMap_nil, List.append_nil]
      exact hattributes
    · rw [List.filter_append]
      apply List.rel_append hcommands
      exact .cons .direct .nil

theorem Places.holds {blocks : List Block} (h : c.Places blocks d) (hbefore : c.Holds before) :
    d.Holds (before ++ blocks) := by
  induction h generalizing before with
  | nil => simpa using hbefore
  | cons hdenotes _ _ ih => simpa using ih (hbefore.place hdenotes)

end Compiler

/-- What compiles holds what its blocks declare. -/
theorem holds_of_compile {options : Options} {events : List Event} {mesh : Mesh}
    (h : (compile options events).result = .ok mesh) :
    ∃ last : Compiler, last.Holds (blocksOf events) ∧ mesh = last.mesh := by
  obtain ⟨blocks, last, rfl, hplaces, -, -, rfl⟩ := compile_eq_ok_iff.1 h
  refine ⟨last, ?_, rfl⟩
  simpa using hplaces.holds (Compiler.holds_opened options)

end MeshLayout
