/-
MeshLayout/Proofs/Reordering.lean

The order in which attributes are declared.

The order decides where the blocks lie in the vertex buffer and which
attribute the others are compared with.  A reader who asks for attributes by
their slots learns neither (`ReadsAs`), as long as no slot is declared
twice: the declaration of a slot is then found wherever it stands
(`find?_key_of_perm`), and all that can be asked about an attribute is told by
its declaration.

The commands keep their order, and so does what they draw, for an attribute
block leaves their side alone (`part_pushEach`).  Main result:
`reads_of_reordered`.
-/
import Mathlib.Data.Set.List
import MeshLayout.Proofs.Guarantees
import MeshLayout.Proofs.Readback
import MeshLayout.Proofs.Sides

namespace MeshLayout

/-! ### Reordered events -/

/-- Does the event declare an attribute? -/
def Event.isAttribute : Event → Bool
  | .block b => !b.isCommand
  | .enterMesh | .exitMesh => false

/-- The attributes are declared in another order, and perhaps elsewhere among the other events,
which keep theirs. -/
structure Reordered (events events' : List Event) : Prop where
  perm : events.Perm events'
  others : (events.filter fun event => !event.isAttribute) =
    events'.filter fun event => !event.isAttribute

theorem Reordered.symm {events events' : List Event} (h : Reordered events events') :
    Reordered events' events :=
  ⟨h.perm.symm, h.others.symm⟩

theorem Event.block_injective : Function.Injective Event.block := fun _ _ => Event.block.inj

/-- The events that are no attributes are the blocks of the commands. -/
theorem filter_map_block (blocks : List Block) :
    ((blocks.map Event.block).filter fun event => !event.isAttribute) =
      (blocksOn .index blocks).map .block := by
  rw [List.filter_map, blocksOn]
  congr 1
  apply List.filter_congr
  intro block _
  simp [Event.isAttribute, Block.side_eq_index_iff]

/-- Blocks in another order are blocks. -/
theorem Reordered.exists_blocks {blocks : List Block} {events : List Event}
    (h : Reordered (blocks.map .block) events) :
    ∃ blocks' : List Block, events = blocks'.map .block ∧ blocks.Perm blocks' ∧
      blocksOn .index blocks = blocksOn .index blocks' := by
  have hrange : events ∈ Set.range (List.map Event.block) := by
    rw [Set.range_list_map]
    intro event hevent
    obtain ⟨block, -, rfl⟩ := List.mem_map.1 (h.perm.mem_iff.2 hevent)
    exact ⟨block, rfl⟩
  obtain ⟨blocks', rfl⟩ := hrange
  refine ⟨blocks', rfl, (List.map_perm_map_iff Event.block_injective).1 h.perm, ?_⟩
  apply List.map_injective_iff.2 Event.block_injective
  rw [← filter_map_block, ← filter_map_block, h.others]

/-! ### What a reader learns -/

/-- What can be asked about an attribute, apart from its place and its values. -/
def Attribute.shape (a : Attribute) : UInt32 × AttributeType × Nat × Nat × Nat :=
  (a.components, a.type, a.length, a.valueCount, a.vertexCount)

/-- Readers who ask for attributes by their slots find no difference. -/
structure Mesh.ReadsAs (mesh mesh' : Mesh) : Prop where
  values : ∀ k slot, mesh.readAttribute k slot = mesh'.readAttribute k slot
  shape : ∀ slot, (mesh.attribute? slot).map Attribute.shape =
    (mesh'.attribute? slot).map Attribute.shape
  vertexCount : mesh.vertexCount? = mesh'.vertexCount?
  commands : mesh.commands = mesh'.commands
  indexData : mesh.indexData = mesh'.indexData
  length_vertexData : mesh.vertexData.length = mesh'.vertexData.length

/-- The number of bytes that the tokens stand for. -/
def Declaration.byteCount (d : Declaration) : Nat := d.count * d.scalar?.elim 0 Scalar.size

namespace Declaration.Realized

variable {bytes bytes' : List UInt8} {d : Declaration} {a a' : Attribute}

theorem length_eq (h : Realized bytes d a) : a.length = d.byteCount := by
  obtain ⟨values, hread, hlength, -⟩ := h.stored
  rw [hlength, Scalar.length_of_readText hread, byteCount, count, h.scalar?_eq]
  rfl

/-- The declaration tells all that can be asked. -/
theorem shape_eq (h : Realized bytes d a) (h' : Realized bytes' d a') : a.shape = a'.shape := by
  have htype : a.type = a'.type := by
    apply Option.some.inj
    rw [← AttributeType.ofName?_eq_some_iff.2 h.name_eq,
      AttributeType.ofName?_eq_some_iff.2 h'.name_eq]
  rw [Attribute.shape, Attribute.shape, h.components_eq, h'.components_eq, htype, h.length_eq,
    h'.length_eq, h.valueCount_eq, h'.valueCount_eq, h.vertexCount_eq, h'.vertexCount_eq]

end Declaration.Realized

namespace Mesh

variable {mesh mesh' : Mesh} {ds ds' : List Declaration}

theorem LaidOut.length_vertexData (h : mesh.LaidOut)
    (hrealized : List.Forall₂ (Declaration.Realized mesh.vertexData.bytes) ds mesh.attributes) :
    mesh.vertexData.length = (ds.map Declaration.byteCount).sum := by
  have hlengths : (mesh.attributes.map Attribute.span).map Span.length =
      ds.map Declaration.byteCount := by
    rw [List.map_map]
    exact map_realized hrealized fun _ _ hda => hda.length_eq
  rw [h.attributes_tile.consecutive.stop_eq, hlengths, Nat.zero_add]

section Lookup

variable
  (h : List.Forall₂ (Declaration.Realized mesh.vertexData.bytes) ds mesh.attributes)
  (h' : List.Forall₂ (Declaration.Realized mesh'.vertexData.bytes) ds' mesh'.attributes)
  {slot : UInt32}
  (hfind : ds.find? (fun d => d.slot = slot) = ds'.find? fun d => d.slot = slot)

include h h' hfind

theorem readAttribute_congr (k : Scalar) :
    mesh.readAttribute k slot = mesh'.readAttribute k slot := by
  apply Option.ext
  intro values
  rw [readAttribute_eq_some_iff h, readAttribute_eq_some_iff h', hfind]

theorem map_shape_congr : (mesh.attribute? slot).map Attribute.shape =
    (mesh'.attribute? slot).map Attribute.shape := by
  rw [attribute?, attribute?]
  rcases find?_realized h slot with ⟨hd, ha⟩ | ⟨d, a, hd, ha, hda⟩
  · rcases find?_realized h' slot with ⟨-, ha'⟩ | ⟨d', a', hd', -, -⟩
    · rw [ha, ha']
    · rw [← hfind, hd] at hd'
      cases hd'
  · rcases find?_realized h' slot with ⟨hd', -⟩ | ⟨d', a', hd', ha', hda'⟩
    · rw [← hfind, hd] at hd'
      cases hd'
    · -- both rows belong to the declaration that is found first
      obtain rfl : d = d' := Option.some.inj (hd.symm.trans (hfind.trans hd'))
      rw [ha, ha', Option.map_some, Option.map_some, hda.shape_eq hda']

end Lookup

theorem vertexCount?_of_perm
    (h : List.Forall₂ (Declaration.Realized mesh.vertexData.bytes) ds mesh.attributes)
    (h' : List.Forall₂ (Declaration.Realized mesh'.vertexData.bytes) ds' mesh'.attributes)
    (hperm : ds.Perm ds') : mesh.vertexCount? = mesh'.vertexCount? := by
  have hnil : ds ≠ [] ↔ ds' ≠ [] := by
    rw [Ne, Ne, ← List.length_eq_zero_iff, hperm.length_eq, List.length_eq_zero_iff]
  apply Option.ext
  intro n
  rw [vertexCount?_eq_some_iff_of_realized h, vertexCount?_eq_some_iff_of_realized h', hnil]
  simp only [hperm.mem_iff]

end Mesh

/-! ### Whole descriptions -/

variable {options : Options} {blocks blocks' : List Block} {events events' : List Event}
  {mesh mesh' : Mesh}

/-- The commands and the index buffer come from the commands alone. -/
theorem indexSide_of_compile (hindex : blocksOn .index blocks = blocksOn .index blocks')
    (h : (compile options (inRoot (blocks.map .block))).result = .ok mesh)
    (h' : (compile options (inRoot (blocks'.map .block))).result = .ok mesh') :
    mesh.commands = mesh'.commands ∧ mesh.indexData = mesh'.indexData := by
  have hpart : ((Compiler.opened options).pushEach (blocks.map .block)).part .index =
      ((Compiler.opened options).pushEach (blocks'.map .block)).part .index := by
    rw [Compiler.part_pushEach, hindex, ← Compiler.part_pushEach]
  obtain ⟨hcommands, hindices⟩ := Compiler.index_of_part_eq hpart
  rw [mesh_of_compile h, mesh_of_compile h', Compiler.mesh, Compiler.mesh, hcommands, hindices]
  exact ⟨rfl, rfl⟩

theorem readsAs_of_perm (hunique : options.uniqueSlots = true) (hperm : blocks.Perm blocks')
    (hindex : blocksOn .index blocks = blocksOn .index blocks')
    (h : (compile options (inRoot (blocks.map .block))).result = .ok mesh)
    (h' : (compile options (inRoot (blocks'.map .block))).result = .ok mesh') :
    mesh.ReadsAs mesh' := by
  have hds : (declarations (inRoot (blocks.map .block))).Perm
      (declarations (inRoot (blocks'.map .block))) := by
    simpa [declarations] using hperm.filterMap Block.declaration?
  have hnodup := (exists_compile_iff.1 ⟨mesh, h⟩).consistent.unique hunique
  have hfind := find?_key_of_perm hnodup hds
  have hrealized := realized_of_compile h
  have hrealized' := realized_of_compile h'
  obtain ⟨hcommands, hindexData⟩ := indexSide_of_compile hindex h h'
  have hlength : mesh.vertexData.length = mesh'.vertexData.length := by
    rw [(laidOut_of_compile h).length_vertexData hrealized,
      (laidOut_of_compile h').length_vertexData hrealized', (hds.map _).sum_nat]
  exact
    { values := fun k slot => Mesh.readAttribute_congr hrealized hrealized' (hfind slot) k
      shape := fun slot => Mesh.map_shape_congr hrealized hrealized' (hfind slot)
      vertexCount := Mesh.vertexCount?_of_perm hrealized hrealized' hds
      commands := hcommands
      indexData := hindexData
      length_vertexData := hlength }

/-- Events in the root element that compile are blocks. -/
theorem exists_blocks_of_compile (h : (compile options (inRoot events)).result = .ok mesh) :
    ∃ blocks : List Block, events = blocks.map .block := by
  obtain ⟨blocks, -, hevents, -⟩ := compile_eq_ok_iff.1 h
  exact ⟨blocks, by simpa [inRoot] using hevents⟩

theorem Reordered.exists_compile (hreordered : Reordered events events')
    (h : ∃ mesh, (compile options (inRoot events)).result = .ok mesh) :
    ∃ mesh, (compile options (inRoot events')).result = .ok mesh := by
  obtain ⟨mesh, hmesh⟩ := h
  obtain ⟨blocks, rfl⟩ := exists_blocks_of_compile hmesh
  obtain ⟨blocks', rfl, hperm, -⟩ := hreordered.exists_blocks
  exact exists_compile_perm hperm ⟨mesh, hmesh⟩

/-- **The order of the attributes does not matter to readers**, if slots are unique.  Whether a
description compiles does not depend on it either. -/
theorem reads_of_reordered (hunique : options.uniqueSlots = true)
    (hreordered : Reordered events events') :
    ((∃ mesh, (compile options (inRoot events)).result = .ok mesh) ↔
      ∃ mesh, (compile options (inRoot events')).result = .ok mesh) ∧
      ∀ mesh mesh', (compile options (inRoot events)).result = .ok mesh →
        (compile options (inRoot events')).result = .ok mesh' → mesh.ReadsAs mesh' := by
  refine ⟨⟨hreordered.exists_compile, hreordered.symm.exists_compile⟩, ?_⟩
  intro mesh mesh' h h'
  obtain ⟨blocks, rfl⟩ := exists_blocks_of_compile h
  obtain ⟨blocks', rfl, hperm, hindex⟩ := hreordered.exists_blocks
  exact readsAs_of_perm hunique hperm hindex h h'

/-- Two attributes, and a command of either kind behind one of them. -/
def coordinatesFirst : List Event :=
  [.block (.attribute 2 "float" 2 "0 1 0.5 1"), .block (.arrays "lines" 0 2),
   .block (.attribute 4 "ubyte" 1 "7 8"), .block (.indices "points" "ubyte" "1 0")]

/-- The same, the other way round. -/
def coordinatesLast : List Event :=
  [.block (.attribute 4 "ubyte" 1 "7 8"), .block (.arrays "lines" 0 2),
   .block (.indices "points" "ubyte" "1 0"), .block (.attribute 2 "float" 2 "0 1 0.5 1")]

/-- The tables of the two meshes differ, but not to readers. -/
theorem readsAs_coordinates :
    Options.strict.uniqueSlots = true ∧ Reordered coordinatesFirst coordinatesLast ∧
      ∃ mesh mesh', (compile .strict (inRoot coordinatesFirst)).result = .ok mesh ∧
        (compile .strict (inRoot coordinatesLast)).result = .ok mesh' ∧
        mesh.attributes.map Attribute.slot = [2, 4] ∧
        mesh'.attributes.map Attribute.slot = [4, 2] ∧ mesh.ReadsAs mesh' ∧
        mesh.readAttribute .f32 2 = some [0x00000000, 0x3f800000, 0x3f000000, 0x3f800000] ∧
        mesh'.readAttribute .f32 2 = some [0x00000000, 0x3f800000, 0x3f000000, 0x3f800000] := by
  have hreordered : Reordered coordinatesFirst coordinatesLast := by
    refine ⟨?_, rfl⟩
    have hback := List.perm_append_singleton coordinatesFirst[0] coordinatesFirst.tail
    have hfront : coordinatesFirst.tail.Perm (coordinatesLast.take 3) := .swap ..
    exact hback.symm.trans (hfront.append_right _)
  have h : (compile .strict (inRoot coordinatesFirst)).result = .ok _ := rfl
  have h' : (compile .strict (inRoot coordinatesLast)).result = .ok _ := rfl
  have hunique : Options.strict.uniqueSlots = true := rfl
  obtain ⟨-, hreads⟩ := reads_of_reordered hunique hreordered
  have hreadsAs := hreads _ _ h h'
  refine ⟨hunique, hreordered, _, _, h, h', rfl, rfl, hreadsAs, rfl, ?_⟩
  -- the block lies elsewhere in the second mesh
  rw [← hreadsAs.values]
  rfl

end MeshLayout
