/-
MeshLayout/Proofs/Tiling.lean

Both buffers of a mesh are tiled by their blocks.

The blocks of the vertex buffer are listed in the attribute table, those of
the index buffer in the indexed commands.  In either list every block
starts where the one before has ended, the first at byte 0, and the last
ends with the buffer (`Consecutive`).  So no two blocks overlap and every
byte belongs to one (`Tiles`).

The invariant is `Layout`.  A push that succeeds adds at most one block, and
at the end of its buffer; one that fails leaves the tables and the buffers
as they are.  Main result: `layout_pushEach`, about any pushes whatever and
the mesh that is made after them.
-/
import Mathlib.Algebra.Ring.Nat
import MeshLayout.Proofs.Run

namespace MeshLayout

/-! ### Spans of a buffer -/

/-- A run of bytes. -/
structure Span where
  offset : Nat
  length : Nat

/-- Every span starts where the one before has ended, from byte `start` up to byte `stop`. -/
def Consecutive (start stop : Nat) : List Span → Prop
  | [] => start = stop
  | span :: rest => span.offset = start ∧ Consecutive (span.offset + span.length) stop rest

namespace Consecutive

variable {start stop : Nat} {spans : List Span}

/-- A span that starts at the end continues the list. -/
theorem append (h : Consecutive start stop spans) (length : Nat) :
    Consecutive start (stop + length) (spans ++ [⟨stop, length⟩]) := by
  induction spans generalizing start with
  | nil => exact ⟨Eq.symm h, rfl⟩
  | cons span rest ih => exact ⟨h.1, ih h.2⟩

theorem le_offset (h : Consecutive start stop spans) : ∀ span ∈ spans, start ≤ span.offset := by
  induction spans generalizing start with
  | nil => simp
  | cons span rest ih =>
    obtain ⟨hoffset, hrest⟩ := h
    intro s hs
    rcases List.mem_cons.1 hs with rfl | hs
    · exact Nat.le_of_eq hoffset.symm
    · have hle := ih hrest s hs
      omega

theorem le (h : Consecutive start stop spans) : start ≤ stop := by
  induction spans generalizing start with
  | nil => exact Nat.le_of_eq h
  | cons span rest ih =>
    obtain ⟨hoffset, hrest⟩ := h
    have hle := ih hrest
    omega

/-- The spans are as long as the whole. -/
theorem stop_eq (h : Consecutive start stop spans) :
    stop = start + (spans.map Span.length).sum := by
  induction spans generalizing start with
  | nil => exact Eq.symm h
  | cons span rest ih =>
    obtain ⟨rfl, hrest⟩ := h
    rw [ih hrest, List.map_cons, List.sum_cons, Nat.add_assoc]

/-- No span reaches beyond the end. -/
theorem end_le (h : Consecutive start stop spans) :
    ∀ span ∈ spans, span.offset + span.length ≤ stop := by
  induction spans generalizing start with
  | nil => simp
  | cons span rest ih =>
    obtain ⟨-, hrest⟩ := h
    intro s hs
    rcases List.mem_cons.1 hs with rfl | hs
    · exact hrest.le
    · exact ih hrest s hs

/-- No span reaches into a later one. -/
theorem disjoint (h : Consecutive start stop spans) :
    spans.Pairwise fun a b => a.offset + a.length ≤ b.offset := by
  induction spans generalizing start with
  | nil => exact .nil
  | cons span rest ih => exact .cons h.2.le_offset (ih h.2)

/-- No byte is left out. -/
theorem covered (h : Consecutive start stop spans) {i : Nat} (hstart : start ≤ i)
    (hstop : i < stop) : ∃ span ∈ spans, span.offset ≤ i ∧ i < span.offset + span.length := by
  induction spans generalizing start with
  | nil =>
    have hnone : start = stop := h
    omega
  | cons span rest ih =>
    obtain ⟨hoffset, hrest⟩ := h
    by_cases hi : i < span.offset + span.length
    -- the byte lies in the first span, or behind it in those that remain
    · exact ⟨span, List.mem_cons_self .., by omega, hi⟩
    · obtain ⟨s, hs, hin⟩ := ih hrest (by omega)
      exact ⟨s, List.mem_cons_of_mem _ hs, hin⟩

end Consecutive

/-- The spans tile a buffer of the given size. -/
structure Tiles (spans : List Span) (size : Nat) : Prop where
  consecutive : Consecutive 0 size spans
  disjoint : spans.Pairwise fun a b => a.offset + a.length ≤ b.offset
  covered : ∀ i < size, ∃ span ∈ spans, span.offset ≤ i ∧ i < span.offset + span.length

theorem Consecutive.tiles {spans : List Span} {size : Nat} (h : Consecutive 0 size spans) :
    Tiles spans size :=
  ⟨h, h.disjoint, fun i hi => h.covered (Nat.zero_le i) hi⟩

theorem Tiles.append {spans : List Span} {size : Nat} (h : Tiles spans size) (length : Nat) :
    Tiles (spans ++ [⟨size, length⟩]) (size + length) :=
  (h.consecutive.append length).tiles

/-! ### The layout of a mesh -/

/-- The block of an attribute. -/
def Attribute.span (a : Attribute) : Span := ⟨a.offset, a.length⟩

/-- The block of an indexed command. -/
def Command.span? : Command → Option Span
  | indexed _ offset count type => some ⟨offset, count * type.size⟩
  | direct .. => none

/-- An attribute has components and values, and its block is made up of whole values.  Both
divisors of the counts of an attribute are positive. -/
structure Attribute.Filled (a : Attribute) : Prop where
  components_pos : 0 < a.components.toNat
  size_pos : 0 < a.type.size
  length_pos : 0 < a.length
  length_eq : a.length = a.valueCount * a.type.size

/-- The tables of a mesh describe buffers of the given sizes. -/
structure Layout (attributes : List Attribute) (commands : List Command)
    (vertexBytes indexBytes : Nat) : Prop where
  attributes_tile : Tiles (attributes.map Attribute.span) vertexBytes
  attributes_filled : ∀ a ∈ attributes, a.Filled
  indices_tile : Tiles (commands.filterMap Command.span?) indexBytes
  indices_filled : ∀ {mode offset count type}, .indexed mode offset count type ∈ commands →
    0 < count

/-- The mesh is described by its tables. -/
def Mesh.LaidOut (mesh : Mesh) : Prop :=
  Layout mesh.attributes mesh.commands mesh.vertexData.length mesh.indexData.length

namespace Compiler

variable {c d : Compiler}

/-- What has been declared so far is described by the tables. -/
def LaidOut (c : Compiler) : Prop :=
  Layout c.attributes c.commands c.vertices.length c.indices.length

theorem laidOut_start (options : Options) : (start options).LaidOut where
  attributes_tile := Consecutive.tiles rfl
  attributes_filled := by simp [start]
  indices_tile := Consecutive.tiles rfl
  indices_filled := by simp [start]

theorem LaidOut.withAttribute (h : c.LaidOut) {slot components : UInt32} {type : AttributeType}
    {values : List type.scalar.Word} (hcomponents : components ≠ 0) (hvalues : values ≠ []) :
    (c.withAttribute slot components type values).LaidOut where
  attributes_tile := by
    have hlength : (type.scalar.bytesOf values).length = values.length * type.size :=
      Scalar.length_bytesOf values
    simpa [Compiler.withAttribute, Attribute.span, hlength] using
      h.attributes_tile.append (values.length * type.size)
  attributes_filled := by
    intro a ha
    rcases List.mem_append.1 ha with ha | ha
    · exact h.attributes_filled a ha
    · obtain rfl := List.mem_singleton.1 ha
      have hcount : 0 < values.length := List.length_pos_iff.2 hvalues
      -- the new block is as long as its values, which are at least one
      refine ⟨?_, type.size_pos, Nat.mul_pos hcount type.size_pos, ?_⟩
      · apply Nat.pos_of_ne_zero
        exact fun hzero => hcomponents (UInt32.toNat_inj.1 hzero)
      · simp [Attribute.valueCount, Nat.mul_div_cancel _ type.size_pos]
  indices_tile := h.indices_tile
  indices_filled := h.indices_filled

theorem LaidOut.withIndices (h : c.LaidOut) (mode : Primitive) {type : IndexType}
    {values : List type.scalar.Word} (hvalues : values ≠ []) :
    (c.withIndices mode type values).LaidOut where
  attributes_tile := h.attributes_tile
  attributes_filled := h.attributes_filled
  indices_tile := by
    have hlength : (type.scalar.bytesOf values).length = values.length * type.size :=
      Scalar.length_bytesOf values
    simpa [Compiler.withIndices, hlength, Command.span?] using
      h.indices_tile.append (values.length * type.size)
  indices_filled := by
    intro mode offset count type hmem
    rcases List.mem_append.1 hmem with hmem | hmem
    · exact h.indices_filled hmem
    · obtain ⟨-, -, rfl, -⟩ := Command.indexed.inj (List.mem_singleton.1 hmem)
      exact List.length_pos_iff.2 hvalues

theorem LaidOut.withArrays (h : c.LaidOut) (mode : Primitive) (first count : UInt32) :
    (c.withArrays mode first count).LaidOut where
  attributes_tile := h.attributes_tile
  attributes_filled := h.attributes_filled
  indices_tile := by
    simpa [Compiler.withArrays, Command.span?, List.filterMap_cons] using h.indices_tile
  indices_filled := by
    intro mode offset count type hmem
    exact h.indices_filled (by simpa [Compiler.withArrays] using hmem)

theorem LaidOut.place (h : c.LaidOut) {block : Block} {content : Content}
    (hdenotes : block.Denotes content) : (c.place content).LaidOut := by
  cases hdenotes with
  | ofAttribute _ hcomponents _ hvalues => exact h.withAttribute hcomponents hvalues
  | ofIndices _ _ _ hvalues => exact h.withIndices _ hvalues
  | ofArrays => exact h.withArrays _ _ _

theorem LaidOut.takes {event : Event} (h : c.LaidOut) (htakes : c.Takes event d) : d.LaidOut := by
  cases htakes with
  | enterMesh | exitMesh => exact h
  | block _ hdenotes => exact h.place hdenotes

theorem Places.laidOut {blocks : List Block} (h : c.Places blocks d) (hc : c.LaidOut) :
    d.LaidOut := by
  induction h with
  | nil => exact hc
  | cons hdenotes _ _ ih => exact ih (hc.place hdenotes)

/-! ### After any pushes -/

/-- The compiler after pushing every event, whatever comes of each. -/
def pushEach (c : Compiler) (events : List Event) : Compiler :=
  events.foldl (fun c event => (c.push event).compiler) c

theorem LaidOut.push (h : c.LaidOut) (event : Event) : (c.push event).compiler.LaidOut := by
  rcases c.push_cases event with htakes | ⟨scratch, hscratch⟩
  · exact h.takes htakes
  · rw [hscratch]
    exact h

theorem LaidOut.pushEach (h : c.LaidOut) (events : List Event) : (c.pushEach events).LaidOut := by
  induction events generalizing c with
  | nil => exact h
  | cons event rest ih => exact ih (h.push event)

/-- **The blocks tile both buffers**, after any pushes and in the mesh that is made from them. -/
theorem layout_pushEach (options : Options) (events : List Event) :
    ((start options).pushEach events).LaidOut ∧
      ∀ mesh, ((start options).pushEach events).finish.result = .ok mesh → mesh.LaidOut := by
  have h := (laidOut_start options).pushEach events
  refine ⟨h, ?_⟩
  intro mesh hmesh
  obtain ⟨-, -, -, rfl⟩ := finish_eq_ok_iff.1 hmesh
  exact h

/-- Blocks of different widths; the second is refused, for it has no components. -/
def mixedBlocks : List Event :=
  [.enterMesh, .block (.attribute 0 "ushort" 2 "1 2 3"), .block (.attribute 1 "float" 0 "1"),
   .block (.indices "triangles" "ubyte" "0 1 2"), .block (.attribute 2 "float" 1 "0.5"),
   .block (.indices "points" "uint" "7"), .exitMesh]

theorem laidOut_mixedBlocks :
    ∃ mesh, ((start .lenient).pushEach mixedBlocks).finish.result = .ok mesh ∧
      mesh.attributes.map Attribute.span = [⟨0, 6⟩, ⟨6, 4⟩] ∧
      mesh.commands.filterMap Command.span? = [⟨0, 3⟩, ⟨3, 4⟩] ∧ mesh.LaidOut := by
  refine ⟨_, rfl, rfl, rfl, ?_⟩
  exact (layout_pushEach .lenient mixedBlocks).2 _ rfl

end Compiler

/-- A mesh that compiles is described by its tables. -/
theorem laidOut_of_compile {options : Options} {events : List Event} {mesh : Mesh}
    (h : (compile options events).result = .ok mesh) : mesh.LaidOut := by
  obtain ⟨blocks, last, -, hplaces, -, -, rfl⟩ := compile_eq_ok_iff.1 h
  have hopened : (Compiler.opened options).LaidOut := Compiler.laidOut_start options
  exact hplaces.laidOut hopened

end MeshLayout
