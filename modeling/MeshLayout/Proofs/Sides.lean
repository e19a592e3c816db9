/-
MeshLayout/Proofs/Sides.lean

The two sides of a compilation.

Attribute blocks fill the attribute table and the vertex buffer, all other
blocks the commands and the index buffer.  `Compiler.part` is what a compiler
has on one of the two sides, the stage and the policy included.  A block of
the other side leaves the part as it is (`part_push_of_ne`), and for a block
of this side the part is all that counts (`push_congr`).

So two blocks of different sides may change places, and a run comes to the
same as two runs beside each other, one for each side (`part_pushEach`): how
the blocks of the sides are mixed makes no difference.  Main result:
`sides_independent`.
-/
import Mathlib.Data.List.Perm.Basic
import MeshLayout.Proofs.Acceptance
import MeshLayout.Proofs.Refusals

namespace MeshLayout

/-! ### Sides -/

/-- A table of a compilation and the buffer that belongs to it. -/
inductive Side where
  /-- the attributes and the vertex buffer -/
  | vertex
  /-- the commands and the index buffer -/
  | index
deriving DecidableEq

/-- The side that the block is placed on. -/
def Block.side : Block → Side
  | .attribute .. => .vertex
  | .indices .. | .arrays .. => .index

/-- The blocks of one side, in their order. -/
def blocksOn (side : Side) (blocks : List Block) : List Block :=
  blocks.filter fun block => block.side = side

theorem Block.side_eq_index_iff {block : Block} : block.side = .index ↔ block.isCommand = true := by
  match block with
  | .attribute .. | .indices .. | .arrays .. => simp [side, isCommand]

/-- A list has the blocks of its two sides. -/
theorem blocksOn_append_perm (blocks : List Block) :
    (blocksOn .vertex blocks ++ blocksOn .index blocks).Perm blocks := by
  have hindex : blocksOn .index blocks = blocks.filter fun block => !decide (block.side = .vertex) := by
    apply List.filter_congr
    intro block _
    rcases block.side with - | - <;> rfl
  rw [hindex]
  exact List.filter_append_perm _ blocks

namespace Compiler

variable {c d : Compiler} {side : Side} {block a b : Block}

/-- What the compiler has on one side.  The other side is empty, and so is the scratch space. -/
def part (c : Compiler) : Side → Compiler
  | .vertex => { c with commands := [], indices := [], scratch := [] }
  | .index => { c with attributes := [], vertices := [], scratch := [] }

@[simp] theorem stage_part : (c.part side).stage = c.stage := by cases side <;> rfl

/-! ### One side of two compilers -/

theorem Agrees.part_eq (h : c.Agrees d) (side : Side) : c.part side = d.part side := by
  rw [h.eq_with_scratch]
  cases side <;> rfl

/-- The part of the commands tells their table and the index buffer. -/
theorem index_of_part_eq (h : c.part .index = d.part .index) :
    c.commands = d.commands ∧ c.indices = d.indices := by
  simp only [part, mk.injEq] at h
  obtain ⟨-, -, -, hcommands, -, hindices, -⟩ := h
  exact ⟨hcommands, hindices⟩

/-- The two sides make up all that compilers can agree on. -/
theorem agrees_of_part_eq (h : ∀ side, c.part side = d.part side) : c.Agrees d := by
  have hvertex := h .vertex
  simp only [part, mk.injEq] at hvertex
  obtain ⟨hoptions, hstage, hattributes, -, hvertices, -⟩ := hvertex
  obtain ⟨hcommands, hindices⟩ := index_of_part_eq (h .index)
  exact ⟨hoptions, hstage, hattributes, hcommands, hvertices, hindices⟩

theorem part_place (content : Content) :
    (c.place content).part side = ((c.part side).place content).part side := by
  cases content <;> cases side <;> rfl

theorem part_place_of_ne {content : Content} (hdenotes : block.Denotes content)
    (h : block.side ≠ side) : (c.place content).part side = c.part side := by
  cases hdenotes with
  | ofAttribute =>
    cases side with
    | vertex => exact absurd rfl h
    | index => rfl
  | ofIndices | ofArrays =>
    cases side with
    | vertex => rfl
    | index => exact absurd rfl h

/-- A block is examined on its own side. -/
theorem examine_part : (c.part block.side).examine block = c.examine block := by
  match block with
  | .attribute .. => exact examine_congr rfl rfl _
  | .indices .. | .arrays .. => rfl

theorem announce_part {content : Content} (hdenotes : block.Denotes content) :
    (c.part block.side).announce content = c.announce content := by
  cases hdenotes <;> rfl

/-! ### One push -/

/-- A block leaves the other side as it was, whatever comes of it. -/
theorem part_push_of_ne (h : block.side ≠ side) :
    (c.push (.block block)).compiler.part side = c.part side := by
  rcases c.push_cases (.block block) with htakes | ⟨scratch, hscratch⟩
  · generalize (c.push (.block block)).compiler = d at htakes ⊢
    cases htakes with
    | block _ hdenotes _ => exact part_place_of_ne hdenotes h
  · rw [hscratch]
    exact (c.agrees_with_scratch scratch).part_eq side

theorem respond_part (h : c.part block.side = d.part block.side) :
    Logged.Alike (fun c d => c.part block.side = d.part block.side)
      (c.respond (.block block)) (d.respond (.block block)) := by
  have hstage : c.stage = d.stage := by
    simpa using congrArg stage h
  have hexamine : c.examine block = d.examine block := by
    rw [← examine_part, h, examine_part]
  unfold respond
  rw [hstage]
  apply Logged.Alike.bind_left
  intro stage _
  show Logged.Alike _ (c.examine block >>= _) (d.examine block >>= _)
  rw [hexamine]
  apply Logged.Alike.bind_left
  intro content hcontent
  have hdenotes := (examine_eq_ok_iff.1 hcontent).1
  have hannounce : c.announce content = d.announce content := by
    rw [← announce_part hdenotes, h, announce_part hdenotes]
  have hplace : (c.place content).part block.side = (d.place content).part block.side := by
    rw [part_place, h, ← part_place]
  rw [hannounce]
  exact .ok [d.announce content] hplace

/-- **A block counts with its own side alone.** -/
theorem push_congr (h : c.part block.side = d.part block.side) :
    (c.push (.block block)).outcome = (d.push (.block block)).outcome ∧
      (c.push (.block block)).compiler.part block.side =
        (d.push (.block block)).compiler.part block.side := by
  apply push_of_alike (respond_part h)
  intro c' d' hc hd
  exact (hc.part_eq _).trans (h.trans (hd.part_eq _).symm)

/-! ### Two blocks of different sides -/

/-- A block is answered as if the other had not been pushed before. -/
theorem outcome_push_push (h : b.side ≠ a.side) :
    ((c.push (.block b)).compiler.push (.block a)).outcome = (c.push (.block a)).outcome :=
  (push_congr (part_push_of_ne h)).1

theorem part_push_push (h : b.side ≠ a.side) :
    ((c.push (.block a)).compiler.push (.block b)).compiler.part a.side =
      ((c.push (.block b)).compiler.push (.block a)).compiler.part a.side :=
  calc ((c.push (.block a)).compiler.push (.block b)).compiler.part a.side
    _ = (c.push (.block a)).compiler.part a.side := part_push_of_ne h
    _ = ((c.push (.block b)).compiler.push (.block a)).compiler.part a.side :=
      (push_congr (part_push_of_ne h)).2.symm

/-- The blocks may be pushed in either order. -/
theorem push_push_agrees (h : b.side ≠ a.side) :
    ((c.push (.block a)).compiler.push (.block b)).compiler.Agrees
      ((c.push (.block b)).compiler.push (.block a)).compiler := by
  apply agrees_of_part_eq
  intro side
  -- there is no third side
  have hside : side = a.side ∨ side = b.side := by
    revert h
    cases side <;> cases a.side <;> cases b.side <;> simp
  rcases hside with rfl | rfl
  · exact part_push_push h
  · exact (part_push_push h.symm).symm

/-! ### Runs -/

theorem part_pushEach_eq (h : c.part side = d.part side) (blocks : List Block) :
    (c.pushEach (blocks.map .block)).part side =
      (d.pushEach ((blocksOn side blocks).map .block)).part side := by
  induction blocks generalizing c d with
  | nil => exact h
  | cons block rest ih =>
    by_cases hside : block.side = side
    · subst hside
      rw [blocksOn, List.filter_cons_of_pos (by simp)]
      exact ih (push_congr h).2
    · rw [blocksOn, List.filter_cons_of_neg (by simpa using hside)]
      exact ih ((part_push_of_ne hside).trans h)

/-- **Each side goes its own way**: it comes to what the blocks of the side alone make of it. -/
theorem part_pushEach (c : Compiler) (side : Side) (blocks : List Block) :
    (c.pushEach (blocks.map .block)).part side =
      (c.pushEach ((blocksOn side blocks).map .block)).part side :=
  part_pushEach_eq rfl blocks

/-- How the two sides are mixed makes no difference, whether the blocks are taken or refused. -/
theorem pushEach_agrees {blocks blocks' : List Block}
    (h : ∀ side, blocksOn side blocks = blocksOn side blocks') :
    (c.pushEach (blocks.map .block)).Agrees (c.pushEach (blocks'.map .block)) := by
  apply agrees_of_part_eq
  intro side
  rw [part_pushEach, h side, ← part_pushEach]

/-- Blocks that are placed are pushed, one after the other. -/
theorem Places.pushEach_eq {blocks : List Block} (h : c.Places blocks d) (hstage : c.stage = .mesh) :
    c.pushEach (blocks.map .block) = d := by
  induction h with
  | nil => rfl
  | @cons c d block content rest hdenotes hadmits _ ih =>
    have hnext := push_next_eq_ok_iff.2 (Takes.block hstage hdenotes hadmits)
    rw [push, Step.next_run_eq_ok_iff] at hnext
    have hplace : (c.push (.block block)).compiler = c.place content := hnext.2
    show (c.push (.block block)).compiler.pushEach (rest.map .block) = d
    rw [hplace]
    exact ih (by simpa using hstage)

end Compiler

/-! ### Whole descriptions -/

/-- The events, in the root element. -/
def inRoot (events : List Event) : List Event := .enterMesh :: (events ++ [.exitMesh])

@[simp] theorem blocksOf_inRoot (events : List Event) : blocksOf (inRoot events) = blocksOf events := by
  show (events ++ [Event.exitMesh]).filterMap Event.block? = _
  rw [List.filterMap_append]
  exact List.append_nil _

@[simp] theorem blocksOf_map_block (blocks : List Block) : blocksOf (blocks.map .block) = blocks := by
  rw [← blocksOf_inRoot]
  exact blocksOf_description blocks

variable {options : Options} {blocks blocks' : List Block} {mesh : Mesh}

/-- A mesh is what its blocks leave when they are pushed. -/
theorem mesh_of_compile (h : (compile options (inRoot (blocks.map .block))).result = .ok mesh) :
    mesh = ((Compiler.opened options).pushEach (blocks.map .block)).mesh := by
  obtain ⟨blocks', last, hevents, hplaces, -, -, rfl⟩ := compile_eq_ok_iff.1 h
  obtain rfl : blocks = blocks' := by
    simpa using congrArg blocksOf hevents
  rw [hplaces.pushEach_eq rfl]

theorem Consistent.perm {ds ds' : List Declaration} (h : Consistent options ds)
    (hperm : ds.Perm ds') : Consistent options ds' where
  whole hwhole d hd := h.whole hwhole d (hperm.mem_iff.2 hd)
  uniform huniform := by
    -- all have as many vertices as one of them, so all have as many as any
    intro d hd first hfirst
    have hd := hperm.mem_iff.2 hd
    have hfirst := hperm.mem_iff.2 (List.mem_of_mem_head? hfirst)
    rcases hds : ds with - | ⟨one, rest⟩
    · rw [hds] at hd
      cases hd
    · have hone : one ∈ ds.head? := by rw [hds]; rfl
      rw [h.uniform huniform d hd one hone, h.uniform huniform first hfirst one hone]
  unique hunique := (hperm.map _).nodup_iff.1 (h.unique hunique)

theorem acceptable_inRoot_iff : Acceptable options (inRoot (blocks.map .block)) ↔
    (∃ block ∈ blocks, block.isCommand = false) ∧ (∃ block ∈ blocks, block.isCommand = true) ∧
      (∀ block ∈ blocks, block.Readable) ∧
      Consistent options (blocks.filterMap Block.declaration?) := by
  have hblocks : blocksOf (inRoot (blocks.map .block)) = blocks := by simp
  constructor
  · rintro ⟨-, hattribute, hcommand, hreadable, hconsistent⟩
    rw [declarations] at hconsistent
    rw [hblocks] at hattribute hcommand hreadable hconsistent
    exact ⟨hattribute, hcommand, hreadable, hconsistent⟩
  · rintro ⟨hattribute, hcommand, hreadable, hconsistent⟩
    constructor
    · rw [hblocks]
      rfl
    · rwa [hblocks]
    · rwa [hblocks]
    · rwa [hblocks]
    · rwa [declarations, hblocks]

/-- The order of its blocks does not decide whether a description is acceptable. -/
theorem acceptable_perm (hperm : blocks.Perm blocks')
    (h : Acceptable options (inRoot (blocks.map .block))) :
    Acceptable options (inRoot (blocks'.map .block)) := by
  simp only [acceptable_inRoot_iff, ← hperm.mem_iff]
  obtain ⟨hattribute, hcommand, hreadable, hconsistent⟩ := acceptable_inRoot_iff.1 h
  exact ⟨hattribute, hcommand, hreadable, hconsistent.perm (hperm.filterMap _)⟩

theorem exists_compile_perm (hperm : blocks.Perm blocks')
    (h : ∃ mesh, (compile options (inRoot (blocks.map .block))).result = .ok mesh) :
    ∃ mesh, (compile options (inRoot (blocks'.map .block))).result = .ok mesh :=
  exists_compile_iff.2 (acceptable_perm hperm (exists_compile_iff.1 h))

theorem compile_of_blocksOn_eq (h : ∀ side, blocksOn side blocks = blocksOn side blocks')
    (hmesh : (compile options (inRoot (blocks.map .block))).result = .ok mesh) :
    (compile options (inRoot (blocks'.map .block))).result = .ok mesh := by
  have hperm : blocks.Perm blocks' := by
    have hsides := blocksOn_append_perm blocks
    rw [h, h] at hsides
    exact hsides.symm.trans (blocksOn_append_perm blocks')
  obtain ⟨mesh', hmesh'⟩ := exists_compile_perm hperm ⟨mesh, hmesh⟩
  have hagrees := Compiler.pushEach_agrees (c := Compiler.opened options) h
  rw [hmesh', mesh_of_compile hmesh, mesh_of_compile hmesh', hagrees.eq_with_scratch]
  rfl

/-- **The two sides are independent.**  An attribute block and a command block may be pushed in
either order, with the same outcomes and to the same end, whether they are taken or refused.  How
the attribute blocks of a description are mixed with its command blocks therefore decides neither
whether it compiles nor what the mesh is. -/
theorem sides_independent :
    (∀ (c : Compiler) (a b : Block), a.side = .vertex → b.side = .index →
      ((c.push (.block b)).compiler.push (.block a)).outcome = (c.push (.block a)).outcome ∧
      ((c.push (.block a)).compiler.push (.block b)).outcome = (c.push (.block b)).outcome ∧
      ((c.push (.block a)).compiler.push (.block b)).compiler.Agrees
        ((c.push (.block b)).compiler.push (.block a)).compiler) ∧
      ∀ (options : Options) (blocks blocks' : List Block),
        (∀ side, blocksOn side blocks = blocksOn side blocks') → ∀ mesh,
          (compile options (inRoot (blocks.map .block))).result = .ok mesh ↔
            (compile options (inRoot (blocks'.map .block))).result = .ok mesh := by
  constructor
  · intro c a b ha hb
    have hba : b.side ≠ a.side := by
      rw [ha, hb]
      decide
    exact ⟨Compiler.outcome_push_push hba, Compiler.outcome_push_push hba.symm,
      Compiler.push_push_agrees hba⟩
  · intro options blocks blocks' h mesh
    have h' : ∀ side, blocksOn side blocks' = blocksOn side blocks := fun side => (h side).symm
    exact ⟨compile_of_blocksOn_eq h, compile_of_blocksOn_eq h'⟩

/-- Attributes and commands by turns. -/
def byTurns : List Block :=
  [.attribute 0 "ubyte" 1 "1 2", .arrays "points" 0 2, .attribute 1 "ushort" 1 "3 4",
   .indices "lines" "ubyte" "0 1"]

/-- The attributes may as well stand together behind the commands.  A block of indices that cannot
be read is refused before the first attribute and behind it. -/
theorem compile_byTurns :
    (∃ mesh, (compile .strict (inRoot (byTurns.map .block))).result = .ok mesh ∧
      (compile .strict (inRoot ((blocksOn .index byTurns ++ blocksOn .vertex byTurns).map
        .block))).result = .ok mesh) ∧
      ∃ c d : Compiler, c = .opened .strict ∧ d = (c.push (.block byTurns[0])).compiler ∧
        (c.push (.block (.indices "lines" "ubyte" "0 x"))).outcome.result =
          .error (.malformedNumber "x" .u8) ∧
        (d.push (.block (.indices "lines" "ubyte" "0 x"))).outcome.result =
          .error (.malformedNumber "x" .u8) := by
  obtain ⟨hpush, hcompile⟩ := sides_independent
  have hsides : ∀ side, blocksOn side byTurns =
      blocksOn side (blocksOn .index byTurns ++ blocksOn .vertex byTurns) := by
    intro side
    cases side <;> rfl
  have hmesh : (compile .strict (inRoot (byTurns.map .block))).result = .ok _ := rfl
  obtain ⟨-, hrefused, -⟩ := hpush (.opened .strict) byTurns[0]
    (.indices "lines" "ubyte" "0 x") rfl rfl
  refine ⟨⟨_, hmesh, (hcompile .strict _ _ hsides _).1 hmesh⟩, _, _, rfl, rfl, rfl, ?_⟩
  rw [hrefused]
  rfl

end MeshLayout
