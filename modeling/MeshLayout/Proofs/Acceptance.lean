/-
MeshLayout/Proofs/Acceptance.lean

Which descriptions compile.

A description compiles if it is framed by the root element, has an
attribute and a command, every block can be read for itself (`Readable`),
and the attributes together pass the checks that the policy enforces
(`Consistent`).  Nothing here mentions a compiler or an order of checks.

A compiler decides about a block when it comes to it, from the blocks
before.  `consistent_snoc_iff` says that it decides as if it had seen the
description up to there; the run of a whole description is then an
induction on its blocks (`exists_places_iff`).
-/
import MeshLayout.Proofs.Declarations

namespace MeshLayout

/-! ### Blocks that can be read -/

/-- The text is one or more tokens, and each of them stands for a value. -/
def Scalar.Accepts (k : Scalar) (text : String) : Prop :=
  words text ≠ [] ∧ ∀ token ∈ words text, ∃ word, k.parse token = .ok word

theorem Scalar.accepts_iff {k : Scalar} {text : String} :
    k.Accepts text ↔ ∃ values, k.readText text = .ok values ∧ values ≠ [] := by
  rw [Accepts, ← exists_parseAll_iff]
  constructor
  · rintro ⟨hwords, values, hread⟩
    refine ⟨values, hread, ?_⟩
    rintro rfl
    exact hwords (List.length_eq_zero_iff.1 (length_of_readText hread).symm)
  · rintro ⟨values, hread, hvalues⟩
    refine ⟨?_, values, hread⟩
    intro hwords
    have hlength := length_of_readText hread
    rw [hwords] at hlength
    exact hvalues (List.length_eq_zero_iff.1 hlength)

/-- The names of the block are in the tables and its text is accepted. -/
def Block.Readable : Block → Prop
  | .attribute _ typeName components text =>
    components ≠ 0 ∧ ∃ type : AttributeType, type.name = typeName ∧ type.scalar.Accepts text
  | .indices primitiveName typeName text =>
    (∃ mode : Primitive, mode.name = primitiveName) ∧
      ∃ type : IndexType, type.name = typeName ∧ type.scalar.Accepts text
  | .arrays primitiveName _ _ => ∃ mode : Primitive, mode.name = primitiveName

theorem Block.readable_iff {block : Block} : block.Readable ↔ ∃ content, block.Denotes content := by
  constructor
  · intro h
    match block, h with
    | .attribute .., ⟨hcomponents, type, hname, haccepts⟩ =>
      obtain ⟨values, hread, hvalues⟩ := Scalar.accepts_iff.1 haccepts
      exact ⟨_, .ofAttribute hname hcomponents hread hvalues⟩
    | .indices .., ⟨⟨mode, hmode⟩, type, hname, haccepts⟩ =>
      obtain ⟨values, hread, hvalues⟩ := Scalar.accepts_iff.1 haccepts
      exact ⟨_, .ofIndices hmode hname hread hvalues⟩
    | .arrays .., ⟨mode, hmode⟩ => exact ⟨_, .ofArrays hmode⟩
  · rintro ⟨content, hdenotes⟩
    cases hdenotes with
    | ofAttribute hname hcomponents hread hvalues =>
      exact ⟨hcomponents, _, hname, Scalar.accepts_iff.2 ⟨_, hread, hvalues⟩⟩
    | ofIndices hmode hname hread hvalues =>
      exact ⟨⟨_, hmode⟩, _, hname, Scalar.accepts_iff.2 ⟨_, hread, hvalues⟩⟩
    | ofArrays hmode => exact ⟨_, hmode⟩

/-! ### Attributes that go together -/

/-- The declared attributes pass the checks that the policy enforces. -/
structure Consistent (options : Options) (ds : List Declaration) : Prop where
  whole : options.wholeVertices = true → ∀ d ∈ ds, d.components.toNat ∣ d.count
  uniform : options.uniformVertexCount = true →
    ∀ d ∈ ds, ∀ first ∈ ds.head?, d.vertices = first.vertices
  unique : options.uniqueSlots = true → (ds.map Declaration.slot).Nodup

/-- A further attribute passes the checks that the policy enforces. -/
structure Declaration.Fits (options : Options) (ds : List Declaration) (d : Declaration) :
    Prop where
  whole : options.wholeVertices = true → d.components.toNat ∣ d.count
  uniform : options.uniformVertexCount = true → ∀ first ∈ ds.head?, d.vertices = first.vertices
  unique : options.uniqueSlots = true → ∀ d' ∈ ds, d'.slot ≠ d.slot

variable {options : Options} {ds : List Declaration}

theorem consistent_nil : Consistent options [] :=
  ⟨by simp, by simp, by simp⟩

theorem Consistent.of_append {ds' : List Declaration} (h : Consistent options (ds ++ ds')) :
    Consistent options ds where
  whole hwhole d hd := h.whole hwhole d (List.mem_append_left _ hd)
  uniform huniform d hd first hfirst := by
    apply h.uniform huniform d (List.mem_append_left _ hd)
    rw [List.head?_append, Option.mem_def.1 hfirst]
    rfl
  unique hunique := by
    have hnodup := h.unique hunique
    rw [List.map_append] at hnodup
    exact (List.nodup_append.1 hnodup).1

theorem uniform_append_singleton_iff {d : Declaration} :
    (∀ d' ∈ ds ++ [d], ∀ first ∈ (ds ++ [d]).head?, d'.vertices = first.vertices) ↔
      (∀ d' ∈ ds, ∀ first ∈ ds.head?, d'.vertices = first.vertices) ∧
        ∀ first ∈ ds.head?, d.vertices = first.vertices := by
  rcases ds with - | ⟨first, rest⟩
  · -- the further attribute is the first
    simp
  · rw [List.forall_mem_append]
    simp

theorem unique_append_singleton_iff {d : Declaration} :
    ((ds ++ [d]).map Declaration.slot).Nodup ↔
      (ds.map Declaration.slot).Nodup ∧ ∀ d' ∈ ds, d'.slot ≠ d.slot := by
  rw [List.map_append, List.nodup_append]
  simp

theorem consistent_append_singleton_iff {d : Declaration} :
    Consistent options (ds ++ [d]) ↔ Consistent options ds ∧ d.Fits options ds := by
  constructor
  · intro h
    refine ⟨h.of_append, ?_, ?_, ?_⟩
    · intro hwhole
      exact h.whole hwhole d (by simp)
    · intro huniform
      exact (uniform_append_singleton_iff.1 (h.uniform huniform)).2
    · intro hunique
      exact (unique_append_singleton_iff.1 (h.unique hunique)).2
  · rintro ⟨h, hfits⟩
    refine ⟨?_, ?_, ?_⟩
    · intro hwhole
      rw [List.forall_mem_append, List.forall_mem_singleton]
      exact ⟨h.whole hwhole, hfits.whole hwhole⟩
    · intro huniform
      apply uniform_append_singleton_iff.2
      exact ⟨h.uniform huniform, hfits.uniform huniform⟩
    · intro hunique
      apply unique_append_singleton_iff.2
      exact ⟨h.unique hunique, hfits.unique hunique⟩

/-- The first attribute has as many vertices as its declaration. -/
theorem first_vertices_iff {bytes : List UInt8} {attributes : List Attribute}
    (h : List.Forall₂ (Declaration.Realized bytes) ds attributes) (vertices : Nat) :
    (∀ first ∈ attributes.head?, first.vertexCount = vertices) ↔
      ∀ first ∈ ds.head?, vertices = first.vertices := by
  cases h with
  | nil => simp
  | cons hfirst _ => simp [hfirst.vertexCount_eq, eq_comm]

/-! ### Taking the blocks in order -/

namespace Compiler

variable {c d : Compiler} {before blocks : List Block}

/-- A compiler permits the values of a block if the block fits the blocks before. -/
theorem Holds.permits_iff (h : c.Holds before) (d : Declaration) :
    c.Permits d.slot d.components d.count ↔
      d.Fits c.options (before.filterMap Block.declaration?) := by
  have hslots : (∀ a ∈ c.attributes, a.slot ≠ d.slot) ↔
      ∀ d' ∈ before.filterMap Block.declaration?, d'.slot ≠ d.slot := by
    have hmap := map_realized h.attributes fun _ _ hrealized => hrealized.slot_eq
    rw [← List.forall_mem_map (P := fun slot => slot ≠ d.slot), hmap, List.forall_mem_map]
  have hfirst := first_vertices_iff h.attributes d.vertices
  constructor
  · rintro ⟨unique, whole, uniform⟩
    refine ⟨whole, ?_, ?_⟩
    · exact fun huniform => hfirst.1 (uniform huniform)
    · exact fun hunique => hslots.1 (unique hunique)
  · rintro ⟨whole, uniform, unique⟩
    refine ⟨?_, whole, ?_⟩
    · exact fun hunique => hslots.2 (unique hunique)
    · exact fun huniform => hfirst.2 (uniform huniform)

/-- A block is taken if the blocks before and this one are consistent. -/
theorem Holds.consistent_snoc_iff (h : c.Holds before) {block : Block} {content : Content}
    (hdenotes : block.Denotes content) :
    Consistent c.options ((before ++ [block]).filterMap Block.declaration?) ↔
      Consistent c.options (before.filterMap Block.declaration?) ∧ c.Admits content := by
  rw [List.filterMap_append]
  cases hdenotes with
  | @ofAttribute slot components typeName text type values _ _ hread _ =>
    have hpermits := h.permits_iff ⟨slot, typeName, components, text⟩
    have hcount : values.length = Declaration.count ⟨slot, typeName, components, text⟩ :=
      Scalar.length_of_readText hread
    show Consistent c.options (_ ++ [_]) ↔ _ ∧ c.Permits slot components values.length
    rw [consistent_append_singleton_iff, hcount, hpermits]
  | ofIndices | ofArrays =>
    rw [List.filterMap_cons_none rfl, List.filterMap_nil, List.append_nil]
    exact (and_iff_left trivial).symm

/-- **Which blocks can be placed**, one after the other, behind those that have been. -/
theorem exists_places_iff (h : c.Holds before)
    (hconsistent : Consistent c.options (before.filterMap Block.declaration?)) :
    (∃ d, c.Places blocks d) ↔
      (∀ block ∈ blocks, block.Readable) ∧
        Consistent c.options ((before ++ blocks).filterMap Block.declaration?) := by
  induction blocks generalizing c before with
  | nil =>
    rw [List.append_nil]
    exact ⟨fun _ => ⟨by simp, hconsistent⟩, fun _ => ⟨c, .nil⟩⟩
  | cons block rest ih =>
    have happend : before ++ block :: rest = before ++ [block] ++ rest := by simp
    rw [List.forall_mem_cons, happend]
    constructor
    · rintro ⟨d, hplaces⟩
      cases hplaces with
      | cons hdenotes hadmits hrest =>
        -- the block is taken, so the blocks up to here are consistent
        have hsnoc := (h.consistent_snoc_iff hdenotes).2 ⟨hconsistent, hadmits⟩
        have hplace := h.place hdenotes
        rw [← options_place] at hsnoc
        obtain ⟨hreadable, hall⟩ := (ih hplace hsnoc).1 ⟨d, hrest⟩
        rw [options_place] at hall
        exact ⟨⟨Block.readable_iff.2 ⟨_, hdenotes⟩, hreadable⟩, hall⟩
    · rintro ⟨⟨hblock, hreadable⟩, hall⟩
      obtain ⟨content, hdenotes⟩ := Block.readable_iff.1 hblock
      -- the blocks up to here are consistent, so the block is taken
      have hsnoc : Consistent c.options ((before ++ [block]).filterMap Block.declaration?) := by
        rw [List.filterMap_append] at hall
        exact hall.of_append
      have hadmits := ((h.consistent_snoc_iff hdenotes).1 hsnoc).2
      rw [← options_place] at hsnoc hall
      obtain ⟨d, hrest⟩ := (ih (h.place hdenotes) hsnoc).2 ⟨hreadable, hall⟩
      exact ⟨d, .cons hdenotes hadmits hrest⟩

end Compiler

/-! ### Whole descriptions -/

/-- A description that compiles, told from its events alone. -/
structure Acceptable (options : Options) (events : List Event) : Prop where
  framed : events = .enterMesh :: ((blocksOf events).map .block ++ [.exitMesh])
  hasAttribute : ∃ block ∈ blocksOf events, block.isCommand = false
  hasCommand : ∃ block ∈ blocksOf events, block.isCommand = true
  readable : ∀ block ∈ blocksOf events, block.Readable
  consistent : Consistent options (declarations events)

/-- The command is the one that the block declares, wherever its indices are stored. -/
inductive Block.Declares : Block → Command → Prop
  | indices {mode : Primitive} {type : IndexType} {text : String} {offset : Nat} :
      Declares (.indices mode.name type.name text)
        (.indexed mode offset (words text).length type)
  | arrays {mode : Primitive} {first count : UInt32} :
      Declares (.arrays mode.name first count) (.direct mode first count)

theorem Block.Realized.declares {bytes : List UInt8} {block : Block} {command : Command}
    (h : block.Realized bytes command) : block.Declares command := by
  cases h with
  | indexed hread _ =>
    rw [Scalar.length_of_readText hread]
    exact .indices
  | direct => exact .arrays

/-- The tables of the mesh are those that the events declare, in the same order. -/
structure Mesh.Follows (mesh : Mesh) (events : List Event) : Prop where
  attributes : mesh.attributes.map (fun a => (a.slot, a.components, a.type.name)) =
    (declarations events).map fun d => (d.slot, d.components, d.typeName)
  commands : List.Forall₂ Block.Declares ((blocksOf events).filter Block.isCommand) mesh.commands

theorem Block.declaration?_eq_none_iff {block : Block} :
    block.declaration? = none ↔ block.isCommand = true := by
  match block with
  | .attribute .. | .indices .. | .arrays .. => simp [declaration?, isCommand]

namespace Compiler.Holds

variable {c : Compiler} {blocks : List Block}

theorem attributes_ne_nil_iff (h : c.Holds blocks) :
    c.attributes ≠ [] ↔ ∃ block ∈ blocks, block.isCommand = false := by
  rw [← List.length_pos_iff, ← h.attributes.length_eq, List.length_pos_iff, Ne,
    List.filterMap_eq_nil_iff]
  simp [Block.declaration?_eq_none_iff]

theorem commands_ne_nil_iff (h : c.Holds blocks) :
    c.commands ≠ [] ↔ ∃ block ∈ blocks, block.isCommand = true := by
  rw [← List.length_pos_iff, ← h.commands.length_eq, List.length_pos_iff, Ne,
    List.filter_eq_nil_iff]
  simp

end Compiler.Holds

theorem exists_compile_iff {events : List Event} :
    (∃ mesh, (compile options events).result = .ok mesh) ↔ Acceptable options events := by
  have hopened := Compiler.holds_opened options
  constructor
  · rintro ⟨mesh, h⟩
    obtain ⟨blocks, last, rfl, hplaces, hattributes, hcommands, rfl⟩ := compile_eq_ok_iff.1 h
    have hholds : last.Holds blocks := hplaces.holds hopened
    obtain ⟨hreadable, hconsistent⟩ :=
      (Compiler.exists_places_iff hopened consistent_nil).1 ⟨last, hplaces⟩
    constructor
    · rw [blocksOf_description]
    · rw [blocksOf_description]
      exact hholds.attributes_ne_nil_iff.1 hattributes
    · rw [blocksOf_description]
      exact hholds.commands_ne_nil_iff.1 hcommands
    · rw [blocksOf_description]
      exact hreadable
    · rw [declarations, blocksOf_description]
      exact hconsistent
  · rintro ⟨hframed, hattribute, hcommand, hreadable, hconsistent⟩
    obtain ⟨last, hplaces⟩ :=
      (Compiler.exists_places_iff hopened consistent_nil).2 ⟨hreadable, hconsistent⟩
    have hholds : last.Holds (blocksOf events) := hplaces.holds hopened
    have hattributes := hholds.attributes_ne_nil_iff.2 hattribute
    have hcommands := hholds.commands_ne_nil_iff.2 hcommand
    exact ⟨last.mesh, compile_eq_ok_iff.2 ⟨_, last, hframed, hplaces, hattributes, hcommands, rfl⟩⟩

theorem follows_of_compile {events : List Event} {mesh : Mesh}
    (h : (compile options events).result = .ok mesh) : mesh.Follows events := by
  obtain ⟨last, ⟨hattributes, hcommands⟩, rfl⟩ := holds_of_compile h
  constructor
  · apply map_realized hattributes
    intro d a hrealized
    rw [hrealized.slot_eq, hrealized.components_eq, hrealized.name_eq]
  · exact hcommands.imp fun _ _ hrealized => hrealized.declares

/-- **What compiles, exactly**, and that the tables of the mesh are those of the description. -/
theorem compile_accepts (options : Options) (events : List Event) :
    ((∃ mesh, (compile options events).result = .ok mesh) ↔ Acceptable options events) ∧
      ∀ mesh, (compile options events).result = .ok mesh → mesh.Follows events :=
  ⟨exists_compile_iff, fun _ => follows_of_compile⟩

/-- Two attributes of two vertices each, and a command of either kind. -/
def twoVertices : List Event :=
  [.enterMesh, .block (.attribute 0 "float" 2 "0 0.5 1 -1"), .block (.arrays "lines" 0 2),
   .block (.attribute 1 "norm-ubyte" 1 "0 255"), .block (.indices "points" "ubyte" "1 0"),
   .exitMesh]

theorem acceptable_twoVertices :
    Acceptable .strict twoVertices ∧
      ∃ mesh, (compile .strict twoVertices).result = .ok mesh ∧ mesh.Follows twoVertices := by
  have hmesh : (compile .strict twoVertices).result = .ok _ := rfl
  obtain ⟨haccepts, hfollows⟩ := compile_accepts .strict twoVertices
  exact ⟨haccepts.1 ⟨_, hmesh⟩, _, hmesh, hfollows _ hmesh⟩

end MeshLayout
