/-
MeshLayout/Proofs/Readback.lean

Every block of a compiled mesh reads back as its text.

The values at the place that an attribute or an indexed command names are
those that the tokens of its block stand for, in their order, whatever else
has been declared.  The same holds when the mesh is asked for the values of
a slot, where the first declaration of the slot counts; it gives nothing
only if the slot has not been declared or is of another scalar type.

All of it rests on `Compiler.Holds`; nothing here looks at a run.
-/
import MeshLayout.Proofs.Declarations

namespace MeshLayout

/-! ### Reading a text back -/

/-- At the offset, so many values can be read, and they are what the tokens of the text stand
for.  A buffer that can be addressed with 64 bits gives them to `read` as well. -/
def Buffer.ReadsBack (buffer : Buffer) (k : Scalar) (offset count : Nat) (text : String) : Prop :=
  ∃ values : List k.Word, (words text).map k.parse = values.map .ok ∧
    buffer.values? k offset count = some values ∧
    (buffer.length < UInt64.size →
      buffer.read k (UInt64.ofNat offset) (UInt64.ofNat count) = some values)

theorem Stored.readsBack {buffer : Buffer} {k : Scalar} {offset : Nat} {text : String}
    {values : List k.Word} (h : Stored buffer.bytes offset (k.bytesOf values))
    (hread : k.readText text = .ok values) :
    buffer.ReadsBack k offset values.length text := by
  refine ⟨values, Scalar.readText_eq_ok_iff.1 hread, h.values?_eq, ?_⟩
  intro hlength
  have hinside := h.inside
  have hcount : values.length ≤ values.length * k.size := Nat.le_mul_of_pos_right _ k.size_pos
  rw [Buffer.read_eq_values? hlength, UInt64.toNat_ofNat_of_lt' (by omega),
    UInt64.toNat_ofNat_of_lt' (by omega)]
  exact h.values?_eq

theorem Declaration.Realized.readsBack {buffer : Buffer} {d : Declaration} {a : Attribute}
    (h : d.Realized buffer.bytes a) :
    buffer.ReadsBack a.type.scalar a.offset a.valueCount d.text := by
  obtain ⟨values, hread, -, hstored⟩ := h.stored
  rw [h.valueCount_eq, Declaration.count, ← Scalar.length_of_readText hread]
  exact hstored.readsBack hread

/-! ### Indices -/

/-- The texts of the index blocks in a list of events. -/
def indexTexts (events : List Event) : List String :=
  (blocksOf events).filterMap Block.indexText?

/-- The command draws the indices that the text says. -/
def Command.ReadsBack (buffer : Buffer) (text : String) : Command → Prop
  | indexed _ offset count type => buffer.ReadsBack type.scalar offset count text
  | direct .. => False

theorem readsBack_of_realized {buffer : Buffer} {blocks : List Block} {commands : List Command}
    (h : List.Forall₂ (Block.Realized buffer.bytes) (blocks.filter Block.isCommand) commands) :
    List.Forall₂ (Command.ReadsBack buffer) (blocks.filterMap Block.indexText?)
      (commands.filter Command.isIndexed) := by
  induction blocks generalizing commands with
  | nil =>
    cases h
    exact .nil
  | cons block rest ih =>
    match block with
    | .attribute .. => exact ih h
    | .indices _ _ text =>
      cases h with
      | cons hfirst hrest =>
        cases hfirst with
        | indexed hread hstored => exact .cons (hstored.readsBack hread) (ih hrest)
    | .arrays .. =>
      cases h with
      | cons hfirst hrest =>
        cases hfirst with
        | direct =>
          have hindices := ih hrest
          exact hindices

/-! ### Slots -/

/-- The scalar type of the declared values, if the declared type has one. -/
def Declaration.scalar? (d : Declaration) : Option Scalar :=
  (AttributeType.ofName? d.typeName).map AttributeType.scalar

theorem Declaration.Realized.scalar?_eq {bytes : List UInt8} {d : Declaration} {a : Attribute}
    (h : d.Realized bytes a) : d.scalar? = some a.type.scalar := by
  rw [Declaration.scalar?, AttributeType.ofName?_eq_some_iff.2 h.name_eq, Option.map_some]

/-- The first attribute with a slot belongs to the first declaration of the slot. -/
theorem find?_realized {bytes : List UInt8} {ds : List Declaration} {attributes : List Attribute}
    (h : List.Forall₂ (Declaration.Realized bytes) ds attributes) (slot : UInt32) :
    (ds.find? (fun d => d.slot = slot) = none ∧ attributes.find? (fun a => a.slot = slot) = none) ∨
    ∃ d a, ds.find? (fun d => d.slot = slot) = some d ∧
      attributes.find? (fun a => a.slot = slot) = some a ∧ d.Realized bytes a := by
  induction h with
  | nil => exact .inl ⟨rfl, rfl⟩
  | @cons d a _ _ hfirst _ ih =>
    by_cases hslot : d.slot = slot
    -- both searches end here, or both go on
    · right
      exact ⟨d, a, by simp [hslot], by simp [hfirst.slot_eq, hslot], hfirst⟩
    · simpa [hfirst.slot_eq, hslot] using ih

namespace Mesh

variable {mesh : Mesh} {k : Scalar} {slot : UInt32}

theorem readAttribute_of_none (h : mesh.attribute? slot = none) :
    mesh.readAttribute k slot = none := by
  simp [readAttribute, h]

theorem readAttribute_of_ne {a : Attribute} (h : mesh.attribute? slot = some a)
    (hk : a.type.scalar ≠ k) : mesh.readAttribute k slot = none := by
  simp [readAttribute, h, hk]

theorem readAttribute_of_eq {a : Attribute} (h : mesh.attribute? slot = some a) :
    mesh.readAttribute a.type.scalar slot =
      mesh.vertexData.values? a.type.scalar a.offset a.valueCount := by
  simp [readAttribute, h]

variable {ds : List Declaration}

theorem readAttribute_eq_some_iff
    (h : List.Forall₂ (Declaration.Realized mesh.vertexData.bytes) ds mesh.attributes)
    {values : List k.Word} :
    mesh.readAttribute k slot = some values ↔
      ∃ d, ds.find? (fun d => d.slot = slot) = some d ∧ d.scalar? = some k ∧
        (words d.text).map k.parse = values.map .ok := by
  rcases find?_realized h slot with ⟨hnone, hattribute⟩ | ⟨d, a, hd, hattribute, hrealized⟩
  · simp [readAttribute_of_none hattribute, hnone]
  · -- the row that is asked belongs to the first declaration of the slot
    rw [hd]
    simp only [Option.some.injEq, exists_eq_left', hrealized.scalar?_eq]
    by_cases hk : a.type.scalar = k
    · subst hk
      obtain ⟨values', hparse, hvalues, -⟩ := hrealized.readsBack
      rw [readAttribute_of_eq hattribute, hvalues, hparse]
      simp [List.map_inj_right]
    · simp [readAttribute_of_ne hattribute hk, hk]

theorem readAttribute_eq_none_iff
    (h : List.Forall₂ (Declaration.Realized mesh.vertexData.bytes) ds mesh.attributes) :
    mesh.readAttribute k slot = none ↔
      ∀ a, mesh.attribute? slot = some a → a.type.scalar ≠ k := by
  constructor
  · rintro hnone a hattribute rfl
    rcases find?_realized h slot with ⟨-, hno⟩ | ⟨d, a', -, hsome, hrealized⟩
    · rw [attribute?, hno] at hattribute
      cases hattribute
    · obtain rfl : a' = a := Option.some.inj (hsome.symm.trans hattribute)
      obtain ⟨values, -, hvalues, -⟩ := hrealized.readsBack
      rw [readAttribute_of_eq hattribute, hvalues] at hnone
      cases hnone
  · intro hother
    rcases hattribute : mesh.attribute? slot with - | a
    · exact readAttribute_of_none hattribute
    · exact readAttribute_of_ne hattribute (hother a hattribute)

end Mesh

/-! ### Compiled meshes -/

/-- **Every block reads back**: every attribute, every indexed command, and every slot. -/
theorem readback_of_compile {options : Options} {events : List Event} {mesh : Mesh}
    (h : (compile options events).result = .ok mesh) :
    List.Forall₂
        (fun d a => mesh.vertexData.ReadsBack a.type.scalar a.offset a.valueCount d.text)
        (declarations events) mesh.attributes ∧
      List.Forall₂ (Command.ReadsBack mesh.indexData) (indexTexts events)
        (mesh.commands.filter Command.isIndexed) ∧
      (∀ (k : Scalar) (slot : UInt32) (values : List k.Word),
        mesh.readAttribute k slot = some values ↔
          ∃ d, (declarations events).find? (fun d => d.slot = slot) = some d ∧
            d.scalar? = some k ∧ (words d.text).map k.parse = values.map .ok) ∧
      ∀ (k : Scalar) (slot : UInt32),
        mesh.readAttribute k slot = none ↔
          ∀ a, mesh.attribute? slot = some a → a.type.scalar ≠ k := by
  obtain ⟨last, ⟨hattributes, hcommands⟩, rfl⟩ := holds_of_compile h
  refine ⟨?_, ?_, ?_, ?_⟩
  · exact hattributes.imp fun _ _ hrealized => hrealized.readsBack
  · exact readsBack_of_realized hcommands
  · intro k slot values
    exact Mesh.readAttribute_eq_some_iff hattributes
  · intro k slot
    exact Mesh.readAttribute_eq_none_iff hattributes

/-- A slot is declared twice, with another type, and its first block ends within a vertex. -/
def repeatedSlot : List Event :=
  [.enterMesh, .block (.attribute 0 "ubyte" 2 "1 2 3"), .block (.arrays "points" 0 1),
   .block (.attribute 0 "short" 1 "-4 5"), .block (.indices "lines" "ushort" "0 2"), .exitMesh]

theorem readback_repeatedSlot :
    ∃ mesh, (compile .lenient repeatedSlot).result = .ok mesh ∧
      mesh.readAttribute .u8 0 = some [1, 2, 3] ∧ mesh.readAttribute .i16 0 = none := by
  have hmesh : (compile .lenient repeatedSlot).result = .ok _ := rfl
  obtain ⟨-, -, hsome, hnone⟩ := readback_of_compile hmesh
  refine ⟨_, hmesh, ?_, ?_⟩
  · exact (hsome .u8 0 [1, 2, 3]).2 ⟨_, rfl, rfl, rfl⟩
  · apply (hnone .i16 0).2
    rintro a ⟨⟩
    decide

end MeshLayout
