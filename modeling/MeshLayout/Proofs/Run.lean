/-
MeshLayout/Proofs/Run.lean

What compiling a list of events does.

`Places` is a run through the blocks of a description: each denotes a
content that the compiler admits, and the contents are placed one after the
other.  A description that compiles is such a run between an opening and a
closing of the root element, and its mesh is what the run has placed
(`compile_eq_ok_iff`).  Facts about meshes are therefore proved by
induction on `Places`, one block at a time, and never by going through the
stages again.
-/
import MeshLayout.Proofs.Push

namespace MeshLayout

namespace Compiler

variable {c d : Compiler} {events : List Event}

/-! ### One event after the other -/

theorem pushAll_nil_eq_ok_iff : (c.pushAll []).result = .ok d ↔ c = d := by
  simp [pushAll]

theorem pushAll_cons_eq_ok_iff {event : Event} :
    (c.pushAll (event :: events)).result = .ok d ↔
      ∃ middle, c.Takes event middle ∧ (middle.pushAll events).result = .ok d := by
  simp only [pushAll, Logged.bind_eq_ok_iff, push_next_eq_ok_iff]

/-- Nothing follows the root element. -/
theorem pushAll_eq_ok_iff_of_done (hstage : c.stage = .done) :
    (c.pushAll events).result = .ok d ↔ events = [] ∧ c = d := by
  rcases events with - | ⟨event, rest⟩
  · simp [pushAll_nil_eq_ok_iff]
  · rw [pushAll_cons_eq_ok_iff]
    constructor
    · rintro ⟨middle, htakes, -⟩
      have hafter := htakes.after
      rw [hstage] at hafter
      cases hafter
    · rintro ⟨hnil, -⟩
      cases hnil

/-! ### The blocks of a description -/

/-- The blocks are placed, one after the other, from the first compiler to the last. -/
inductive Places : Compiler → List Block → Compiler → Prop
  | nil {c : Compiler} : Places c [] c
  | cons {c d : Compiler} {block : Block} {content : Content} {rest : List Block}
      (hdenotes : block.Denotes content) (hadmits : c.Admits content)
      (hrest : Places (c.place content) rest d) : Places c (block :: rest) d

/-- From inside the root element, a complete description goes on with blocks and then leaves
it. -/
theorem pushAll_done_iff (hstage : c.stage = .mesh) :
    (c.pushAll events).result = .ok d ∧ d.stage = .done ↔
      ∃ blocks last, events = blocks.map .block ++ [.exitMesh] ∧ c.Places blocks last ∧
        d = { last with stage := .done } := by
  constructor
  · induction events generalizing c with
    | nil =>
      -- the root element is still open
      rw [pushAll_nil_eq_ok_iff]
      rintro ⟨rfl, hdone⟩
      rw [hstage] at hdone
      cases hdone
    | cons event rest ih =>
      rw [pushAll_cons_eq_ok_iff]
      rintro ⟨⟨middle, htakes, hrest⟩, hdone⟩
      cases htakes with
      | enterMesh hroot =>
        rw [hstage] at hroot
        cases hroot
      | block _ hdenotes hadmits =>
        obtain ⟨blocks, last, rfl, hplaces, rfl⟩ := ih (by simpa using hstage) ⟨hrest, hdone⟩
        exact ⟨_ :: blocks, last, rfl, .cons hdenotes hadmits hplaces, rfl⟩
      | exitMesh =>
        -- the root element is closed, so this was the last event
        obtain ⟨rfl, rfl⟩ := (pushAll_eq_ok_iff_of_done rfl).1 hrest
        exact ⟨[], c, rfl, .nil, rfl⟩
  · rintro ⟨blocks, last, rfl, hplaces, rfl⟩
    refine ⟨?_, rfl⟩
    induction hplaces with
    | nil =>
      apply pushAll_cons_eq_ok_iff.2
      exact ⟨_, .exitMesh hstage, pushAll_nil_eq_ok_iff.2 rfl⟩
    | cons hdenotes hadmits _ ih =>
      apply pushAll_cons_eq_ok_iff.2
      exact ⟨_, .block hstage hdenotes hadmits, ih (by simpa using hstage)⟩

/-- A compiler in the root element that has not read any block. -/
def opened (options : Options) : Compiler := { start options with stage := .mesh }

theorem pushAll_start_done_iff {options : Options} :
    ((start options).pushAll events).result = .ok d ∧ d.stage = .done ↔
      ∃ blocks last, events = .enterMesh :: (blocks.map .block ++ [.exitMesh]) ∧
        (opened options).Places blocks last ∧ d = { last with stage := .done } := by
  constructor
  · rintro ⟨hrun, hdone⟩
    rcases events with - | ⟨event, rest⟩
    · obtain rfl := pushAll_nil_eq_ok_iff.1 hrun
      cases hdone
    · obtain ⟨middle, htakes, hrest⟩ := pushAll_cons_eq_ok_iff.1 hrun
      cases htakes with
      | enterMesh =>
        obtain ⟨blocks, last, rfl, hplaces, rfl⟩ := (pushAll_done_iff rfl).1 ⟨hrest, hdone⟩
        exact ⟨blocks, last, rfl, hplaces, rfl⟩
      | block hstage | exitMesh hstage => cases hstage
  · rintro ⟨blocks, last, rfl, hplaces, rfl⟩
    refine ⟨?_, rfl⟩
    apply pushAll_cons_eq_ok_iff.2
    exact ⟨opened options, .enterMesh rfl, ((pushAll_done_iff rfl).2 ⟨_, _, rfl, hplaces, rfl⟩).1⟩

end Compiler

/-- **What compiles**, and what is made of it. -/
theorem compile_eq_ok_iff {options : Options} {events : List Event} {mesh : Mesh} :
    (compile options events).result = .ok mesh ↔
      ∃ blocks last, events = .enterMesh :: (blocks.map .block ++ [.exitMesh]) ∧
        (Compiler.opened options).Places blocks last ∧ last.attributes ≠ [] ∧
        last.commands ≠ [] ∧ mesh = last.mesh := by
  have unfolded : (compile options events).result = .ok mesh ↔
      ∃ d, ((Compiler.start options).pushAll events).result = .ok d ∧ d.stage = .done ∧
        d.attributes ≠ [] ∧ d.commands ≠ [] ∧ mesh = d.mesh := by
    simp only [compile, Compiler.compile, Logged.bind_eq_ok_iff, Compiler.finish_eq_ok_iff]
  rw [unfolded]
  constructor
  · rintro ⟨d, hrun, hdone, hattributes, hcommands, rfl⟩
    obtain ⟨blocks, last, hevents, hplaces, rfl⟩ :=
      Compiler.pushAll_start_done_iff.1 ⟨hrun, hdone⟩
    exact ⟨blocks, last, hevents, hplaces, hattributes, hcommands, rfl⟩
  · rintro ⟨blocks, last, hevents, hplaces, hattributes, hcommands, rfl⟩
    obtain ⟨hrun, hdone⟩ :=
      Compiler.pushAll_start_done_iff.2 ⟨blocks, last, hevents, hplaces, rfl⟩
    exact ⟨_, hrun, hdone, hattributes, hcommands, rfl⟩

end MeshLayout
