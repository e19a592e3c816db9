/-
MeshLayout/Proofs/Push.lean

What pushing an event does.

A push that succeeds opens the root element, places what a block says
(`place`) or closes the root element, each under its own conditions
(`Takes`); a push that fails has changed nothing but the scratch space.
These two statements (`push_next_eq_ok_iff` and `push_of_error`) say all
there is to say about a single push; later modules argue from them and do
not open the definition again.
-/
import MeshLayout.Proofs.Steps
import MeshLayout.Proofs.Content

namespace MeshLayout

namespace Compiler

variable {c d : Compiler}

/-! ### Checks -/

theorem attributeType_eq_ok_iff {name : String} {type : AttributeType} :
    attributeType name = .ok type ↔ type.name = name := by
  rw [← AttributeType.ofName?_eq_some_iff, attributeType]
  cases AttributeType.ofName? name <;> simp

theorem indexType_eq_ok_iff {name : String} {type : IndexType} :
    indexType name = .ok type ↔ type.name = name := by
  rw [← IndexType.ofName?_eq_some_iff, indexType]
  cases IndexType.ofName? name <;> simp

theorem primitive_eq_ok_iff {name : String} {mode : Primitive} :
    primitive name = .ok mode ↔ mode.name = name := by
  rw [← Primitive.ofName?_eq_some_iff, primitive]
  cases Primitive.ofName? name <;> simp

theorem review_eq_ok_iff {options : Options} {violation : Option Violation} {u : Unit} :
    (review options violation).result = .ok u ↔
      ∀ v, violation = some v → ¬ options.enforces v.check = true := by
  rcases violation with - | v
  · simp [review]
  · by_cases h : options.enforces v.check = true
    · simp [review, h, Logged.fail]
    · simp [review, h, Logged.note]

theorem duplicateSlot?_eq_some_iff {slot : UInt32} {v : Violation} :
    c.duplicateSlot? slot = some v ↔
      (∃ a ∈ c.attributes, a.slot = slot) ∧ .duplicateSlot slot = v := by
  by_cases h : ∃ a ∈ c.attributes, a.slot = slot
  · simp [duplicateSlot?, h]
  · simp [duplicateSlot?, h]

theorem partialVertex?_eq_some_iff {slot components : UInt32} {count : Nat} {v : Violation} :
    partialVertex? slot components count = some v ↔
      ¬ components.toNat ∣ count ∧ .partialVertex slot components count = v := by
  rw [partialVertex?, Nat.dvd_iff_mod_eq_zero]
  by_cases h : count % components.toNat = 0
  · simp [h]
  · simp [h]

theorem vertexCount?_eq_some_iff {slot : UInt32} {vertices : Nat} {v : Violation} :
    c.vertexCount? slot vertices = some v ↔
      ∃ first ∈ c.attributes.head?,
        first.vertexCount ≠ vertices ∧ .vertexCount slot first.vertexCount vertices = v := by
  rcases h : c.attributes with - | ⟨first, rest⟩
  · simp [vertexCount?, h]
  · by_cases hcount : first.vertexCount = vertices
    · simp [vertexCount?, h, hcount]
    · simp [vertexCount?, h, hcount]

/-- The policy has nothing against a block of so many values for the slot. -/
structure Permits (c : Compiler) (slot components : UInt32) (count : Nat) : Prop where
  unique : c.options.uniqueSlots = true → ∀ a ∈ c.attributes, a.slot ≠ slot
  whole : c.options.wholeVertices = true → components.toNat ∣ count
  uniform : c.options.uniformVertexCount = true →
    ∀ first ∈ c.attributes.head?, first.vertexCount = count / components.toNat

theorem permits_iff {slot components : UInt32} {count : Nat} :
    c.Permits slot components count ↔
      (review c.options (c.duplicateSlot? slot)).result = .ok () ∧
      (review c.options (partialVertex? slot components count)).result = .ok () ∧
      (review c.options (c.vertexCount? slot (count / components.toNat))).result = .ok () := by
  simp only [review_eq_ok_iff, duplicateSlot?_eq_some_iff, partialVertex?_eq_some_iff,
    vertexCount?_eq_some_iff]
  constructor
  · rintro ⟨unique, whole, uniform⟩
    refine ⟨?_, ?_, ?_⟩
    · rintro _ ⟨⟨a, hmem, hslot⟩, rfl⟩ h
      exact unique h a hmem hslot
    · rintro _ ⟨hpartial, rfl⟩ h
      exact hpartial (whole h)
    · rintro _ ⟨first, hfirst, hcount, rfl⟩ h
      exact hcount (uniform h first hfirst)
  · rintro ⟨unique, whole, uniform⟩
    refine ⟨fun h a hmem hslot => ?_, fun h => ?_, fun h first hfirst => ?_⟩
    · exact unique _ ⟨⟨a, hmem, hslot⟩, rfl⟩ h
    · exact Decidable.byContradiction fun hpartial => whole _ ⟨hpartial, rfl⟩ h
    · exact Decidable.byContradiction fun hcount => uniform _ ⟨first, hfirst, hcount, rfl⟩ h

/-! ### Blocks -/

/-- The compiler with another attribute, whose values come last in the vertex buffer. -/
def withAttribute (c : Compiler) (slot components : UInt32) (type : AttributeType)
    (values : List type.scalar.Word) : Compiler :=
  { c with
    attributes := c.attributes ++
      [⟨slot, components, type, c.vertices.length, values.length * type.size⟩]
    vertices := c.vertices ++ type.scalar.bytesOf values
    scratch := type.scalar.bytesOf values }

/-- The compiler with another indexed command, whose indices come last in the index buffer. -/
def withIndices (c : Compiler) (mode : Primitive) (type : IndexType)
    (values : List type.scalar.Word) : Compiler :=
  { c with
    commands := c.commands ++ [.indexed mode c.indices.length values.length type]
    indices := c.indices ++ type.scalar.bytesOf values
    scratch := type.scalar.bytesOf values }

/-- The compiler with another direct command. -/
def withArrays (c : Compiler) (mode : Primitive) (first count : UInt32) : Compiler :=
  { c with commands := c.commands ++ [.direct mode first count] }

/-- The compiler with what a block says. -/
def place (c : Compiler) : Content → Compiler
  | .attribute slot components type values => c.withAttribute slot components type values
  | .indices mode type values => c.withIndices mode type values
  | .arrays mode first count => c.withArrays mode first count

@[simp] theorem stage_place {content : Content} : (c.place content).stage = c.stage := by
  cases content <;> rfl

@[simp] theorem options_place {content : Content} : (c.place content).options = c.options := by
  cases content <;> rfl

/-- The policy has nothing against what a block says. -/
def Admits (c : Compiler) : Content → Prop
  | .attribute slot components _ values => c.Permits slot components values.length
  | .indices .. | .arrays .. => True

theorem pushAttribute_yields_iff {slot components : UInt32} {typeName text : String} {u : Unit} :
    (pushAttribute slot typeName components text).Yields c u d ↔
      ∃ content, (Block.attribute slot typeName components text).Denotes content ∧
        c.Admits content ∧ d = c.place content := by
  simp only [pushAttribute, appendAttribute, Step.yields_bind, Step.yields_encode,
    Step.yields_liftM_logged, Step.yields_liftM_except, Step.yields_require, Step.yields_current,
    Step.yields_change, Step.yields_note, attributeType_eq_ok_iff,
    and_assoc, exists_and_left, exists_and_right, exists_eq_left', exists_const]
  -- what is left are the checks in their order, with what each gives
  constructor
  · rintro ⟨type, hname, hcomponents, ⟨_, hslot⟩, _, _, ⟨values, hread, rfl, rfl⟩, hcount,
      ⟨_, hwhole⟩, ⟨_, huniform⟩, rfl⟩
    have hpermits : c.Permits slot components values.length :=
      permits_iff.2 ⟨hslot, hwhole, huniform⟩
    refine ⟨.attribute slot components type values, ?_, hpermits, ?_⟩
    · exact .ofAttribute hname (by simpa using hcomponents) hread (by simpa using hcount)
    · simp [place, withAttribute, AttributeType.size]
  · rintro ⟨_, ⟨hname, hcomponents, hread, hvalues⟩, hpermits, rfl⟩
    obtain ⟨hslot, hwhole, huniform⟩ := permits_iff.1 hpermits
    exact ⟨_, hname, by simpa using hcomponents, ⟨(), hslot⟩, _, _, ⟨_, hread, rfl, rfl⟩,
      by simpa using hvalues, ⟨(), hwhole⟩, ⟨(), huniform⟩,
      by simp [place, withAttribute, AttributeType.size]⟩

theorem pushIndices_yields_iff {primitiveName typeName text : String} {u : Unit} :
    (pushIndices primitiveName typeName text).Yields c u d ↔
      ∃ content, (Block.indices primitiveName typeName text).Denotes content ∧
        c.Admits content ∧ d = c.place content := by
  simp only [pushIndices, appendCommand, Step.yields_bind, Step.yields_encode,
    Step.yields_liftM_except, Step.yields_require, Step.yields_current, Step.yields_change,
    Step.yields_note, primitive_eq_ok_iff, indexType_eq_ok_iff,
    and_assoc, exists_and_left, exists_eq_left', exists_const]
  constructor
  · rintro ⟨mode, hmode, type, hname, _, _, ⟨values, hread, rfl, rfl⟩, hcount, rfl⟩
    refine ⟨.indices mode type values, ?_, trivial, rfl⟩
    exact .ofIndices hmode hname hread (by simpa using hcount)
  · rintro ⟨_, ⟨⟩ | ⟨hmode, hname, hread, hvalues⟩, -, rfl⟩
    exact ⟨_, hmode, _, hname, _, _, ⟨_, hread, rfl, rfl⟩, by simpa using hvalues, rfl⟩

theorem pushArrays_yields_iff {primitiveName : String} {first count : UInt32} {u : Unit} :
    (pushArrays primitiveName first count).Yields c u d ↔
      ∃ content, (Block.arrays primitiveName first count).Denotes content ∧
        c.Admits content ∧ d = c.place content := by
  simp only [pushArrays, appendCommand, Step.yields_bind, Step.yields_liftM_except,
    Step.yields_note, Step.yields_change, primitive_eq_ok_iff,
    and_assoc, exists_and_left, exists_eq_left', exists_const]
  constructor
  · rintro ⟨mode, hmode, rfl⟩
    exact ⟨.arrays mode first count, .ofArrays hmode, trivial, rfl⟩
  · rintro ⟨_, ⟨⟩ | ⟨⟩ | ⟨hmode⟩, -, rfl⟩
    exact ⟨_, hmode, rfl⟩

theorem pushBlock_yields_iff {block : Block} {u : Unit} :
    (pushBlock block).Yields c u d ↔
      ∃ content, block.Denotes content ∧ c.Admits content ∧ d = c.place content := by
  match block with
  | .attribute .. => exact pushAttribute_yields_iff
  | .indices .. => exact pushIndices_yields_iff
  | .arrays .. => exact pushArrays_yields_iff

end Compiler

/-! ### The order of events -/

/-- The stage after an event, if it may stand there. -/
def Stage.after : Stage → Event → Except Error Stage
  | .root, .enterMesh => .ok .mesh
  | .root, event => .error (.missingRoot event.found)
  | .mesh, .enterMesh => .error (.unexpectedTag .mesh Element.mesh.name)
  | .mesh, .block _ => .ok .mesh
  | .mesh, .exitMesh => .ok .done
  | .done, _ => .error .trailingContent

namespace Compiler

variable {c d : Compiler}

theorem eventStep_of_disorder {stage : Stage} {event : Event} {e : Error}
    (h : stage.after event = .error e) : eventStep stage event = Step.check (Logged.fail e) := by
  rcases stage with - | - | - <;> rcases event with - | block | - <;> cases h <;> rfl

theorem push_of_disorder {event : Event} {e : Error} (h : c.stage.after event = .error e) :
    (c.push event).next = ⟨[], .error e⟩ := by
  rw [push, eventStep_of_disorder h]
  rfl

/-! ### The three ways -/

/-- A push of the event succeeds and leaves the second compiler. -/
inductive Takes (c : Compiler) : Event → Compiler → Prop
  | enterMesh (hstage : c.stage = .root) : Takes c .enterMesh { c with stage := .mesh }
  | block {block : Block} {content : Content} (hstage : c.stage = .mesh)
      (hdenotes : block.Denotes content) (hadmits : c.Admits content) :
      Takes c (.block block) (c.place content)
  | exitMesh (hstage : c.stage = .mesh) : Takes c .exitMesh { c with stage := .done }

/-- What is taken may stand where it stands. -/
theorem Takes.after {event : Event} (h : c.Takes event d) : c.stage.after event = .ok d.stage := by
  cases h with
  | enterMesh hstage | exitMesh hstage =>
    rw [hstage]
    rfl
  | block hstage =>
    rw [stage_place, hstage]
    rfl

/-- **What a successful push does.** -/
theorem push_next_eq_ok_iff {event : Event} :
    (c.push event).next.result = .ok d ↔ c.Takes event d := by
  rw [push, Step.next_run_eq_ok_iff]
  rcases hafter : c.stage.after event with e | stage
  · -- the event is out of order: neither side holds
    rw [eventStep_of_disorder hafter]
    constructor
    · intro h
      cases Step.not_yields_fail h
    · intro h
      rw [h.after] at hafter
      cases hafter
  · rcases hstage : c.stage with - | - | - <;> rcases event with - | block | - <;>
      rw [hstage] at hafter <;> cases hafter
    -- three events are in order, each at its stage
    · rw [eventStep, enter, Step.yields_change]
      constructor
      · rintro rfl
        exact .enterMesh hstage
      · rintro ⟨⟩
        rfl
    · rw [eventStep, pushBlock_yields_iff]
      constructor
      · rintro ⟨content, hdenotes, hadmits, rfl⟩
        exact .block hstage hdenotes hadmits
      · rintro (_ | ⟨_, hdenotes, hadmits⟩)
        exact ⟨_, hdenotes, hadmits, rfl⟩
    · rw [eventStep, enter, Step.yields_change]
      constructor
      · rintro rfl
        exact .exitMesh hstage
      · rintro ⟨⟩
        rfl

/-! ### Failures -/

theorem guarded_pushBlock (block : Block) : Step.Guarded (pushBlock block) := by
  match block with
  | .attribute slot typeName components text =>
    apply (Step.confined_check _).bind_guarded
    intro type
    apply (Step.confined_check _).bind_guarded
    intro _
    apply Step.confined_current.bind_guarded
    intro c
    apply (Step.confined_check _).bind_guarded
    intro _
    apply (Step.confined_encode _ _).bind_guarded
    intro count
    apply (Step.confined_check _).bind_guarded
    intro _
    apply (Step.confined_check _).bind_guarded
    intro _
    apply (Step.confined_check _).bind_guarded
    intro _
    -- all checks are made
    exact Step.guarded_of_ok fun _ => rfl
  | .indices primitiveName typeName text =>
    apply (Step.confined_check _).bind_guarded
    intro mode
    apply (Step.confined_check _).bind_guarded
    intro type
    apply (Step.confined_encode _ _).bind_guarded
    intro count
    apply (Step.confined_check _).bind_guarded
    intro _
    exact Step.guarded_of_ok fun _ => rfl
  | .arrays primitiveName first count =>
    apply (Step.confined_check _).bind_guarded
    intro mode
    exact Step.guarded_of_ok fun _ => rfl

/-- **What a failed push leaves**: the compiler that was there before, up to its scratch space. -/
theorem push_of_error {c : Compiler} {event : Event} {e : Error}
    (h : (c.push event).outcome.result = .error e) :
    ∃ scratch, (c.push event).compiler = { c with scratch := scratch } := by
  have hguarded : Step.Guarded (eventStep c.stage event) := by
    rcases c.stage with - | - | - <;> rcases event with - | block | -
    -- the stage changes without a check, and all else but a block is turned down
    case root.enterMesh | mesh.exitMesh => exact Step.guarded_of_ok fun _ => rfl
    case mesh.block => exact guarded_pushBlock block
    all_goals exact (Step.confined_check _).guarded
  exact hguarded c e h

/-- A push either takes the event or leaves all but the scratch space as it was. -/
theorem push_cases (c : Compiler) (event : Event) :
    c.Takes event (c.push event).compiler ∨
      ∃ scratch, (c.push event).compiler = { c with scratch := scratch } := by
  rcases h : (c.push event).outcome.result with e | u
  · exact .inr (push_of_error h)
  · left
    rw [← push_next_eq_ok_iff, Stepped.next, h]
    rfl

/-! ### The end of a description -/

/-- The mesh that is declared so far. -/
def mesh (c : Compiler) : Mesh :=
  ⟨c.attributes, c.commands, ⟨.array, c.vertices⟩, ⟨.elementArray, c.indices⟩⟩

theorem finish_eq_ok_iff {c : Compiler} {mesh : Mesh} :
    c.finish.result = .ok mesh ↔
      c.stage = .done ∧ c.attributes ≠ [] ∧ c.commands ≠ [] ∧ mesh = c.mesh := by
  by_cases hstage : c.stage = .done
  · rcases ha : c.attributes with - | ⟨a, attributes⟩
    · simp [finish, Logged.require, Logged.fail, hstage, ha]
    · rcases hc : c.commands with - | ⟨command, commands⟩
      · simp [finish, Logged.require, Logged.fail, hstage, ha, hc]
      · simp [finish, Logged.require, Logged.note, hstage, ha, hc, Compiler.mesh, eq_comm]
  · simp [finish, Logged.require, Logged.fail, hstage]

end Compiler

end MeshLayout
