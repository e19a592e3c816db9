/-
MeshLayout/Proofs/Guarantees.lean

What the checks of a policy are good for.

A check is made when a block comes, with the first attribute alone to
compare with, and on numbers of tokens.  What it is meant to ensure are facts
about the whole attribute table and its numbers of bytes (`Mesh.Meets`).
They follow from what is known of descriptions that compile: their
declarations are consistent (`Acceptable`), and the rows of the table are
those of the declarations (`Declaration.Realized`).

A check that is not enforced is noted when it fails.  A policy that adds the
check would have ended the run at the note (`result_tighten`), so there is no
such note if and only if the stricter policy accepts the description.  Main
result: `meets_of_compile`.
-/
import MeshLayout.Proofs.Acceptance
import MeshLayout.Proofs.Strictness
import MeshLayout.Proofs.Tiling

namespace MeshLayout

/-! ### Rows of the table -/

section Table

variable {bytes : List UInt8} {ds : List Declaration} {attributes : List Attribute}

theorem exists_realized (h : List.Forall₂ (Declaration.Realized bytes) ds attributes) {a : Attribute}
    (ha : a ∈ attributes) : ∃ d ∈ ds, d.Realized bytes a := by
  induction h with
  | nil => cases ha
  | @cons d _ _ _ hfirst _ ih =>
    rcases List.mem_cons.1 ha with rfl | ha
    · exact ⟨d, List.mem_cons_self .., hfirst⟩
    · obtain ⟨d', hd', hrealized⟩ := ih ha
      exact ⟨d', List.mem_cons_of_mem _ hd', hrealized⟩

end Table

namespace Mesh

variable {mesh : Mesh} {ds : List Declaration} {n : Nat}

theorem vertexCount?_eq_some_iff : mesh.vertexCount? = some n ↔
    mesh.attributes ≠ [] ∧ ∀ a ∈ mesh.attributes, a.vertexCount = n := by
  rcases h : mesh.attributes with - | ⟨first, rest⟩
  · simp [vertexCount?, h]
  · have hcount : mesh.vertexCount? =
        if rest.all fun a => a.vertexCount = first.vertexCount then some first.vertexCount
        else none := by
      rw [vertexCount?, h]
    rw [hcount, Option.ite_none_right_eq_some, List.all_eq_true, List.forall_mem_cons]
    -- the others agree with the first, or they and the first with the number
    constructor
    · rintro ⟨hrest, ⟨⟩⟩
      exact ⟨List.cons_ne_nil _ _, rfl, by simpa using hrest⟩
    · rintro ⟨-, rfl, hrest⟩
      exact ⟨by simpa using hrest, rfl⟩

/-- The attributes agree on the number of vertices if the declarations do. -/
theorem vertexCount?_eq_some_iff_of_realized
    (h : List.Forall₂ (Declaration.Realized mesh.vertexData.bytes) ds mesh.attributes) :
    mesh.vertexCount? = some n ↔ ds ≠ [] ∧ ∀ d ∈ ds, d.vertices = n := by
  have hvertices := map_realized h fun _ _ hrealized => hrealized.vertexCount_eq
  have hnil : mesh.attributes = [] ↔ ds = [] := by
    rw [← List.length_eq_zero_iff, ← h.length_eq, List.length_eq_zero_iff]
  rw [vertexCount?_eq_some_iff, Ne, hnil, ← List.forall_mem_map (P := (· = n)), hvertices,
    List.forall_mem_map]

end Mesh

/-- Whole vertices make up the block. -/
theorem Attribute.Filled.whole {a : Attribute} (h : a.Filled)
    (hdvd : a.components.toNat ∣ a.valueCount) :
    1 ≤ a.vertexCount ∧ a.valueCount = a.vertexCount * a.components.toNat ∧
      a.length = a.vertexCount * a.stride := by
  have hvalues : a.valueCount = a.vertexCount * a.components.toNat :=
    (Nat.div_mul_cancel hdvd).symm
  have hlength : a.length = a.vertexCount * a.stride := by
    rw [h.length_eq, hvalues, stride, Nat.mul_assoc, Nat.mul_comm a.components.toNat]
  refine ⟨?_, hvalues, hlength⟩
  -- without vertices there would be no bytes
  apply Nat.pos_of_ne_zero
  intro hzero
  have hpos := h.length_pos
  rw [hlength, hzero, Nat.zero_mul] at hpos
  exact Nat.lt_irrefl 0 hpos

/-! ### Meshes and policies -/

/-- The mesh is as the policy asks. -/
structure Mesh.Meets (mesh : Mesh) (options : Options) : Prop where
  hasAttribute : mesh.attributes ≠ []
  hasCommand : mesh.commands ≠ []
  uniform : options.uniformVertexCount = true →
    ∃ n, mesh.vertexCount? = some n ∧ ∀ a ∈ mesh.attributes, a.vertexCount = n
  whole : options.wholeVertices = true → ∀ a ∈ mesh.attributes,
    1 ≤ a.vertexCount ∧ a.valueCount = a.vertexCount * a.components.toNat ∧
      a.length = a.vertexCount * a.stride
  unique : options.uniqueSlots = true → (mesh.attributes.map Attribute.slot).Nodup ∧
    ∀ slot a, mesh.attribute? slot = some a ↔ a ∈ mesh.attributes ∧ a.slot = slot

variable {options : Options} {events : List Event} {mesh : Mesh}

/-- The rows of the attribute table are those of the declarations. -/
theorem realized_of_compile (h : (compile options events).result = .ok mesh) :
    List.Forall₂ (Declaration.Realized mesh.vertexData.bytes) (declarations events)
      mesh.attributes := by
  obtain ⟨last, hholds, rfl⟩ := holds_of_compile h
  exact hholds.attributes

theorem nonempty_of_compile (h : (compile options events).result = .ok mesh) :
    mesh.attributes ≠ [] ∧ mesh.commands ≠ [] := by
  obtain ⟨blocks, last, -, -, hattributes, hcommands, rfl⟩ := compile_eq_ok_iff.1 h
  exact ⟨hattributes, hcommands⟩

/-- Attributes agree on the number of vertices if their declarations are uniform. -/
theorem exists_vertexCount?_iff (h : (compile options events).result = .ok mesh) :
    (∃ n, mesh.vertexCount? = some n) ↔
      ∀ d ∈ declarations events, ∀ first ∈ (declarations events).head?,
        d.vertices = first.vertices := by
  have hrealized := realized_of_compile h
  have hnil : mesh.attributes ≠ [] := (nonempty_of_compile h).1
  generalize declarations events = ds at hrealized
  simp only [Mesh.vertexCount?_eq_some_iff_of_realized hrealized]
  rcases ds with - | ⟨first, rest⟩
  · exact absurd (List.forall₂_nil_left_iff.1 hrealized) hnil
  · constructor
    · rintro ⟨n, -, hall⟩ d hd _ ⟨⟩
      rw [hall d hd, hall first (List.mem_cons_self ..)]
    · intro huniform
      exact ⟨first.vertices, List.cons_ne_nil _ _, fun d hd => huniform d hd first rfl⟩

theorem meets_of_acceptable (hacceptable : Acceptable options events)
    (h : (compile options events).result = .ok mesh) : mesh.Meets options := by
  have hrealized := realized_of_compile h
  have hlaidOut := laidOut_of_compile h
  have hconsistent := hacceptable.consistent
  obtain ⟨hattributes, hcommands⟩ := nonempty_of_compile h
  refine ⟨hattributes, hcommands, ?_, ?_, ?_⟩
  · intro huniform
    obtain ⟨n, hn⟩ := (exists_vertexCount?_iff h).2 (hconsistent.uniform huniform)
    exact ⟨n, hn, (Mesh.vertexCount?_eq_some_iff.1 hn).2⟩
  · intro hwhole a ha
    obtain ⟨d, hd, hda⟩ := exists_realized hrealized ha
    apply (hlaidOut.attributes_filled a ha).whole
    rw [hda.components_eq, hda.valueCount_eq]
    exact hconsistent.whole hwhole d hd
  · intro hunique
    have hnodup : (mesh.attributes.map Attribute.slot).Nodup := by
      rw [map_realized hrealized fun _ _ hda => hda.slot_eq]
      exact hconsistent.unique hunique
    exact ⟨hnodup, fun slot a => find?_key_eq_some_iff hnodup⟩

/-! ### Noted differences -/

/-- A note has been taken of an attribute with another number of vertices than the first. -/
def NotesVertexCount (notes : List Note) : Prop :=
  ∃ slot expected found, .passedOver (.vertexCount slot expected found) ∈ notes

/-- The policy, with the check of the numbers of vertices added. -/
def Options.addUniform (options : Options) : Options := { options with uniformVertexCount := true }

theorem Options.le_addUniform (options : Options) : options ≤ options.addUniform := by
  intro check
  cases check with
  | uniformVertexCount => exact fun _ => rfl
  | wholeVertices | uniqueSlots => exact id

theorem missed_addUniform_eq_nil_iff (hlenient : options.uniformVertexCount = false)
    {notes : List Note} :
    missed options options.addUniform notes = [] ↔ ¬ NotesVertexCount notes := by
  rw [missed, List.filterMap_eq_nil_iff]
  constructor
  · rintro hnone ⟨slot, expected, found, hmem⟩
    have hmissed := hnone _ hmem
    simp [Note.missed?, Options.adds, Options.enforces, Options.addUniform, Violation.check,
      hlenient] at hmissed
  · intro hquiet n hn
    cases n with
    | passedOver violation =>
      cases violation with
      | duplicateSlot | partialVertex =>
        simp [Note.missed?, Options.adds, Options.enforces, Options.addUniform, Violation.check]
      | vertexCount slot expected found => exact absurd ⟨slot, expected, found, hn⟩ hquiet
    | _ => rfl

/-- The stricter policy accepts a description whose attributes agree. -/
theorem acceptable_addUniform_iff (h : (compile options events).result = .ok mesh) :
    Acceptable options.addUniform events ↔ ∃ n, mesh.vertexCount? = some n := by
  rw [exists_vertexCount?_iff h]
  constructor
  · intro hstrict
    exact hstrict.consistent.uniform rfl
  · intro huniform
    obtain ⟨hframed, hattribute, hcommand, hreadable, hwhole, -, hunique⟩ :=
      exists_compile_iff.1 ⟨mesh, h⟩
    exact ⟨hframed, hattribute, hcommand, hreadable, hwhole, fun _ => huniform, hunique⟩

/-- **Numbers of vertices that differ are noted**, as long as they are no error. -/
theorem vertexCount?_eq_none_iff (hlenient : options.uniformVertexCount = false)
    (h : (compile options events).result = .ok mesh) :
    mesh.vertexCount? = none ↔ NotesVertexCount (compile options events).notes := by
  have hstrict : (∃ mesh', (compile options.addUniform events).result = .ok mesh') ↔
      ¬ NotesVertexCount (compile options events).notes := by
    simp only [compile_eq_tighten options.le_addUniform, Logged.result_tighten_eq_ok_iff, h,
      missed_addUniform_eq_nil_iff hlenient]
    simp
  rw [← not_iff_not, ← hstrict, exists_compile_iff, acceptable_addUniform_iff h, ← Ne,
    Option.ne_none_iff_exists']

/-- **Enforced checks hold in the mesh**, whatever the description.  Of the numbers of vertices,
which need not agree if nothing enforces it, a note has been taken if and only if they do not. -/
theorem meets_of_compile (h : (compile options events).result = .ok mesh) :
    mesh.Meets options ∧ (options.uniformVertexCount = false →
      (mesh.vertexCount? = none ↔ ∃ slot expected found,
        .passedOver (.vertexCount slot expected found) ∈ (compile options events).notes)) :=
  ⟨meets_of_acceptable (exists_compile_iff.1 ⟨mesh, h⟩) h,
    fun hlenient => vertexCount?_eq_none_iff hlenient h⟩

/-- Two attributes of two vertices each, which differ in all other numbers. -/
def unlikeRows : List Event :=
  [.enterMesh, .block (.attribute 4 "ubyte" 1 "1 2"), .block (.attribute 2 "float" 2 "0 1 0.5 1"),
   .block (.arrays "lines" 0 2), .exitMesh]

theorem meets_unlikeRows :
    (∃ mesh, (compile .strict unlikeRows).result = .ok mesh ∧
      (∃ n, mesh.vertexCount? = some n ∧ ∀ a ∈ mesh.attributes, a.vertexCount = n) ∧
      (∀ a ∈ mesh.attributes, 1 ≤ a.vertexCount ∧
        a.valueCount = a.vertexCount * a.components.toNat ∧ a.length = a.vertexCount * a.stride) ∧
      (mesh.attributes.map Attribute.slot).Nodup) ∧
      ∃ mesh, (compile .lenient threeViolations).result = .ok mesh ∧ mesh.vertexCount? = none ∧
        ∃ slot expected found, .passedOver (.vertexCount slot expected found) ∈
          (compile .lenient threeViolations).notes := by
  have hmesh : (compile .strict unlikeRows).result = .ok _ := rfl
  have hmesh' : (compile .lenient threeViolations).result = .ok _ := rfl
  obtain ⟨hmeets, -⟩ := meets_of_compile hmesh
  obtain ⟨-, hnoted⟩ := meets_of_compile hmesh'
  refine ⟨⟨_, hmesh, hmeets.uniform rfl, hmeets.whole rfl, (hmeets.unique rfl).1⟩, ?_⟩
  exact ⟨_, hmesh', rfl, (hnoted rfl).1 rfl⟩

end MeshLayout
