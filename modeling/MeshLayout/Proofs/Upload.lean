/-
MeshLayout/Proofs/Upload.lean

What a device is told about a compiled mesh.

An upload creates the vertex buffer, then the index buffer if there are
indexed commands, and describes the attributes, in this order and up to the
first call that fails (`Mesh.Uploads`).  Rendering draws every command with
the handles that the device has given.

The library asks whether there is any index data, and not whether a command
needs it.  For a compiled mesh the two come to the same (`hasIndices_iff`),
since its index blocks tile the index buffer and none of them is empty.
This is why no command lacks an index buffer, and why none draws indices
beyond its end.  Main result: `upload_of_compile`.
-/
import MeshLayout.Device.Recorder
import MeshLayout.Proofs.Exchanges
import MeshLayout.Proofs.Tiling

namespace MeshLayout

variable {σ β ε : Type}

/-! ### Indices of a compiled mesh -/

namespace Mesh.LaidOut

variable {mesh : Mesh}

/-- An indexed command draws indices that are there. -/
theorem indexed_le (h : mesh.LaidOut) {mode : Primitive} {offset count : Nat} {type : IndexType}
    (hmem : .indexed mode offset count type ∈ mesh.commands) :
    offset + count * type.size ≤ mesh.indexData.length := by
  have hspan : ⟨offset, count * type.size⟩ ∈ mesh.commands.filterMap Command.span? :=
    List.mem_filterMap.2 ⟨_, hmem, rfl⟩
  exact h.indices_tile.consecutive.end_le _ hspan

/-- There is index data if and only if a command draws through it. -/
theorem hasIndices_iff (h : mesh.LaidOut) :
    mesh.hasIndices = true ↔ ∃ command ∈ mesh.commands, command.isIndexed = true := by
  have hlength : mesh.hasIndices = true ↔ mesh.indexData.length ≠ 0 := by
    simp [hasIndices, Buffer.length]
  rw [hlength]
  constructor
  · intro hbytes
    refine Decidable.byContradiction fun hnone => hbytes ?_
    -- without indexed commands there are no blocks, and these tile the buffer
    have hspans : mesh.commands.filterMap Command.span? = [] := by
      apply List.filterMap_eq_nil_iff.2
      intro command hmem
      cases command with
      | indexed => exact absurd ⟨_, hmem, rfl⟩ hnone
      | direct => rfl
    have htile := h.indices_tile.consecutive
    rw [hspans] at htile
    exact Eq.symm htile
  · rintro ⟨command, hmem, hindexed⟩
    cases command with
    | indexed mode offset count type =>
      have hle := h.indexed_le hmem
      have hpos : 0 < count * type.size := Nat.mul_pos (h.indices_filled hmem) type.size_pos
      omega
    | direct => cases hindexed

end Mesh.LaidOut

/-- What a mesh has to be like to be drawn without a fault of its own. -/
structure Mesh.Drawable (mesh : Mesh) : Prop where
  vertices_target : mesh.vertexData.target = .array
  indices_target : mesh.indexData.target = .elementArray
  hasIndices_iff : mesh.hasIndices = true ↔ ∃ command ∈ mesh.commands, command.isIndexed = true
  indexed_le : ∀ {mode offset count type}, .indexed mode offset count type ∈ mesh.commands →
    offset + count * type.size ≤ mesh.indexData.length

theorem drawable_of_compile {options : Options} {events : List Event} {mesh : Mesh}
    (h : (compile options events).result = .ok mesh) : mesh.Drawable := by
  have hlaidOut := laidOut_of_compile h
  obtain ⟨blocks, last, -, -, -, -, rfl⟩ := compile_eq_ok_iff.1 h
  exact ⟨rfl, rfl, hlaidOut.hasIndices_iff, hlaidOut.indexed_le⟩

/-! ### Uploading -/

/-- The call that creates the index buffer, and what comes of it: there is one if and only if a
command is indexed. -/
inductive Mesh.CreatesIndices (mesh : Mesh) :
    List (Exchange β ε) → Except ε (Option β) → Prop
  | none (h : ∀ command ∈ mesh.commands, command.isIndexed = false) :
      CreatesIndices mesh [] (.ok none)
  | one {answer : Except ε β} (h : ∃ command ∈ mesh.commands, command.isIndexed = true) :
      CreatesIndices mesh [.create .elementArray mesh.indexData.bytes answer] (answer.map some)

/-- The calls of an upload, up to the first that fails, and what comes of it. -/
inductive Mesh.Uploads (mesh : Mesh) :
    List (Exchange β ε) → Except (ReplayError ε) (UploadedMesh β) → Prop
  | verticesRefused {e : ε} :
      Uploads mesh [.create .array mesh.vertexData.bytes (.error e)] (.error (.device e))
  | indicesRefused (vertices : β) {calls : List (Exchange β ε)} {e : ε}
      (hindices : mesh.CreatesIndices calls (.error e)) :
      Uploads mesh (.create .array mesh.vertexData.bytes (.ok vertices) :: calls)
        (.error (.device e))
  | layoutRefused (vertices : β) {calls : List (Exchange β ε)} {indices : Option β} {e : ε}
      (hindices : mesh.CreatesIndices calls (.ok indices)) :
      Uploads mesh
        (.create .array mesh.vertexData.bytes (.ok vertices) ::
          (calls ++ [.bind vertices mesh.attributes indices (.error e)]))
        (.error (.device e))
  | uploaded (vertices : β) {calls : List (Exchange β ε)} {indices : Option β}
      (hindices : mesh.CreatesIndices calls (.ok indices)) :
      Uploads mesh
        (.create .array mesh.vertexData.bytes (.ok vertices) ::
          (calls ++ [.bind vertices mesh.attributes indices (.ok ())]))
        (.ok ⟨vertices, indices, mesh.commands⟩)

namespace Mesh

variable {mesh : Mesh}

theorem Drawable.createIndices_watched (h : mesh.Drawable) (d : Device σ β ε) (s : σ)
    (before : List (Exchange β ε)) :
    ∃ calls, d.watched.createIndices mesh (s, before) =
        ((d.createIndices mesh s).1, (d.createIndices mesh s).2, before ++ calls) ∧
      mesh.CreatesIndices calls (d.createIndices mesh s).1 := by
  rw [Device.createIndices, Device.createIndices, h.indices_target]
  by_cases hdata : mesh.hasIndices = true
  · rw [if_pos hdata, if_pos hdata]
    rcases hcall : d.createBuffer .elementArray mesh.indexData.bytes s with ⟨answer, t⟩
    rw [Device.createBuffer_watched hcall]
    -- whether the call succeeds or not, a command has asked for it
    have hindexed := h.hasIndices_iff.1 hdata
    rcases answer with e | indices
    · exact ⟨_, rfl, .one hindexed⟩
    · exact ⟨_, rfl, .one hindexed⟩
  · rw [if_neg hdata, if_neg hdata]
    refine ⟨[], by rw [List.append_nil], .none ?_⟩
    intro command hmem
    rw [h.hasIndices_iff] at hdata
    exact Bool.eq_false_iff.2 fun hindexed => hdata ⟨command, hmem, hindexed⟩

/-- An upload makes its calls in order, on any device. -/
theorem Drawable.upload_watched (h : mesh.Drawable) (d : Device σ β ε) (s : σ)
    (before : List (Exchange β ε)) :
    ∃ calls, mesh.upload d.watched (s, before) =
        ((mesh.upload d s).1, (mesh.upload d s).2, before ++ calls) ∧
      mesh.Uploads calls (mesh.upload d s).1 := by
  rw [upload, upload, h.vertices_target]
  rcases hvertices : d.createBuffer .array mesh.vertexData.bytes s with ⟨e | vertices, t⟩
  · rw [Device.createBuffer_watched hvertices]
    exact ⟨_, rfl, .verticesRefused⟩
  · -- the index buffer comes next, and its calls stand behind the first
    obtain ⟨calls, hwatched, hcreates⟩ := h.createIndices_watched d t
      (before ++ [.create .array mesh.vertexData.bytes (.ok vertices)])
    rw [Device.createBuffer_watched hvertices, Device.andThen_ok, Device.andThen_ok, hwatched]
    rcases hindices : d.createIndices mesh t with ⟨e | indices, u⟩ <;> rw [hindices] at hcreates
    · refine ⟨_, ?_, .indicesRefused vertices hcreates⟩
      rw [List.append_assoc]
      rfl
    · rw [Device.andThen_ok, Device.andThen_ok]
      rcases hlayout : d.bindAttributes vertices mesh.attributes indices u with ⟨e | ⟨⟩, v⟩
      · rw [Device.bindAttributes_watched hlayout]
        refine ⟨_, ?_, .layoutRefused vertices hcreates⟩
        rw [List.append_assoc, List.append_assoc]
        rfl
      · rw [Device.bindAttributes_watched hlayout]
        refine ⟨_, ?_, .uploaded vertices hcreates⟩
        rw [List.append_assoc, List.append_assoc]
        rfl

theorem CreatesIndices.error_iff {calls : List (Exchange β ε)} {answer : Except ε (Option β)}
    (h : mesh.CreatesIndices calls answer) (e : ε) :
    answer = .error e ↔ ∃ call ∈ calls, call.failure? = some e := by
  cases h with
  | none => simp
  | @one answer _ => rcases answer with e' | indices <;> simp [Except.map]

namespace Uploads

variable {calls : List (Exchange β ε)} {result : Except (ReplayError ε) (UploadedMesh β)}

/-- An upload fails as the device does. -/
theorem error_iff (h : mesh.Uploads calls result) (e : ε) :
    result = .error (.device e) ↔ ∃ call ∈ calls, call.failure? = some e := by
  cases h with
  | verticesRefused => simp
  | indicesRefused _ hindices => simp [← hindices.error_iff e]
  | layoutRefused _ hindices => simp [or_and_right, exists_or, ← hindices.error_iff e]
  | uploaded _ hindices => simp [or_and_right, exists_or, ← hindices.error_iff e]

/-- What has been uploaded has the commands of the mesh, and an index buffer if one of them needs
it. -/
theorem commands_eq {uploaded : UploadedMesh β}
    (h : mesh.Uploads calls (.ok uploaded : Except (ReplayError ε) _)) :
    uploaded.commands = mesh.commands ∧
      (uploaded.indices = none → ∀ command ∈ mesh.commands, command.isIndexed = false) := by
  cases h with
  | uploaded _ hindices =>
    refine ⟨rfl, ?_⟩
    rintro rfl
    generalize hanswer : (Except.ok none : Except ε (Option β)) = answer at hindices
    cases hindices with
    | none h => exact h
    | @one answer h => rcases answer with e | indices <;> cases hanswer

end Uploads

end Mesh

/-! ### Compiled meshes -/

/-- **Uploading and rendering a compiled mesh.**  Whatever the device, an upload makes its calls in
order and fails as the first of them that fails.  If it succeeds, rendering draws every command in
order, on this or another device with the same handles; it never misses an index buffer, and no
indexed draw reaches beyond the index data. -/
theorem upload_of_compile {options : Options} {events : List Event} {mesh : Mesh}
    (hmesh : (compile options events).result = .ok mesh) (d : Device σ β ε) (s : σ) :
    ∃ calls, mesh.upload d.watched (s, []) =
        ((mesh.upload d s).1, (mesh.upload d s).2, calls) ∧
      mesh.Uploads calls (mesh.upload d s).1 ∧
      (∀ e, (mesh.upload d s).1 = .error (.device e) ↔
        ∃ call ∈ calls, call.failure? = some e) ∧
      ∀ uploaded, (mesh.upload d s).1 = .ok uploaded →
        ∀ {τ δ : Type} (screen : Device τ β δ) (t : τ), ∃ draws,
          uploaded.render screen.watched (t, []) =
            ((uploaded.render screen t).1, (uploaded.render screen t).2, draws) ∧
          Draws uploaded.vertices uploaded.indices 0 mesh.commands draws
            (uploaded.render screen t).1 ∧
          (∀ e, (uploaded.render screen t).1 = .error (.device e) ↔
            ∃ draw ∈ draws, draw.failure? = some e) ∧
          (∀ number, (uploaded.render screen t).1 ≠ .error (.missingIndexBuffer number)) ∧
          ∀ vertices indices mode offset count type answer,
            .drawIndexed vertices indices mode offset count type answer ∈ draws →
            offset + count * type.size ≤ mesh.indexData.length := by
  have hdrawable := drawable_of_compile hmesh
  obtain ⟨calls, hwatched, huploads⟩ := hdrawable.upload_watched d s []
  refine ⟨calls, hwatched, huploads, huploads.error_iff, ?_⟩
  intro uploaded hok τ δ screen t
  rw [hok] at huploads
  obtain ⟨hcommands, hindices⟩ := huploads.commands_eq
  obtain ⟨draws, hrender, hdraws⟩ :=
    screen.executeFrom_watched uploaded.vertices uploaded.indices 0 uploaded.commands t []
  have hresult : screen.executeFrom uploaded.vertices uploaded.indices 0 uploaded.commands t =
      uploaded.render screen t := rfl
  rw [hresult, hcommands] at hdraws
  refine ⟨draws, hrender, hdraws, hdraws.error_iff, hdraws.ne_missing hindices, ?_⟩
  intro vertices indices mode offset count type answer hmem
  exact hdrawable.indexed_le (hdraws.mem_of_drawIndexed hmem)

/-- An indexed command and a direct one. -/
def lineAndPoints : List Event :=
  [.enterMesh, .block (.attribute 0 "ubyte" 1 "1 2"), .block (.indices "lines" "ubyte" "0 1"),
   .block (.arrays "points" 0 2), .exitMesh]

/-- The recorder takes the upload, and fails the second draw call. -/
theorem upload_lineAndPoints :
    ∃ (mesh : Mesh) (calls draws : List (Exchange Nat PlannedFailure))
        (uploaded : UploadedMesh Nat),
      (compile .strict lineAndPoints).result = .ok mesh ∧ mesh.Uploads calls (.ok uploaded) ∧
      Draws uploaded.vertices uploaded.indices 0 mesh.commands draws (.error (.device .draw)) ∧
      ∃ draw ∈ draws, draw.failure? = some .draw := by
  obtain ⟨mesh, hmesh⟩ : ∃ mesh, (compile .strict lineAndPoints).result = .ok mesh := ⟨_, rfl⟩
  let recorder : Recorder := .start ⟨none, false, some 1⟩
  obtain ⟨uploaded, huploaded⟩ :
      ∃ uploaded, (mesh.upload Recorder.device recorder).1 = .ok uploaded := by
    cases hmesh
    exact ⟨_, rfl⟩
  have hfails : (uploaded.render Recorder.device recorder).1 = .error (.device .draw) := by
    cases hmesh
    cases huploaded
    rfl
  obtain ⟨calls, -, huploads, -, hrender⟩ := upload_of_compile hmesh Recorder.device recorder
  obtain ⟨draws, -, hdraws, herror, -⟩ := hrender uploaded huploaded Recorder.device recorder
  rw [huploaded] at huploads
  rw [hfails] at hdraws
  exact ⟨mesh, calls, draws, uploaded, hmesh, huploads, hdraws, (herror .draw).1 hfails⟩

end MeshLayout
