/-
MeshLayout/Device/Basic.lean

Handing a mesh to a graphics device.

A device is any state machine that can create buffers, be told the layout
of vertex attributes, and draw; each of these may fail, and the state
afterwards is the device's own affair.  `Mesh.upload` creates the buffers
of a mesh and describes its attributes, `execute` replays draw commands.
Both stop at the first failure.  A device may also listen to the notes that
are taken on the way.
-/
import MeshLayout.Note

namespace MeshLayout

/-- A graphics device with states `σ`, buffer handles `β` and errors `ε`. -/
structure Device (σ β ε : Type) where
  /-- Creates a buffer with the given contents. -/
  createBuffer : Target → List UInt8 → σ → Except ε β × σ
  /-- Takes the layout of the attributes in a vertex buffer, and the index buffer if there is
  one. -/
  bindAttributes : β → List Attribute → Option β → σ → Except ε Unit × σ :=
    fun _ _ _ s => (.ok (), s)
  /-- Draws by indices: vertices, indices, mode, offset, count, index type. -/
  drawIndexed : β → β → Primitive → Nat → Nat → IndexType → σ → Except ε Unit × σ
  /-- Draws a run of vertices: vertices, mode, first, count. -/
  drawDirect : β → Primitive → UInt32 → UInt32 → σ → Except ε Unit × σ
  /-- Listens to a note. -/
  note : Note → σ → σ := fun _ s => s

/-- Why a replay ended early. -/
inductive ReplayError (ε : Type) where
  /-- the command of this number is indexed, and there is no index buffer -/
  | missingIndexBuffer (command : Nat)
  /-- a call on the device failed -/
  | device (cause : ε)
deriving DecidableEq

/-- The error in words. -/
def ReplayError.message {ε : Type} : ReplayError ε → String
  | missingIndexBuffer command =>
    s!"render command {command} is indexed, but no index buffer was supplied"
  | device _ => "rendering device failed"

/-- A mesh whose buffers have been created on a device. -/
structure UploadedMesh (β : Type) where
  vertices : β
  indices : Option β
  commands : List Command
deriving DecidableEq

namespace Device

variable {σ β ε α γ : Type}

/-- Goes on after a call that succeeded. -/
def andThen (call : Except ε α × σ) (next : α → σ → Except (ReplayError ε) γ × σ) :
    Except (ReplayError ε) γ × σ :=
  match call with
  | (.ok a, s) => next a s
  | (.error e, s) => (.error (.device e), s)

@[simp] theorem andThen_ok (a : α) (s : σ) (next : α → σ → Except (ReplayError ε) γ × σ) :
    andThen (.ok a, s) next = next a s := rfl

@[simp] theorem andThen_error (e : ε) (s : σ) (next : α → σ → Except (ReplayError ε) γ × σ) :
    andThen (.error e, s) next = (.error (.device e), s) := rfl

/-! ### Replaying commands -/

/-- Draws one command. -/
def draw (d : Device σ β ε) (vertices : β) (indices : Option β) (number : Nat)
    (command : Command) (s : σ) : Except (ReplayError ε) Unit × σ :=
  match command, indices with
  | .indexed .., none => (.error (.missingIndexBuffer number), s)
  | .indexed mode offset count type, some indices =>
    andThen (d.drawIndexed vertices indices mode offset count type s) fun _ s => (.ok (), s)
  | .direct mode first count, _ =>
    andThen (d.drawDirect vertices mode first count s) fun _ s => (.ok (), s)

/-- Draws commands one after the other, counted from `number` on. -/
def executeFrom (d : Device σ β ε) (vertices : β) (indices : Option β) (number : Nat) :
    List Command → σ → Except (ReplayError ε) Unit × σ
  | [], s => (.ok (), s)
  | command :: rest, s =>
    match d.draw vertices indices number command (d.note (.issuing number command) s) with
    | (.ok (), s) => d.executeFrom vertices indices (number + 1) rest s
    | (.error e, s) => (.error e, s)

/-- Draws every command in order, up to the first that fails. -/
def execute (d : Device σ β ε) (commands : List Command) (vertices : β) (indices : Option β)
    (s : σ) : Except (ReplayError ε) Unit × σ :=
  d.executeFrom vertices indices 0 commands s

/-- Creates the index buffer of a mesh, if it has indices. -/
def createIndices (d : Device σ β ε) (mesh : Mesh) (s : σ) : Except ε (Option β) × σ :=
  if mesh.hasIndices then
    match d.createBuffer mesh.indexData.target mesh.indexData.bytes s with
    | (.ok indices, s) => (.ok (some indices), s)
    | (.error e, s) => (.error e, s)
  else (.ok none, s)

end Device

variable {σ β ε : Type}

/-! ### Meshes -/

/-- Creates the buffers of a mesh and describes its attributes. -/
def Mesh.upload (mesh : Mesh) (d : Device σ β ε) (s : σ) :
    Except (ReplayError ε) (UploadedMesh β) × σ :=
  Device.andThen (d.createBuffer mesh.vertexData.target mesh.vertexData.bytes s) fun vertices s =>
  Device.andThen (d.createIndices mesh s) fun indices s =>
  Device.andThen (d.bindAttributes vertices mesh.attributes indices s) fun _ s =>
    (.ok ⟨vertices, indices, mesh.commands⟩, d.note (.uploaded mesh.attributes.length) s)

/-- Draws an uploaded mesh. -/
def UploadedMesh.render (mesh : UploadedMesh β) (d : Device σ β ε) (s : σ) :
    Except (ReplayError ε) Unit × σ :=
  d.execute mesh.commands mesh.vertices mesh.indices s

end MeshLayout
