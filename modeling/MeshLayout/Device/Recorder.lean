/-
MeshLayout/Device/Recorder.lean

A device that keeps a record of the calls made on it, and fails the calls
that a plan names.

Create calls are numbered from 0, and so are draw calls; calls that fail
are counted too.  The handle of a buffer is the number of the call that
created it.  Only calls that succeed are recorded.
-/
import MeshLayout.Device.Basic

namespace MeshLayout

/-- A call on a device. -/
inductive Call (β : Type) where
  | create (target : Target) (data : List UInt8)
  | bind (vertices : β) (attributes : List Attribute) (indices : Option β)
  | drawIndexed (vertices indices : β) (mode : Primitive) (offset count : Nat) (type : IndexType)
  | drawDirect (vertices : β) (mode : Primitive) (first count : UInt32)
deriving DecidableEq

/-- Which calls are to fail. -/
structure FailurePlan where
  /-- the number of a create call -/
  create : Option Nat
  /-- every bind call -/
  bind : Bool
  /-- the number of a draw call -/
  draw : Option Nat

/-- A failure that was planned. -/
inductive PlannedFailure where
  | create | bind | draw
deriving DecidableEq

/-- The failure in words. -/
def PlannedFailure.message : PlannedFailure → String
  | create => "create failed"
  | bind => "bind failed"
  | draw => "draw failed"

/-- The state of a recording device. -/
structure Recorder where
  plan : FailurePlan
  /-- create calls so far -/
  creates : Nat
  /-- draw calls so far -/
  draws : Nat
  /-- calls that succeeded, in order -/
  calls : List (Call Nat)
  /-- notes heard, in order -/
  notes : List Note

namespace Recorder

/-- A recorder that has not been called. -/
def start (plan : FailurePlan) : Recorder := ⟨plan, 0, 0, [], []⟩

/-- The recorder without its record; the counts go on. -/
def forget (r : Recorder) : Recorder := { r with calls := [], notes := [] }

/-- Records a call. -/
def record (r : Recorder) (call : Call Nat) : Recorder := { r with calls := r.calls ++ [call] }

/-- Counts a create call, and records it unless it is to fail. -/
def create (target : Target) (data : List UInt8) (r : Recorder) :
    Except PlannedFailure Nat × Recorder :=
  let counted := { r with creates := r.creates + 1 }
  if r.plan.create = some r.creates then (.error .create, counted)
  else (.ok r.creates, counted.record (.create target data))

/-- Records a bind call unless it is to fail. -/
def bind (vertices : Nat) (attributes : List Attribute) (indices : Option Nat) (r : Recorder) :
    Except PlannedFailure Unit × Recorder :=
  if r.plan.bind then (.error .bind, r)
  else (.ok (), r.record (.bind vertices attributes indices))

/-- Counts a draw call, and records it unless it is to fail. -/
def draw (call : Call Nat) (r : Recorder) : Except PlannedFailure Unit × Recorder :=
  let counted := { r with draws := r.draws + 1 }
  if r.plan.draw = some r.draws then (.error .draw, counted) else (.ok (), counted.record call)

/-- The recording device. -/
def device : Device Recorder Nat PlannedFailure where
  createBuffer := create
  bindAttributes := bind
  drawIndexed vertices indices mode offset count type :=
    draw (.drawIndexed vertices indices mode offset count type)
  drawDirect vertices mode first count := draw (.drawDirect vertices mode first count)
  note n r := { r with notes := r.notes ++ [n] }

/-- The recording device without a bind call of its own: attribute layouts are ignored. -/
def unboundDevice : Device Recorder Nat PlannedFailure where
  createBuffer := device.createBuffer
  drawIndexed := device.drawIndexed
  drawDirect := device.drawDirect
  note := device.note

end Recorder

end MeshLayout
