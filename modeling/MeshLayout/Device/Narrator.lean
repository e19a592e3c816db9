/-
MeshLayout/Device/Narrator.lean

A device that draws nothing and never fails: it takes a note of each call.
-/
import MeshLayout.Device.Basic

namespace MeshLayout

/-- The state of a narrating device. -/
structure Narrator where
  /-- buffers created so far; the next one gets this number as its handle -/
  buffers : Nat
  /-- draw calls so far -/
  draws : Nat
  /-- notes taken or heard, in order -/
  notes : List Note

namespace Narrator

/-- A narrator that has not been called. -/
def start : Narrator := ⟨0, 0, []⟩

/-- Takes notes. -/
def tell (n : Narrator) (notes : List Note) : Narrator := { n with notes := n.notes ++ notes }

/-- The narrating device. -/
def device : Device Narrator Nat Empty where
  createBuffer target data n :=
    (.ok n.buffers,
      { n with buffers := n.buffers + 1 }.tell [.createdBuffer n.buffers target data.length])
  bindAttributes vertices attributes indices n :=
    (.ok (), n.tell (attributes.map (Note.boundAttribute vertices) ++ [.boundIndices indices]))
  drawIndexed _ indices mode offset count type n :=
    (.ok (), { n with draws := n.draws + 1 }.tell [.drewElements indices mode offset count type])
  drawDirect _ mode first count n :=
    (.ok (), { n with draws := n.draws + 1 }.tell [.drewArrays mode first count])
  note heard n := n.tell [heard]

end Narrator

end MeshLayout
