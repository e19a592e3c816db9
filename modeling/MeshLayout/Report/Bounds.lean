/-
MeshLayout/Report/Bounds.lean

The least and the greatest value of each component over the vertices of an
attribute.

The bounds are carried from vertex to vertex.  A value replaces a bound
unless the bound is known to be no worse, so anything replaces a bound that
is no number, and a value that is no number replaces any bound.  Of equal
values the first stays.  Values behind the last whole vertex do not count.
-/
import MeshLayout.Binary32.Basic
import MeshLayout.Buffer

namespace MeshLayout

/-- The bounds of each component. -/
structure Bounds where
  lower : List Binary32
  upper : List Binary32
deriving DecidableEq

namespace Bounds

/-- The lower bound after another value. -/
def lowerWith (bound value : Binary32) : Binary32 :=
  if Binary32.le bound value then bound else value

/-- The upper bound after another value. -/
def upperWith (bound value : Binary32) : Binary32 :=
  if Binary32.le value bound then bound else value

/-- The bounds of a single vertex. -/
def ofVertex (vertex : List Binary32) : Bounds := ⟨vertex, vertex⟩

/-- The bounds after another vertex. -/
def extend (bounds : Bounds) (vertex : List Binary32) : Bounds :=
  ⟨bounds.lower.zipWith lowerWith vertex, bounds.upper.zipWith upperWith vertex⟩

/-- The bounds over all whole vertices of the given number of components, if there is one. -/
def ofValues (values : List Binary32) (components : Nat) : Option Bounds :=
  if components = 0 then none
  else
    match pieces components (values.length / components) values with
    | [] => none
    | first :: rest => some (rest.foldl extend (ofVertex first))

end Bounds

end MeshLayout
