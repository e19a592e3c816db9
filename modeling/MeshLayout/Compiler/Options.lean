/-
MeshLayout/Compiler/Options.lean

The policy of a compilation: which checks end it when a block fails them.
A check that is switched off is still made, and a violation noted.
-/
import MeshLayout.Error

namespace MeshLayout

/-- Which checks are enforced. -/
structure Options where
  wholeVertices : Bool
  uniformVertexCount : Bool
  uniqueSlots : Bool
deriving DecidableEq

namespace Options

/-- The policy if nothing else is asked for: slots may be declared again. -/
def standard : Options := ⟨true, true, false⟩

/-- Nothing is enforced. -/
def lenient : Options := ⟨false, false, false⟩

/-- Everything is enforced. -/
def strict : Options := ⟨true, true, true⟩

/-- Is the check enforced? -/
def enforces (options : Options) : Check → Bool
  | .wholeVertices => options.wholeVertices
  | .uniformVertexCount => options.uniformVertexCount
  | .uniqueSlots => options.uniqueSlots

/-- A policy is at most as strict as another if the other enforces every check that it does. -/
instance : LE Options where
  le weak strong := ∀ check, weak.enforces check = true → strong.enforces check = true

/-- The policy in a listing. -/
def listing (options : Options) : String :=
  "CompileOptions \x7b require_whole_vertices: " ++ toString options.wholeVertices ++
    ", require_uniform_vertex_count: " ++ toString options.uniformVertexCount ++
    ", require_unique_slots: " ++ toString options.uniqueSlots ++ " \x7d"

end Options

end MeshLayout
