/-
MeshLayout/Compiler/Step.lean

The state of a compilation, and the steps that change it.

A step is run on a compiler.  It gives an outcome, with the notes taken on
the way, and leaves the compiler as it has changed it so far, also when it
fails: nothing is undone.  A step that is to be applied completely or not
at all has to make its checks before it touches what it must not spoil.
-/
import MeshLayout.Logged

namespace MeshLayout

/-- How far the description has been read. -/
inductive Stage where
  /-- before the root element -/
  | root
  /-- in the root element -/
  | mesh
  /-- after the root element -/
  | done
deriving DecidableEq

/-- A compilation under way. -/
structure Compiler where
  options : Options
  stage : Stage
  attributes : List Attribute
  commands : List Command
  /-- the vertex buffer as far as it has been written -/
  vertices : List UInt8
  /-- the index buffer as far as it has been written -/
  indices : List UInt8
  /-- the bytes of the block that is being read -/
  scratch : List UInt8
deriving DecidableEq

/-- A compiler that has not read anything. -/
def Compiler.start (options : Options) : Compiler := ⟨options, .root, [], [], [], [], []⟩

/-! ### Steps -/

/-- What a step leaves: the compiler as it is then, and the outcome. -/
structure Stepped (α : Type) where
  compiler : Compiler
  outcome : Logged Error α

/-- The compiler to go on with, if the step has succeeded. -/
def Stepped.next (stepped : Stepped Unit) : Logged Error Compiler :=
  ⟨stepped.outcome.notes, stepped.outcome.result.map fun _ => stepped.compiler⟩

/-- A step of a compilation. -/
def Step (α : Type) : Type := Compiler → Stepped α

namespace Step

variable {α β : Type}

/-- Runs the step on a compiler. -/
def run (step : Step α) (c : Compiler) : Stepped α := step c

/-- Does nothing. -/
def done (a : α) : Step α := fun c => ⟨c, pure a⟩

/-- Goes on with the value of the first step, on the compiler that it has left. -/
def bind (first : Step α) (next : α → Step β) : Step β := fun c =>
  match first.run c with
  | ⟨c, ⟨notes, .ok a⟩⟩ =>
    let rest := (next a).run c
    ⟨rest.compiler, ⟨notes ++ rest.outcome.notes, rest.outcome.result⟩⟩
  | ⟨c, ⟨notes, .error e⟩⟩ => ⟨c, ⟨notes, .error e⟩⟩

instance : Monad Step where
  pure := done
  bind := bind

/-- A check.  The compiler has no part in it. -/
def check (outcome : Logged Error α) : Step α := fun c => ⟨c, outcome⟩

instance : MonadLift (Logged Error) Step where
  monadLift := check

instance : MonadLift (Except Error) Step where
  monadLift outcome := check ⟨[], outcome⟩

@[simp] theorem run_check (outcome : Logged Error α) (c : Compiler) :
    (check outcome).run c = ⟨c, outcome⟩ := rfl

/-- Fails unless the condition holds. -/
def require (condition : Bool) (e : Error) : Step Unit := check (Logged.require condition e)

/-- Takes a note. -/
def note (n : Note) : Step Unit := check (Logged.note n)

/-- The compiler as it is now. -/
def current : Step Compiler := fun c => ⟨c, pure c⟩

@[simp] theorem run_current (c : Compiler) : current.run c = ⟨c, pure c⟩ := rfl

/-- Changes the compiler. -/
def change (f : Compiler → Compiler) : Step Unit := fun c => ⟨f c, pure ()⟩

@[simp] theorem run_change (f : Compiler → Compiler) (c : Compiler) :
    (change f).run c = ⟨f c, pure ()⟩ := rfl

end Step

end MeshLayout
