/-
MeshLayout/Main.lean

The inspector as a program: reads the files named on the command line,
prints the reports on standard output and the log on standard error.  The
log shows what matters to a user, one note a line; the filter and the
format that a command line may ask for are accepted and change nothing.
-/
import MeshLayout.Inspection

namespace MeshLayout

/-- The contents of a file, if it can be read. -/
def contentsOf (name : String) : IO (Option ByteArray) := do
  try
    return some (← IO.FS.readBinFile name)
  catch _ =>
    return none

/-- The names and contents of the files that a command line asks for. -/
def gather (arguments : List String) : IO (List (String × Option ByteArray)) := do
  match Arguments.read arguments with
  | .ok accepted => accepted.files.mapM fun name => return (name, ← contentsOf name)
  | .error _ => return []

/-- What is printed when a command line is not accepted. -/
def usage : String :=
  "usage: [--lenient] [--unique-slots] [--log-filter FILTER] [--log-format FORMAT] FILE..."

/-- Runs the inspector with the given arguments; gives the exit code. -/
def program (arguments : List String) : IO UInt32 := do
  let gathered ← gather arguments
  let files : Files := fun name => do
    let file ← gathered.find? fun file => file.1 = name
    file.2
  let outcome := run files arguments
  IO.print outcome.text
  if let .error _ := Arguments.read arguments then
    IO.eprintln usage
  for line in Note.lines .info outcome.notes do
    IO.eprintln line
  return UInt32.ofNat outcome.exitCode

end MeshLayout

/-- Runs the inspector. -/
def main (arguments : List String) : IO UInt32 := MeshLayout.program arguments
