/-
MeshLayout/Inspection.lean

Inspecting mesh descriptions in files.

A file is read as a document, compiled, and reported on; then its mesh is
uploaded to a narrating device and drawn there once.  A file that cannot be
read, is no document or does not compile contributes no line to the output,
and the files after it are inspected all the same.
-/
import MeshLayout.Arguments
import MeshLayout.Compiler.Basic
import MeshLayout.Device.Narrator
import MeshLayout.Markup.Document
import MeshLayout.Report.Basic

namespace MeshLayout

/-- Why an inspection failed. -/
inductive InspectionError where
  /-- there is no file of that name -/
  | missingFile
  /-- the file is no text -/
  | invalidText
  | markup (error : Markup.Error)
  | description (error : Error)
  | replay (error : ReplayError Empty)
deriving DecidableEq

/-- The error in words. -/
def InspectionError.message : InspectionError → String
  | missingFile => "failed to read file"
  | invalidText => "failed to read file"
  | markup e => e.message
  | description e => e.message
  | replay e => e.message

/-- The mesh that a document describes. -/
def readMesh (options : Options) (document : String) : Logged InspectionError Mesh := do
  let tokens ← (Markup.tokens document).mapError InspectionError.markup
  Logged.note (.readDocument tokens.length)
  Logged.note (.compiling options)
  (compileTokens options tokens).mapError .description

/-- Uploads a mesh to a narrating device and draws it once. -/
def replay (mesh : Mesh) : Logged InspectionError Unit :=
  match mesh.upload Narrator.device Narrator.start with
  | (.error e, n) => ⟨n.notes, .error (.replay e)⟩
  | (.ok uploaded, n) =>
    match uploaded.render Narrator.device n with
    | (.error e, n) => ⟨n.notes, .error (.replay e)⟩
    | (.ok (), n) => ⟨n.notes ++ [.replayed n.draws], .ok ()⟩

/-- What comes of inspecting a file: the report, which is printed before the replay, and the
outcome of the whole. -/
structure Inspection where
  report : Option (List String)
  outcome : Logged InspectionError Unit

/-- Inspects a document. -/
def inspectDocument (options : Options) (document : String) : Inspection :=
  let reading := readMesh options document
  match reading.result with
  | .error e => ⟨none, ⟨reading.notes, .error e⟩⟩
  | .ok mesh =>
    let replaying := replay mesh
    ⟨some (Report.lines mesh), ⟨reading.notes ++ replaying.notes, replaying.result⟩⟩

/-- Inspects the contents of a file. -/
def inspectBytes (options : Options) (contents : ByteArray) : Inspection :=
  match String.fromUTF8? contents with
  | some document => inspectDocument options document
  | none => ⟨none, Logged.fail .invalidText⟩

/-- Inspects a file, if there is one. -/
def inspectFile (options : Options) : Option ByteArray → Inspection
  | some contents => inspectBytes options contents
  | none => ⟨none, Logged.fail .missingFile⟩

/-! ### The program -/

/-- Where the contents of files come from. -/
abbrev Files := String → Option ByteArray

/-- What a run of the program leaves behind. -/
structure Run where
  /-- lines of output -/
  output : List String
  notes : List Note
  exitCode : Nat
deriving DecidableEq

/-- The output for a file: its name and the report, if there is a report. -/
def Inspection.output (inspection : Inspection) (name : String) : List String :=
  match inspection.report with
  | some report => name :: report
  | none => []

/-- Has the inspection failed? -/
def Inspection.isFailure (inspection : Inspection) : Bool :=
  match inspection.outcome.result with
  | .ok () => false
  | .error _ => true

/-- The notes on a file. -/
def Inspection.allNotes (inspection : Inspection) (name : String) : List Note :=
  match inspection.outcome.result with
  | .ok () => inspection.outcome.notes
  | .error e => inspection.outcome.notes ++ [.fileFailed name e.message]

/-- Inspects every file of an accepted command line. -/
def inspectAll (files : Files) (arguments : Arguments) : Run :=
  let inspections := arguments.files.map fun name =>
    (name, inspectFile arguments.options (files name))
  let failed := inspections.countP fun (_, inspection) => inspection.isFailure
  let summary := if failed = 0 then [] else [Note.someFailed failed arguments.files.length]
  { output := inspections.flatMap fun (name, inspection) => inspection.output name
    notes := (inspections.flatMap fun (name, inspection) => inspection.allNotes name) ++ summary
    exitCode := if failed = 0 then 0 else 1 }

/-- Runs the program.  A command line that is not accepted leaves no output. -/
def run (files : Files) (arguments : List String) : Run :=
  match Arguments.read arguments with
  | .ok arguments => inspectAll files arguments
  | .error .help => ⟨[], [], 0⟩
  | .error .version => ⟨[], [], 0⟩
  | .error _ => ⟨[], [], 2⟩

/-- The output as one text. -/
def Run.text (run : Run) : String := String.join (run.output.map fun line => line ++ "\n")

end MeshLayout
