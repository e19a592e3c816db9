/-
MeshLayout/Note.lean

Notes: what the library and the inspector report about their progress.

A note is a value that says what happened.  Its level tells how much it
matters, and `line` is its text in a log: the level, a fixed phrase, and
the values it is about.
-/
import MeshLayout.Mesh
import MeshLayout.Compiler.Options

namespace MeshLayout

/-- How much a note matters. -/
inductive Level where
  | trace | debug | info | warn | error
deriving DecidableEq

namespace Level

/-- The name in log lines. -/
def name : Level → String
  | trace => "TRACE"
  | debug => "DEBUG"
  | info => "INFO"
  | warn => "WARN"
  | error => "ERROR"

/-- A larger number for a level that matters more. -/
def rank : Level → Nat
  | trace => 0
  | debug => 1
  | info => 2
  | warn => 3
  | error => 4

end Level

/-- A report of progress. -/
inductive Note where
  /-- a violation of a check that is not enforced -/
  | passedOver (violation : Violation)
  | addedAttribute (layout : Attribute)
  | addedCommand (command : Command)
  | compiled (attributes commands vertexBytes indexBytes : Nat)
  | uploaded (attributes : Nat)
  | issuing (index : Nat) (command : Command)
  | readDocument (tokens : Nat)
  | compiling (options : Options)
  | createdBuffer (id : Nat) (target : Target) (bytes : Nat)
  | boundAttribute (vertices : Nat) (layout : Attribute)
  | boundIndices (indices : Option Nat)
  | drewElements (indices : Nat) (mode : Primitive) (offset count : Nat) (type : IndexType)
  | drewArrays (mode : Primitive) (first count : UInt32)
  | replayed (draws : Nat)
  | fileFailed (path message : String)
  | someFailed (failed total : Nat)
deriving DecidableEq

namespace Note

/-- How much the note matters. -/
def level : Note → Level
  | issuing .. | readDocument .. => .trace
  | addedAttribute .. | addedCommand .. | compiled .. | uploaded .. | compiling .. => .debug
  | createdBuffer .. | boundAttribute .. | boundIndices .. | drewElements .. | drewArrays ..
  | replayed .. => .info
  | passedOver .. => .warn
  | fileFailed .. | someFailed .. => .error

/-- A buffer of the inspector's device. -/
def bufferName (id : Nat) : String := s!"BufferId({id})"

/-- What the note says, without its level. -/
def phrase : Note → String
  | passedOver (.duplicateSlot slot) => s!"attribute slot declared more than once slot={slot}"
  | passedOver (.partialVertex slot components values) =>
    s!"attribute ends with a partial vertex slot={slot} components={components} values={values}"
  | passedOver (.vertexCount slot expected found) =>
    "attribute vertex count differs from previous attributes " ++
      s!"slot={slot} expected={expected} found={found}"
  | addedAttribute a =>
    s!"added attribute slot={a.slot} ty={a.type.name} components={a.components} " ++
      s!"offset={a.offset} len={a.length}"
  | addedCommand (.indexed mode offset count type) =>
    s!"added indexed render command mode={mode.name} index_type={type.name} " ++
      s!"offset={offset} count={count}"
  | addedCommand (.direct mode first count) =>
    s!"added direct render command mode={mode.name} first={first} count={count}"
  | compiled attributes commands vertexBytes indexBytes =>
    s!"compiled mesh attributes={attributes} commands={commands} " ++
      s!"vertex_bytes={vertexBytes} index_bytes={indexBytes}"
  | uploaded attributes => s!"uploaded mesh attributes={attributes}"
  | issuing index command => s!"issuing render command index={index} command={command.listing}"
  | readDocument tokens => s!"read XML document tokens={tokens}"
  | compiling options => s!"compiling options={options.listing}"
  | createdBuffer id target bytes =>
    s!"create buffer id={bufferName id} target={target.label} gl_target={target.code} " ++
      s!"bytes={bytes}"
  | boundAttribute vertices a =>
    s!"bind attribute vertices={bufferName vertices} slot={a.slot} components={a.components} " ++
      s!"gl_type={a.type.scalar.code} normalized={a.type.isNormalized} " ++
      s!"stride={a.stride} offset={a.offset}"
  | boundIndices none => "bind index buffer indices=None"
  | boundIndices (some id) => s!"bind index buffer indices=Some({bufferName id})"
  | drewElements indices mode offset count type =>
    s!"draw elements indices={bufferName indices} mode={mode.code} count={count} " ++
      s!"index_type={type.code} offset={offset}"
  | drewArrays mode first count =>
    s!"draw arrays mode={mode.code} first={first} count={count}"
  | replayed draws => s!"replayed render commands draws={draws}"
  | fileFailed path message => s!"couldn't inspect mesh path={path} error={message}"
  | someFailed failed total => s!"some meshes failed failed={failed} total={total}"

/-- The note as a line of a log. -/
def line (note : Note) : String := note.level.name ++ " " ++ note.phrase

/-- The lines of the notes that matter at least as much as the given level. -/
def lines (least : Level) (notes : List Note) : List String :=
  (notes.filter fun note => least.rank ≤ note.level.rank).map line

end Note

end MeshLayout
