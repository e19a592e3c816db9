/-
MeshLayout/Arguments.lean

The command line of the inspector.

Two flags, two settings with a value, and the files to inspect, in any
order.  A value is attached to its setting or is the next argument that
does not look like a flag; what is not taken as a value is a file.  An
argument that is complete only once the next one has been seen is kept
`pending`; its value is checked when it is settled.  After `--` every
argument is a file.
-/
import MeshLayout.Compiler.Options

namespace MeshLayout

/-- How log lines are laid out. -/
inductive LogFormat where
  | compact | full | pretty | json
deriving DecidableEq

namespace LogFormat

/-- Every format. -/
def all : List LogFormat := [compact, full, pretty, json]

/-- The name on the command line. -/
def name : LogFormat → String
  | compact => "compact"
  | full => "full"
  | pretty => "pretty"
  | json => "json"

/-- The format with the given name. -/
def ofName? (name : String) : Option LogFormat := all.find? fun format => format.name = name

end LogFormat

/-- Why a command line is not accepted, or asks for something else than an inspection. -/
inductive ArgumentError where
  | unknownArgument
  /-- a flag has a value attached -/
  | tooManyValues
  /-- a value is missing or not allowed -/
  | invalidValue
  /-- a flag or setting is given twice -/
  | conflict
  /-- there is no file -/
  | missingFiles
  | help
  | version
deriving DecidableEq

/-- The policy that the flags ask for. -/
def flagOptions (lenient uniqueSlots : Bool) : Options :=
  { (if lenient then Options.lenient else Options.standard) with uniqueSlots := uniqueSlots }

/-- An accepted command line. -/
structure Arguments where
  lenient : Bool
  uniqueSlots : Bool
  logFilter : String
  logFormat : LogFormat
  files : List String
deriving DecidableEq

/-- The policy that a command line asks for. -/
def Arguments.options (arguments : Arguments) : Options :=
  flagOptions arguments.lenient arguments.uniqueSlots

/-! ### Reading -/

/-- The flags. -/
inductive Flag where
  | lenient | uniqueSlots | help | version
deriving DecidableEq

/-- The settings that take a value. -/
inductive Setting where
  | logFilter | logFormat
deriving DecidableEq

/-- The flag with the given long name. -/
def Flag.ofName? (name : String) : Option Flag :=
  if name = "lenient" then some lenient
  else if name = "unique-slots" then some uniqueSlots
  else if name = "help" then some help
  else if name = "version" then some version
  else none

/-- The setting with the given long name. -/
def Setting.ofName? (name : String) : Option Setting :=
  if name = "log-filter" then some logFilter
  else if name = "log-format" then some logFormat
  else none

/-- The argument that may not be complete yet. -/
inductive Pending where
  | nothing
  | setting (setting : Setting) (value : Option String)
  | files (names : List String)
deriving DecidableEq

/-- A command line as far as it has been read. -/
structure ArgumentReader where
  lenient : Bool
  uniqueSlots : Bool
  logFilter : Option String
  logFormat : Option LogFormat
  files : List String
  pending : Pending
deriving DecidableEq

namespace ArgumentReader

/-- Nothing has been read. -/
def start : ArgumentReader := ⟨false, false, none, none, [], .nothing⟩

/-- Gives a setting its value. -/
def assign (r : ArgumentReader) (setting : Setting) (value : String) :
    Except ArgumentError ArgumentReader :=
  match setting with
  | .logFilter =>
    if r.logFilter.isSome then .error .conflict else .ok { r with logFilter := some value }
  | .logFormat =>
    if r.logFormat.isSome then .error .conflict
    else
      match LogFormat.ofName? value with
      | some format => .ok { r with logFormat := some format }
      | none => .error .invalidValue

/-- Settles the pending argument. -/
def settle (r : ArgumentReader) : Except ArgumentError ArgumentReader :=
  let settled := { r with pending := .nothing }
  match r.pending with
  | .nothing => .ok settled
  | .setting _ none => .error .invalidValue
  | .setting setting (some value) => settled.assign setting value
  | .files names =>
    if names.contains "" then .error .invalidValue
    else .ok { settled with files := r.files ++ names }

/-- Reads a flag. -/
def raise (r : ArgumentReader) (flag : Flag) : Except ArgumentError ArgumentReader := do
  let r ← r.settle
  match flag with
  | .lenient => if r.lenient then .error .conflict else .ok { r with lenient := true }
  | .uniqueSlots =>
    if r.uniqueSlots then .error .conflict else .ok { r with uniqueSlots := true }
  | .help => .error .help
  | .version => .error .version

/-- Reads a setting, with its value if that is attached. -/
def set (r : ArgumentReader) (setting : Setting) (value : Option String) :
    Except ArgumentError ArgumentReader := do
  let r ← r.settle
  match value with
  | some value => r.assign setting value
  | none => .ok { r with pending := .setting setting none }

/-- Reads what stands behind two dashes. -/
def readLong (r : ArgumentReader) (chars : List Char) : Except ArgumentError ArgumentReader :=
  let name := String.ofList (chars.takeWhile (· ≠ '='))
  let value := match chars.dropWhile (· ≠ '=') with
    | [] => none
    | _ :: value => some (String.ofList value)
  match Flag.ofName? name, Setting.ofName? name with
  | some flag, _ => if value.isSome then .error .tooManyValues else r.raise flag
  | none, some setting => r.set setting value
  | none, none => .error .unknownArgument

/-- Reads what stands behind one dash. -/
def readShort (r : ArgumentReader) : List Char → Except ArgumentError ArgumentReader
  | 'l' :: [] => r.set .logFilter none
  | 'l' :: '=' :: value => r.set .logFilter (some (String.ofList value))
  | 'l' :: value => r.set .logFilter (some (String.ofList value))
  | 'h' :: _ => r.raise .help
  | 'V' :: _ => r.raise .version
  | _ => .error .unknownArgument

/-- Reads a file. -/
def readFile (r : ArgumentReader) (name : String) : Except ArgumentError ArgumentReader :=
  match r.pending with
  | .files names => .ok { r with pending := .files (names ++ [name]) }
  | _ => do
    let r ← r.settle
    return { r with pending := .files [name] }

/-- Reads an argument that does not look like a flag. -/
def readPlain (r : ArgumentReader) (argument : String) : Except ArgumentError ArgumentReader :=
  match r.pending with
  | .setting setting none => .ok { r with pending := .setting setting (some argument) }
  | _ => r.readFile argument

/-- Reads arguments.  `escaped` tells whether `--` has been seen. -/
def readAll (r : ArgumentReader) (escaped : Bool) :
    List String → Except ArgumentError ArgumentReader
  | [] => r.settle
  | argument :: rest =>
    if escaped then do
      let r ← r.readFile argument
      r.readAll true rest
    else
      match argument.toList with
      | ['-', '-'] => r.readAll true rest
      | '-' :: '-' :: long => do
        let r ← r.readLong long
        r.readAll false rest
      | '-' :: c :: short => do
        let r ← r.readShort (c :: short)
        r.readAll false rest
      | _ => do
        let r ← r.readPlain argument
        r.readAll false rest

end ArgumentReader

/-- What the log shows if the command line does not say. -/
def defaultLogFilter : String := "warn,meshpack=info,meshinfo=info"

/-- Reads a command line. -/
def Arguments.read (arguments : List String) : Except ArgumentError Arguments := do
  let r ← ArgumentReader.start.readAll false arguments
  if r.files.isEmpty then .error .missingFiles
  else
    return ⟨r.lenient, r.uniqueSlots, r.logFilter.getD defaultLogFilter,
      r.logFormat.getD .pretty, r.files⟩

end MeshLayout
