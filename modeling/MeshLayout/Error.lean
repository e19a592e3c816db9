/-
MeshLayout/Error.lean

What can be wrong with a mesh description.

Three of the faults are matters of policy: a compiler may be told to pass
over them (`Violation`), and then takes a note instead of failing.  All
others end every compilation.  An error holds what is wrong; `message` puts
it into words.
-/
import MeshLayout.Scalar
import MeshLayout.Text.Quoted

namespace MeshLayout

/-- The elements of a mesh description. -/
inductive Element where
  | mesh | attribute | indices | arrays
deriving DecidableEq

/-- The name of the element's tags. -/
def Element.name : Element → String
  | mesh => "mesh"
  | .attribute => "attribute"
  | indices => "indices"
  | arrays => "arrays"

/-- What may stand where the root element was expected. -/
inductive Found where
  | opening (name : String)
  | text
  | closing (name : String)
deriving DecidableEq

/-- How messages describe what was found. -/
def Found.message : Found → String
  | opening name => "<" ++ name ++ ">"
  | text => "text"
  | closing name => "</" ++ name ++ ">"

/-! ### Violations -/

/-- The checks that can be switched off. -/
inductive Check where
  /-- no two attribute blocks share a slot -/
  | uniqueSlots
  /-- every attribute block ends with a whole vertex -/
  | wholeVertices
  /-- every attribute block has as many vertices as the first -/
  | uniformVertexCount
deriving DecidableEq

/-- A block that fails a check. -/
inductive Violation where
  | duplicateSlot (slot : UInt32)
  | partialVertex (slot components : UInt32) (values : Nat)
  | vertexCount (slot : UInt32) (expected found : Nat)
deriving DecidableEq

namespace Violation

/-- The check that fails. -/
def check : Violation → Check
  | duplicateSlot _ => .uniqueSlots
  | partialVertex .. => .wholeVertices
  | vertexCount .. => .uniformVertexCount

/-- The violation as an error message. -/
def message : Violation → String
  | duplicateSlot slot => s!"attribute slot {slot} is declared more than once"
  | partialVertex slot components values =>
    s!"attribute {slot} has {values} values, which is not a multiple of its {components} components"
  | vertexCount slot expected found =>
    s!"attribute {slot} describes {found} vertices; previous attributes describe {expected}"

end Violation

/-! ### Errors -/

/-- What ends a compilation. -/
inductive Error where
  /-- a tag that mesh descriptions do not have -/
  | invalidTag (name : String)
  | missingRoot (found : Found)
  | unexpectedTag (inside : Element) (found : String)
  | mismatchedClose (expected : Element) (found : String)
  | unexpectedText (inside : Element)
  | unexpectedEnd
  | trailingContent
  | missingAttribute (tag : Element) (key : String)
  | emptyBlock (tag : Element)
  | zeroComponents (slot : UInt32)
  | noAttributes
  | noCommands
  | violation (violation : Violation)
  | unsupportedType (name : String)
  | unsupportedPrimitive (name : String)
  | malformedNumber (token : String) (kind : Scalar)
deriving DecidableEq

/-- The error in words. -/
def Error.message : Error → String
  | invalidTag name => "invalid tag: " ++ quoted name
  | missingRoot found => "expected <mesh> as the root element, found " ++ found.message
  | unexpectedTag inside found => "unexpected <" ++ found ++ "> inside <" ++ inside.name ++ ">"
  | mismatchedClose expected found =>
    "unexpected closing tag </" ++ found ++ ">, expected </" ++ expected.name ++ ">"
  | unexpectedText inside => "unexpected text content inside <" ++ inside.name ++ ">"
  | unexpectedEnd => "description ended before </mesh>"
  | trailingContent => "content after </mesh>"
  | missingAttribute tag key => "<" ++ tag.name ++ "> is missing its " ++ quoted key ++ " attribute"
  | emptyBlock tag => "<" ++ tag.name ++ "> has no values"
  | zeroComponents slot => s!"attribute {slot} declares zero components per vertex"
  | noAttributes => "there must be at least 1 set of attributes"
  | noCommands => "there must be at least 1 render command"
  | violation v => v.message
  | unsupportedType name => "unsupported type: " ++ quoted name
  | unsupportedPrimitive name => "unsupported primitive: " ++ quoted name
  | malformedNumber token kind => "malformed " ++ kind.name ++ " value: " ++ quoted token

end MeshLayout
