/-
MeshLayout/Report/Basic.lean

The report on a mesh: a table of its attributes, with the bounds of those
that hold floating-point numbers, the sizes of its buffers, and its
commands.
-/
import MeshLayout.Report.Bounds
import MeshLayout.Binary32.Shortest
import MeshLayout.Mesh

namespace MeshLayout

namespace Report

/-- A number in a column of the given width, at its right end. -/
def column (width number : Nat) : String :=
  let digits := toString number
  String.ofList (List.replicate (width - digits.length) ' ') ++ digits

/-- The head of the attribute table. -/
def tableHead : String := "slot  type         comps   offset    bytes vertices"

/-- The row of an attribute.  The type stands as it is, however long or short. -/
def tableRow (a : Attribute) : String :=
  column 4 a.slot.toNat ++ "  " ++ a.type.name ++ " " ++ column 5 a.components.toNat ++ " " ++
    column 8 a.offset ++ " " ++ column 8 a.length ++ " " ++ column 8 a.vertexCount

/-- The bounds of one component. -/
def interval (lower upper : Binary32) : String :=
  "[" ++ Binary32.text lower ++ ", " ++ Binary32.text upper ++ "]"

/-- The bounds of an attribute, if it holds floating-point numbers and a whole vertex. -/
def bounds? (mesh : Mesh) (a : Attribute) : Option Bounds := do
  if a.type = .float then
    let values ← mesh.vertexData.values? .f32 a.offset a.valueCount
    Bounds.ofValues values a.components.toNat
  else none

/-- The line of bounds. -/
def boundsLine (bounds : Bounds) : String :=
  "      bounds: " ++ " ".intercalate (bounds.lower.zipWith interval bounds.upper)

/-- The lines on an attribute. -/
def attributeLines (mesh : Mesh) (a : Attribute) : List String :=
  tableRow a :: ((bounds? mesh a).map boundsLine).toList

/-- The sizes of the buffers. -/
def sizesLine (mesh : Mesh) : String :=
  s!"vertex data: {mesh.vertexData.length} bytes, index data: {mesh.indexData.length} bytes"

/-- How many commands there are of each sort. -/
def countsLine (mesh : Mesh) : String :=
  let indexed := mesh.commands.countP Command.isIndexed
  let direct := mesh.commands.length - indexed
  s!"{mesh.commands.length} commands ({indexed} indexed, {direct} direct)"

/-- The lines on commands, counted from `number` on. -/
def commandLines (number : Nat) : List Command → List String
  | [] => []
  | command :: rest => s!"command {number}: {command.listing}" :: commandLines (number + 1) rest

/-- The lines of the report on a mesh. -/
def lines (mesh : Mesh) : List String :=
  tableHead :: mesh.attributes.flatMap (attributeLines mesh) ++ [sizesLine mesh, countsLine mesh] ++
    commandLines 0 mesh.commands

end Report

end MeshLayout
