/-
MeshLayout/Text/CodeRange.lean

Sets of characters given by closed ranges of code points.  The tables of
character properties in this folder are values of this type.
-/

namespace MeshLayout

/-- A set of code points, as closed ranges in ascending order. -/
abbrev CodeRanges := List (Nat × Nat)

namespace CodeRanges

/-- Does some range hold the character? -/
def contains (ranges : CodeRanges) (c : Char) : Bool :=
  ranges.any fun range => range.1 ≤ c.toNat && c.toNat ≤ range.2

/-- The ranges are not empty, ascend and leave a gap between neighbours. -/
def wellFormed : CodeRanges → Bool
  | [] => true
  | [range] => range.1 ≤ range.2
  | range :: next :: rest =>
    range.1 ≤ range.2 && range.2 + 1 < next.1 && wellFormed (next :: rest)

/-- The number of code points in well-formed ranges. -/
def count (ranges : CodeRanges) : Nat :=
  (ranges.map fun range => range.2 + 1 - range.1).foldr (· + ·) 0

end CodeRanges

end MeshLayout
