/-
MeshLayout/Binary32/Shortest.lean

Writing binary32 numbers with the fewest decimal digits that read back.

The search runs through the decimal grids, from multiples of 10^38 down to
multiples of 10^-149, and takes the first that has a point which reads back
as the number.  If a grid has such a point at all then one of the number's
two neighbours on it is one, so only these are tried; of two the nearer is
taken, and of two equally near the upper.  Every finite number is itself a
point of the last grid, so the search always ends with one.
-/
import MeshLayout.Binary32.Basic

namespace MeshLayout

/-- A decimal number: the digits, as a natural number, times a power of ten. -/
structure Decimal where
  digits : Nat
  exponent : Int
deriving DecidableEq

/-- Positional notation: zeros up to the point, or a point among the digits with at least
one digit before it. -/
def Decimal.toChars (d : Decimal) : List Char :=
  let digits := Nat.toDigits 10 d.digits
  if 0 ≤ d.exponent then digits ++ List.replicate d.exponent.toNat '0'
  else
    let places := (-d.exponent).toNat
    let padded := List.replicate (places + 1 - digits.length) '0' ++ digits
    padded.take (padded.length - places) ++ ['.'] ++ padded.drop (padded.length - places)

namespace Binary32

/-- Does the decimal read back as the magnitude? -/
def readsBack (magnitude : Nat) (d : Decimal) : Bool :=
  nearestDecimal d.digits d.exponent = magnitude

/-- The point to take on the grid of the given power of ten, if one reads back. -/
def onGrid? (magnitude : Nat) (exponent : Int) : Option Decimal :=
  let numerator := units magnitude * Nat.pow 10 (-exponent).toNat
  let denominator := Nat.pow 2 149 * Nat.pow 10 exponent.toNat
  let lower : Decimal := ⟨numerator / denominator, exponent⟩
  let upper : Decimal := ⟨numerator / denominator + 1, exponent⟩
  match readsBack magnitude lower, readsBack magnitude upper with
  | true, true => some (if 2 * (numerator % denominator) < denominator then lower else upper)
  | true, false => some lower
  | false, true => some upper
  | false, false => none

/-- The exponents of the grids, coarsest first. -/
def grids : List Int := (List.range 188).map fun (i : Nat) => 38 - (i : Int)

/-- The exact decimal value of a finite magnitude. -/
def exactDecimal (magnitude : Nat) : Decimal := ⟨units magnitude * Nat.pow 5 149, -149⟩

/-- The shortest decimal that reads back as the magnitude. -/
def shortest (magnitude : Nat) : Decimal :=
  if magnitude = 0 then ⟨0, 0⟩
  else (grids.findSome? (onGrid? magnitude)).getD (exactDecimal magnitude)

/-- The characters of a number: never an exponent, no point behind a whole number, and a
sign also in front of a negative zero. -/
def toChars (x : Binary32) : List Char :=
  if x.isNaN then ['N', 'a', 'N']
  else
    let body := if x.isFinite then (shortest x.magnitude).toChars else ['i', 'n', 'f']
    if x.isNegative then '-' :: body else body

/-- The text of a number. -/
def text (x : Binary32) : String := String.ofList x.toChars

/-- One tenth is written with one digit. -/
example : text 0x3dcccccd#32 = "0.1" := by decide +kernel

end Binary32

end MeshLayout
