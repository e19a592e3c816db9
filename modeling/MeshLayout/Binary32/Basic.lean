/-
MeshLayout/Binary32/Basic.lean

Binary floating-point numbers of 32 bits, as the bit patterns they are.

The top bit is the sign.  The other 31 bits, the magnitude, order the
numbers by absolute value: 0 is zero, `infinity` is the infinity, anything
above it is no number.  Below `infinity` a magnitude `m` stands for the
exact value `units m` times 2^-149, the least positive number; `nearest`
goes the other way and rounds a quotient of natural numbers to the nearest
magnitude, a tie to the even one.
-/

namespace MeshLayout

/-- A binary floating-point number of 32 bits. -/
abbrev Binary32 := BitVec 32

namespace Binary32

/-! ### Parts of a pattern -/

/-- The value of the sign bit. -/
def signBit : Nat := 0x80000000

/-- The value of the bit above the fraction. -/
def leadingOne : Nat := 0x800000

/-- The magnitude of the infinity. -/
def infinity : Nat := 0x7f800000

/-- The magnitude of the pattern that reading `nan` gives. -/
def quietNaN : Nat := 0x7fc00000

/-- The pattern with the given sign and magnitude. -/
def ofParts (negative : Bool) (magnitude : Nat) : Binary32 :=
  BitVec.ofNat 32 (if negative then signBit + magnitude else magnitude)

/-- Is the sign bit set? -/
def isNegative (x : Binary32) : Bool := signBit ≤ x.toNat

/-- The pattern without its sign bit. -/
def magnitude (x : Binary32) : Nat := x.toNat % signBit

/-- Is the pattern no number? -/
def isNaN (x : Binary32) : Bool := infinity < x.magnitude

/-- Is the pattern a number other than the infinities? -/
def isFinite (x : Binary32) : Bool := x.magnitude < infinity

/-! ### Order -/

/-- Places the numbers on a line: both zeros at 0, a larger number further up. -/
def place (x : Binary32) : Int :=
  if x.isNegative then -(x.magnitude : Int) else x.magnitude

/-- The order of numbers.  A pattern that is no number is not comparable, not even with
itself. -/
def le (x y : Binary32) : Bool := !x.isNaN && !y.isNaN && x.place ≤ y.place

/-! ### Exact values and rounding -/

/-- The value of a finite magnitude, counted in units of 2^-149.  The last 23 bits are the
fraction.  In the lowest binade it counts units; in any other it is completed by a leading
one, and each binade doubles the unit of the one before. -/
def units (magnitude : Nat) : Nat :=
  if magnitude < leadingOne then magnitude
  else (leadingOne + magnitude % leadingOne) * Nat.pow 2 (magnitude / leadingOne - 1)

/-- The quotient rounded to the nearest natural number, a tie to the even one. -/
def roundQuotient (numerator denominator : Nat) : Nat :=
  let quotient := numerator / denominator
  let twice := 2 * (numerator % denominator)
  if twice < denominator then quotient
  else if denominator < twice then quotient + 1
  else quotient + quotient % 2

/-- The magnitude nearest to the quotient, a tie to the even one.  The binade is that of the
quotient's whole units; rounding up past its end lands on the first magnitude of the next,
and past the last binade on the infinity. -/
def nearest (numerator denominator : Nat) : Nat :=
  let scaled := numerator * Nat.pow 2 149
  let binade := Nat.log2 (scaled / denominator) - 23
  let rounded := binade * leadingOne + roundQuotient scaled (denominator * Nat.pow 2 binade)
  if rounded < infinity then rounded else infinity

/-- The magnitude nearest to `digits` times the given power of ten. -/
def nearestDecimal (digits : Nat) (exponent : Int) : Nat :=
  if 0 ≤ exponent then nearest (digits * Nat.pow 10 exponent.toNat) 1
  else nearest digits (Nat.pow 10 (-exponent).toNat)

end Binary32

end MeshLayout
