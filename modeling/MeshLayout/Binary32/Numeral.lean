/-
MeshLayout/Binary32/Numeral.lean

Reading decimal numerals as binary32 numbers.

A numeral has an optional sign and then either one of the words `inf`,
`infinity` and `nan`, in letters of any case, or digits with at most one
point among or around them and at least one digit, which an exponent may
follow: `e` or `E`, an optional sign, at least one digit.  The number read
is the one nearest to the exact decimal value.
-/
import MeshLayout.Binary32.Basic

namespace MeshLayout

namespace Binary32

/-- The letters in lower case; only the letters `A` to `Z` have another one. -/
def lowerCase (chars : List Char) : List Char := chars.map Char.toLower

/-- The magnitude that a word without sign stands for. -/
def specialMagnitude? (chars : List Char) : Option Nat :=
  let word := lowerCase chars
  if word = "inf".toList || word = "infinity".toList then some infinity
  else if word = "nan".toList then some quietNaN
  else none

/-- The number with another decimal digit behind it. -/
def withDigit (value : Nat) (c : Char) : Nat := 10 * value + (c.toNat - '0'.toNat)

/-- The value of the digits of an exponent.  From 65536 on further digits are passed over:
such an exponent is beyond every finite number already. -/
def exponentDigits (digits : List Char) : Nat :=
  digits.foldl (fun value c => if value < 0x10000 then withDigit value c else value) 0

/-- An exponent's digits after its sign; there must be one, and nothing else. -/
def exponentValue? (chars : List Char) : Option Int :=
  if chars.isEmpty || !chars.all Char.isDigit then none else some (exponentDigits chars)

/-- An exponent with its sign. -/
def signedExponent? : List Char → Option Int
  | '-' :: rest => (exponentValue? rest).map fun e => -e
  | '+' :: rest => exponentValue? rest
  | rest => exponentValue? rest

/-- What may follow the digits: nothing, or an exponent behind its letter. -/
def exponent? : List Char → Option Int
  | [] => some 0
  | 'e' :: rest => signedExponent? rest
  | 'E' :: rest => signedExponent? rest
  | _ => none

/-- The digits before the point, those after it, and the rest. -/
def splitPoint (chars : List Char) : List Char × List Char × List Char :=
  let whole := chars.takeWhile Char.isDigit
  match chars.dropWhile Char.isDigit with
  | '.' :: rest => (whole, rest.takeWhile Char.isDigit, rest.dropWhile Char.isDigit)
  | rest => (whole, [], rest)

/-- The magnitude of a numeral without sign that is written in digits. -/
def digitsMagnitude? (chars : List Char) : Option Nat :=
  let (whole, fraction, rest) := splitPoint chars
  let digits := whole ++ fraction
  if digits.isEmpty then none
  else (exponent? rest).map fun e =>
    nearestDecimal (Nat.ofDigitChars 10 digits 0) (e - fraction.length)

/-- The magnitude of a numeral without sign. -/
def magnitude? (chars : List Char) : Option Nat :=
  (digitsMagnitude? chars).or (specialMagnitude? chars)

/-- Reads a numeral. -/
def ofNumeral? : List Char → Option Binary32
  | '-' :: rest => (magnitude? rest).map (ofParts true)
  | '+' :: rest => (magnitude? rest).map (ofParts false)
  | rest => (magnitude? rest).map (ofParts false)

end Binary32

end MeshLayout
