/-
MeshLayout/Scalar/Reading.lean

Reading scalar values from text.

An integer is one or more decimal digits, which a sign may precede if the
type is signed; it has to lie in the range of the type.  A floating-point
number is a numeral.  A block of values is a text of such tokens between
blanks; it is read as a whole or not at all.  `readText` gives the values,
`encodeInto` writes their bytes behind others, token by token, and takes
them back if a later token fails.
-/
import MeshLayout.Binary32.Numeral
import MeshLayout.Text.Blank
import MeshLayout.Error

namespace MeshLayout

/-! ### Integers -/

/-- The natural number written by one or more decimal digits. -/
def natural? (chars : List Char) : Option Nat :=
  if chars.isEmpty || !chars.all Char.isDigit then none
  else some (Nat.ofDigitChars 10 chars 0)

/-- The integer written by digits, behind a sign if signs are allowed. -/
def integer? (signed : Bool) (chars : List Char) : Option Int :=
  match signed, chars with
  | true, '-' :: digits => (natural? digits).map fun n => -(n : Int)
  | true, '+' :: digits => (natural? digits).map fun n => (n : Int)
  | _, digits => (natural? digits).map fun n => (n : Int)

namespace Scalar

/-- The word of an integer type for a written integer in its range. -/
def integerWord? (k : Scalar) (chars : List Char) : Option k.Word := do
  let value ← integer? k.isSigned chars
  if k.holds value then some (BitVec.ofInt _ value) else none

/-- The word that a token stands for. -/
def read? : (k : Scalar) → List Char → Option k.Word
  | f32, chars => Binary32.ofNumeral? chars
  | i32, chars => integerWord? i32 chars
  | u32, chars => integerWord? u32 chars
  | i16, chars => integerWord? i16 chars
  | u16, chars => integerWord? u16 chars
  | i8, chars => integerWord? i8 chars
  | u8, chars => integerWord? u8 chars

/-- Reads a token. -/
def parse (k : Scalar) (token : String) : Except Error k.Word :=
  match k.read? token.toList with
  | some word => .ok word
  | none => .error (.malformedNumber token k)

/-! ### Blocks of values -/

/-- Reads every token; the first that stands for no value is reported. -/
def parseAll (k : Scalar) : List String → Except Error (List k.Word)
  | [] => .ok []
  | token :: rest => do
    let word ← k.parse token
    let words ← k.parseAll rest
    return word :: words

/-- The values of a text. -/
def readText (k : Scalar) (text : String) : Except Error (List k.Word) :=
  k.parseAll (words text)

/-- The bytes of values one after the other. -/
def bytesOf (k : Scalar) (values : List k.Word) : List UInt8 := values.flatMap k.toBytes

/-- Appends the values of tokens to `out`.  At a token that stands for no value, `out` is cut
back to its first `start` bytes.  `count` values have been appended before. -/
def encodeTokens (k : Scalar) (start count : Nat) :
    List String → List UInt8 → Except Error Nat × List UInt8
  | [], out => (.ok count, out)
  | token :: rest, out =>
    match k.parse token with
    | .ok word => k.encodeTokens start (count + 1) rest (out ++ k.toBytes word)
    | .error e => (.error e, out.take start)

/-- Appends the values of a text to `out`.  Gives the number of values, or the error and `out`
as it was. -/
def encodeInto (k : Scalar) (text : String) (out : List UInt8) : Except Error Nat × List UInt8 :=
  k.encodeTokens out.length 0 (words text) out

end Scalar

end MeshLayout
