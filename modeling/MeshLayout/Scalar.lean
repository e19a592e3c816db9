/-
MeshLayout/Scalar.lean

Scalar types: what a single component of a vertex or of an index is made
of.  A value of a scalar type is a word of the type's width (`Word`), stored
with its least significant byte first.  The codes are the component type
codes of graphics interfaces.
-/
import MeshLayout.LittleEndian

namespace MeshLayout

/-- The type of a single component. -/
inductive Scalar where
  | f32 | i32 | u32 | i16 | u16 | i8 | u8
deriving DecidableEq

/-- A code that stands for nothing in its table. -/
inductive UnknownCode where
  | scalar | primitive | target
deriving DecidableEq

/-- The message about a code that stands for nothing. -/
def UnknownCode.message : UnknownCode → String
  | scalar => "invalid NumericKind value"
  | primitive => "invalid Mode value"
  | target => "invalid buffer target"

namespace Scalar

/-! ### The table -/

/-- Every scalar type. -/
def all : List Scalar := [f32, i32, u32, i16, u16, i8, u8]

/-- The name in messages. -/
def name : Scalar → String
  | f32 => "f32"
  | i32 => "i32"
  | u32 => "u32"
  | i16 => "i16"
  | u16 => "u16"
  | i8 => "i8"
  | u8 => "u8"

/-- The number of bytes of a value. -/
def size : Scalar → Nat
  | f32 | i32 | u32 => 4
  | i16 | u16 => 2
  | i8 | u8 => 1

/-- May a value be negative? -/
def isSigned : Scalar → Bool
  | f32 | i32 | i16 | i8 => true
  | u32 | u16 | u8 => false

/-- The component type code. -/
def code : Scalar → Nat
  | i8 => 5120
  | u8 => 5121
  | i16 => 5122
  | u16 => 5123
  | i32 => 5124
  | u32 => 5125
  | f32 => 5126

/-- The scalar type with the given code. -/
def ofCode (code : Nat) : Except UnknownCode Scalar :=
  match all.find? fun k => k.code = code with
  | some k => .ok k
  | none => .error .scalar

/-- The scalar type with the given name. -/
def ofName? (name : String) : Option Scalar := all.find? fun k => k.name = name

theorem size_pos (k : Scalar) : 0 < k.size := by cases k <;> decide

/-! ### Words -/

/-- A value of a scalar type. -/
abbrev Word (k : Scalar) : Type := BitVec (8 * k.size)

/-- The bytes of a value. -/
def toBytes (k : Scalar) (word : k.Word) : List UInt8 := LittleEndian.encode k.size word.toNat

/-- The value with the given bytes, if their number is right. -/
def ofBytes? (k : Scalar) (bytes : List UInt8) : Option k.Word :=
  if bytes.length = k.size then some (BitVec.ofNat _ (LittleEndian.decode bytes)) else none

@[simp] theorem length_toBytes (k : Scalar) (word : k.Word) :
    (k.toBytes word).length = k.size := by
  simp [toBytes]

theorem ofBytes?_toBytes (k : Scalar) (word : k.Word) :
    k.ofBytes? (k.toBytes word) = some word := by
  have bound : word.toNat < Nat.pow 256 k.size := by
    have h := word.isLt
    rwa [Nat.pow_mul] at h
  simp [ofBytes?, toBytes, LittleEndian.decode_encode k.size word.toNat bound]

theorem toBytes_of_ofBytes? {k : Scalar} {bytes : List UInt8} {word : k.Word}
    (h : k.ofBytes? bytes = some word) : k.toBytes word = bytes := by
  unfold ofBytes? at h
  split at h
  · next size =>
    obtain rfl := Option.some.inj h
    have bound : LittleEndian.decode bytes < 2 ^ (8 * k.size) := by
      rw [Nat.pow_mul, ← size]
      exact LittleEndian.decode_lt bytes
    rw [toBytes, BitVec.toNat_ofNat, Nat.mod_eq_of_lt bound, ← size]
    exact LittleEndian.encode_decode bytes
  · cases h

/-- The integer that a word of an integer type stands for. -/
def toInt (k : Scalar) (word : k.Word) : Int :=
  if k.isSigned then word.toInt else word.toNat

/-- Can an integer type represent the integer? -/
def holds (k : Scalar) (value : Int) : Bool :=
  if k.isSigned then
    -(Nat.pow 2 (8 * k.size - 1) : Int) ≤ value && value < Nat.pow 2 (8 * k.size - 1)
  else 0 ≤ value && value < Nat.pow 2 (8 * k.size)

end Scalar

end MeshLayout
