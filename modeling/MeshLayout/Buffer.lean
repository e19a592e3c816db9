/-
MeshLayout/Buffer.lean

Byte buffers for a graphics device, and typed reading from them.

A buffer is built by appending and frozen once complete; the bytes are kept
in memory order.  Reading takes a byte offset and a number of values and
gives the values if the whole range lies within the buffer, and nothing
otherwise.
-/
import MeshLayout.Scalar

namespace MeshLayout

/-- What a buffer is bound as. -/
inductive Target where
  /-- vertex attribute data -/
  | array
  /-- index data -/
  | elementArray
deriving DecidableEq

namespace Target

/-- Every target. -/
def all : List Target := [array, elementArray]

/-- The binding point code. -/
def code : Target → Nat
  | array => 34962
  | elementArray => 34963

/-- The name in listings. -/
def label : Target → String
  | array => "Array"
  | elementArray => "ElementArray"

/-- The target with the given code. -/
def ofCode (code : Nat) : Except UnknownCode Target :=
  match all.find? fun t => t.code = code with
  | some t => .ok t
  | none => .error .target

end Target

/-! ### Cutting bytes into values -/

/-- The first `count` pieces of `size` elements each. -/
def pieces {α : Type} (size : Nat) : (count : Nat) → List α → List (List α)
  | 0, _ => []
  | count + 1, items => items.take size :: pieces size count (items.drop size)

@[simp] theorem length_pieces {α : Type} (size count : Nat) (items : List α) :
    (pieces size count items).length = count := by
  induction count generalizing items with
  | zero => rfl
  | succ count ih => simp [pieces, ih]

theorem flatten_pieces {α : Type} (size count : Nat) (items : List α) :
    (pieces size count items).flatten = items.take (count * size) := by
  induction count generalizing items with
  | zero => simp [pieces]
  | succ count ih =>
    rw [pieces, List.flatten_cons, ih, Nat.succ_mul, Nat.add_comm, List.take_add]

theorem length_of_mem_pieces {α : Type} {size count : Nat} {items piece : List α}
    (h : count * size ≤ items.length) (hpiece : piece ∈ pieces size count items) :
    piece.length = size := by
  induction count generalizing items with
  | zero => cases hpiece
  | succ count ih =>
    rw [Nat.succ_mul] at h
    rcases List.mem_cons.1 hpiece with rfl | hpiece
    · rw [List.length_take]
      omega
    · refine ih ?_ hpiece
      rw [List.length_drop]
      omega

/-- Pieces that are there already are not changed by more behind them. -/
theorem pieces_append {α : Type} {size count : Nat} {items : List α}
    (h : count * size ≤ items.length) (rest : List α) :
    pieces size count (items ++ rest) = pieces size count items := by
  induction count generalizing items with
  | zero => rfl
  | succ count ih =>
    rw [Nat.succ_mul] at h
    rw [pieces, pieces, List.take_append_of_le_length (by omega),
      List.drop_append_of_le_length (by omega), ih]
    rw [List.length_drop]
    omega

/-- The first `count` values of a scalar type in the bytes, if there are that many. -/
def Scalar.ofByteList? (k : Scalar) (count : Nat) (bytes : List UInt8) : Option (List k.Word) :=
  (pieces k.size count bytes).mapM k.ofBytes?

/-! ### Buffers -/

/-- A complete buffer. -/
structure Buffer where
  target : Target
  bytes : List UInt8
deriving DecidableEq

namespace Buffer

/-- The number of bytes. -/
def length (buffer : Buffer) : Nat := buffer.bytes.length

/-- The `count` values of a scalar type that start `offset` bytes into the buffer, if all of
them lie within it. -/
def values? (buffer : Buffer) (k : Scalar) (offset count : Nat) : Option (List k.Word) :=
  if offset + count * k.size ≤ buffer.length then
    k.ofByteList? count (buffer.bytes.drop offset)
  else none

/-- The product of two addresses, if it is an address again. -/
def checkedMul (a b : UInt64) : Option UInt64 :=
  if a.toNat * b.toNat < UInt64.size then some (a * b) else none

/-- The sum of two addresses, if it is an address again. -/
def checkedAdd (a b : UInt64) : Option UInt64 :=
  if a.toNat + b.toNat < UInt64.size then some (a + b) else none

/-- `values?` for addresses of 64 bits.  A range that ends beyond the last address ends beyond
the buffer. -/
def read (buffer : Buffer) (k : Scalar) (offset count : UInt64) : Option (List k.Word) := do
  let length ← checkedMul count (UInt64.ofNat k.size)
  let _ ← checkedAdd length offset
  buffer.values? k offset.toNat count.toNat

end Buffer

end MeshLayout
