/-
MeshLayout/LittleEndian.lean

Natural numbers as bytes, the least significant byte first.  Writing a
number in `size` bytes and reading it back gives the number modulo 256 to
the power `size`; reading and then writing gives the bytes again.
-/

namespace MeshLayout

namespace LittleEndian

/-- The last `size` bytes of a number, least significant first. -/
def encode : (size number : Nat) → List UInt8
  | 0, _ => []
  | size + 1, number => UInt8.ofNat (number % 256) :: encode size (number / 256)

/-- The number that bytes stand for. -/
def decode : List UInt8 → Nat
  | [] => 0
  | byte :: rest => byte.toNat + 256 * decode rest

@[simp] theorem length_encode (size number : Nat) : (encode size number).length = size := by
  induction size generalizing number with
  | zero => rfl
  | succ size ih => simp [encode, ih]

theorem decode_lt (bytes : List UInt8) : decode bytes < Nat.pow 256 bytes.length := by
  induction bytes with
  | nil => simp [decode]
  | cons byte rest ih =>
    have hbyte := byte.toNat_lt
    have hpow : Nat.pow 256 (rest.length + 1) = Nat.pow 256 rest.length * 256 := rfl
    rw [List.length_cons, hpow, decode]
    omega

theorem decode_encode (size number : Nat) (h : number < Nat.pow 256 size) :
    decode (encode size number) = number := by
  induction size generalizing number with
  | zero =>
    have hzero : number = 0 := Nat.lt_one_iff.1 h
    rw [hzero]
    rfl
  | succ size ih =>
    have hpow : Nat.pow 256 (size + 1) = Nat.pow 256 size * 256 := rfl
    rw [hpow] at h
    have low : (UInt8.ofNat (number % 256)).toNat = number % 256 := by
      simp
    simp only [encode, decode, low, ih (number / 256) (by omega)]
    omega

theorem encode_decode (bytes : List UInt8) : encode bytes.length (decode bytes) = bytes := by
  induction bytes with
  | nil => rfl
  | cons byte rest ih =>
    have small := byte.toNat_lt
    have low : (byte.toNat + 256 * decode rest) % 256 = byte.toNat := by omega
    have high : (byte.toNat + 256 * decode rest) / 256 = decode rest := by omega
    simp [encode, decode, low, high, ih]

end LittleEndian

end MeshLayout
