/-
MeshLayout/Proofs/Ranges.lean

Reading a range of a buffer, for every range that two addresses can name.

Reading succeeds if and only if the range lies within the buffer, its end
taken as the natural number that it is (`exists_values?_iff`).  What is read
are the values whose bytes lie there (`values?_eq_some_iff`), and there is
only one list of so many values with these bytes; so a range that is cut in
two is read in two (`values?_add`).

Main result: `read_exact`, the same for addresses of 64 bits.  It rests on
one thing only: a buffer has fewer bytes than there are addresses.  So a
product or a sum that is too large for an address is larger than the buffer,
and where the second part of a range starts is an address, because the first
part lies within the buffer (`toNat_behind`).
-/
import MeshLayout.Proofs.Encoding

namespace MeshLayout

variable {k : Scalar}

/-! ### Values and their bytes -/

namespace Scalar

theorem ofBytes?_eq_some_iff {bytes : List UInt8} {word : k.Word} :
    k.ofBytes? bytes = some word ↔ k.toBytes word = bytes :=
  ⟨toBytes_of_ofBytes?, fun h => h ▸ ofBytes?_toBytes k word⟩

/-- Pieces that are all read as values are the bytes of these values. -/
theorem map_toBytes_of_mapM {pieces : List (List UInt8)} {values : List k.Word}
    (h : pieces.mapM k.ofBytes? = some values) : values.map k.toBytes = pieces := by
  induction pieces generalizing values with
  | nil =>
    cases h
    rfl
  | cons piece pieces ih =>
    rw [List.mapM_cons] at h
    obtain ⟨word, hword, h⟩ := Option.bind_eq_some_iff.1 h
    obtain ⟨words, hwords, h⟩ := Option.bind_eq_some_iff.1 h
    cases h
    rw [List.map_cons, ofBytes?_eq_some_iff.1 hword, ih hwords]

/-- The values that are found are those whose bytes are there. -/
theorem ofByteList?_eq_some_iff {count : Nat} {bytes : List UInt8} {values : List k.Word} :
    k.ofByteList? count bytes = some values ↔
      values.length = count ∧ k.bytesOf values <+: bytes := by
  constructor
  · intro h
    have hpieces : values.map k.toBytes = pieces k.size count bytes := map_toBytes_of_mapM h
    constructor
    · rw [← length_pieces k.size count bytes, ← hpieces, List.length_map]
    · rw [bytesOf, List.flatMap_def, hpieces, flatten_pieces]
      exact List.take_prefix _ _
  · rintro ⟨rfl, after, rfl⟩
    exact ofByteList?_bytesOf values after

/-- Where there are enough bytes there are values. -/
theorem exists_ofByteList? {count : Nat} {bytes : List UInt8}
    (h : count * k.size ≤ bytes.length) : ∃ values, k.ofByteList? count bytes = some values := by
  induction count generalizing bytes with
  | zero => exact ⟨[], rfl⟩
  | succ count ih =>
    rw [Nat.succ_mul] at h
    have hfirst : (bytes.take k.size).length = k.size := by
      rw [List.length_take]
      omega
    have hothers : count * k.size ≤ (bytes.drop k.size).length := by
      rw [List.length_drop]
      omega
    obtain ⟨word, hword⟩ : ∃ word, k.ofBytes? (bytes.take k.size) = some word :=
      ⟨_, if_pos hfirst⟩
    obtain ⟨words, hwords⟩ := ih hothers
    refine ⟨word :: words, ?_⟩
    rw [ofByteList?] at hwords ⊢
    rw [pieces, List.mapM_cons, hword, hwords]
    rfl

theorem bytesOf_append (values others : List k.Word) :
    k.bytesOf (values ++ others) = k.bytesOf values ++ k.bytesOf others := List.flatMap_append

end Scalar

/-! ### Stored content -/

section

variable {bytes content more : List UInt8} {offset : Nat}

theorem stored_iff :
    Stored bytes offset content ↔ offset ≤ bytes.length ∧ content <+: bytes.drop offset := by
  constructor
  · rintro ⟨before, after, rfl, rfl⟩
    rw [List.append_assoc, List.drop_left, List.length_append]
    exact ⟨Nat.le_add_right _ _, List.prefix_append _ _⟩
  · rintro ⟨hoffset, after, hafter⟩
    refine ⟨bytes.take offset, after, ?_, by rw [List.length_take, Nat.min_eq_left hoffset]⟩
    rw [List.append_assoc, hafter, List.take_append_drop]

/-- Stored content is what the buffer has there. -/
theorem Stored.eq_take (h : Stored bytes offset content) :
    content = (bytes.drop offset).take content.length :=
  List.prefix_iff_eq_take.1 (stored_iff.1 h).2

/-- Content may be cut in two. -/
theorem stored_append_iff :
    Stored bytes offset (content ++ more) ↔
      Stored bytes offset content ∧ Stored bytes (offset + content.length) more := by
  constructor
  · rintro ⟨before, after, rfl, rfl⟩
    exact ⟨⟨before, more ++ after, by simp, rfl⟩, ⟨before ++ content, after, by simp, by simp⟩⟩
  · rintro ⟨⟨before, after, rfl, rfl⟩, hmore⟩
    rw [stored_iff, ← List.length_append, List.drop_left] at hmore
    obtain ⟨-, rest, rfl⟩ := hmore
    exact ⟨before, rest, by simp, rfl⟩

end

/-! ### Ranges within the buffer -/

namespace Buffer

variable {buffer : Buffer}

/-- **What is read** is what is stored there. -/
theorem values?_eq_some_iff {offset count : Nat} {values : List k.Word} :
    buffer.values? k offset count = some values ↔
      values.length = count ∧ Stored buffer.bytes offset (k.bytesOf values) := by
  constructor
  · intro h
    unfold values? at h
    split at h
    · next inside =>
      obtain ⟨hlength, hprefix⟩ := Scalar.ofByteList?_eq_some_iff.1 h
      exact ⟨hlength, stored_iff.2 ⟨Nat.le_trans (Nat.le_add_right _ _) inside, hprefix⟩⟩
    · cases h
  · rintro ⟨rfl, hstored⟩
    exact hstored.values?_eq

/-- **When something is read.** -/
theorem exists_values?_iff {offset count : Nat} :
    (∃ values, buffer.values? k offset count = some values) ↔
      offset + count * k.size ≤ buffer.length := by
  constructor
  · rintro ⟨values, h⟩
    obtain ⟨rfl, hstored⟩ := values?_eq_some_iff.1 h
    exact hstored.inside
  · intro inside
    rw [values?, if_pos inside]
    refine Scalar.exists_ofByteList? ?_
    have hbytes : buffer.bytes.length = buffer.length := rfl
    rw [List.length_drop]
    omega

/-- A range that is cut in two is read in two. -/
theorem values?_add {offset m n : Nat} {values : List k.Word} :
    buffer.values? k offset (m + n) = some values ↔
      ∃ front back, buffer.values? k offset m = some front ∧
        buffer.values? k (offset + m * k.size) n = some back ∧ values = front ++ back := by
  simp only [values?_eq_some_iff]
  constructor
  · rintro ⟨hlength, hstored⟩
    have hfront : (values.take m).length = m := by
      rw [List.length_take]
      omega
    have hback : (values.drop m).length = n := by
      rw [List.length_drop]
      omega
    rw [← List.take_append_drop m values, Scalar.bytesOf_append, stored_append_iff,
      Scalar.length_bytesOf, hfront] at hstored
    exact ⟨_, _, ⟨hfront, hstored.1⟩, ⟨hback, hstored.2⟩, (List.take_append_drop m values).symm⟩
  · rintro ⟨front, back, ⟨rfl, hfront⟩, ⟨rfl, hback⟩, rfl⟩
    rw [Scalar.bytesOf_append, stored_append_iff, Scalar.length_bytesOf]
    exact ⟨List.length_append, hfront, hback⟩

/-! ### Addresses -/

/-- What lies behind values of the buffer has an address. -/
theorem toNat_behind (haddress : buffer.length < UInt64.size) {offset count : UInt64}
    (inside : offset.toNat + count.toNat * k.size ≤ buffer.length) :
    (offset + count * UInt64.ofNat k.size).toNat = offset.toNat + count.toNat * k.size := by
  rw [UInt64.toNat_add, UInt64.toNat_mul, toNat_size, Nat.add_mod_mod]
  exact Nat.mod_eq_of_lt (Nat.lt_of_le_of_lt inside haddress)

/-- **Reading is exact**, in a buffer whose bytes have addresses.  It succeeds if and only if the
range lies within the buffer; a range that ends beyond the last address does not, and an empty range
at the end does.  Then there are as many values as asked for, their bytes are those of the range,
and they are those of the first part of the range followed by those of the second. -/
theorem read_exact (buffer : Buffer) (k : Scalar) (haddress : buffer.length < UInt64.size)
    (offset count : UInt64) :
    ((∃ values, buffer.read k offset count = some values) ↔
      offset.toNat + count.toNat * k.size ≤ buffer.length) ∧
    (UInt64.size ≤ offset.toNat + count.toNat * k.size → buffer.read k offset count = none) ∧
    (offset.toNat = buffer.length → buffer.read k offset 0 = some []) ∧
    (∀ values, buffer.read k offset count = some values → values.length = count.toNat ∧
      k.bytesOf values = (buffer.bytes.drop offset.toNat).take (count.toNat * k.size)) ∧
    ∀ m n values, count.toNat = m.toNat + n.toNat →
      (buffer.read k offset count = some values ↔
        ∃ front back, buffer.read k offset m = some front ∧
          buffer.read k (offset + m * UInt64.ofNat k.size) n = some back ∧
            values = front ++ back) := by
  simp only [read_eq_values? haddress]
  refine ⟨exists_values?_iff, fun hlarge => ?_, fun hend => ?_, fun values h => ?_, ?_⟩
  · rw [values?, if_neg]
    omega
  · rw [values?, if_pos (by rw [hend]; simp)]
    rfl
  · obtain ⟨hlength, hstored⟩ := values?_eq_some_iff.1 h
    rw [← hlength, ← Scalar.length_bytesOf]
    exact ⟨rfl, hstored.eq_take⟩
  · intro m n values hcount
    rw [hcount, values?_add]
    -- the second part is looked for only where the first lies within the buffer
    refine exists_congr fun front => exists_congr fun back => and_congr_right fun hfront => ?_
    rw [toNat_behind haddress (exists_values?_iff.1 ⟨front, hfront⟩)]

/-- Two patterns that are no numbers, with payloads, behind a single byte. -/
def oddPayloads : Buffer := ⟨.array, [7, 1, 0, 128, 127, 255, 255, 255, 255]⟩

theorem read_oddPayloads :
    oddPayloads.length < UInt64.size ∧
      oddPayloads.read .f32 1 2 = some ([0x7f800001#32] ++ [0xffffffff#32]) ∧
      Scalar.f32.bytesOf [0x7f800001#32, 0xffffffff#32] = (oddPayloads.bytes.drop 1).take 8 ∧
      oddPayloads.read .f32 9 0 = some [] ∧
      oddPayloads.read .f32 1 0x4000000000000002 = none ∧
      oddPayloads.read .u8 0xffffffffffffffff 2 = none := by
  have haddress : oddPayloads.length < UInt64.size := by decide
  obtain ⟨-, -, -, hbytes, hparts⟩ := read_exact oddPayloads .f32 haddress 1 2
  have hread : oddPayloads.read .f32 1 2 = some ([0x7f800001#32] ++ [0xffffffff#32]) :=
    (hparts 1 1 _ rfl).2 ⟨_, _, rfl, rfl, rfl⟩
  exact ⟨haddress, hread, (hbytes _ hread).2, (read_exact oddPayloads .f32 haddress 9 0).2.2.1 rfl,
    (read_exact oddPayloads .f32 haddress 1 0x4000000000000002).2.1 (by decide),
    (read_exact oddPayloads .u8 haddress 0xffffffffffffffff 2).2.1 (by decide)⟩

end Buffer

end MeshLayout
