/-
MeshLayout/Proofs/Encoding.lean

Values as bytes: what reading a block of text gives, and that the bytes
written for it read back.

`encodeInto` works in place, one token after the other, and takes back what
it has written when a token fails.  `encodeInto_eq` says that this comes to
the same as reading the whole text first (`readText`) and then appending
all bytes or none.

`Stored bytes offset content` says that `content` lies in a buffer at an
offset.  Appending to the buffer does not move it (`Stored.append`), and
values that are stored are read back (`Stored.values?_eq`).
-/
import MeshLayout.Scalar.Reading
import MeshLayout.Buffer

namespace MeshLayout

namespace Scalar

variable {k : Scalar}

/-! ### Reading every token -/

theorem parseAll_cons_of_ok {token : String} {word : k.Word} (h : k.parse token = .ok word)
    (rest : List String) : k.parseAll (token :: rest) = (k.parseAll rest).map (word :: ·) := by
  rw [parseAll, h]
  cases k.parseAll rest <;> rfl

theorem parseAll_cons_of_error {token : String} {e : Error} (h : k.parse token = .error e)
    (rest : List String) : k.parseAll (token :: rest) = .error e := by
  rw [parseAll, h]
  rfl

theorem parseAll_eq_ok_iff {tokens : List String} {values : List k.Word} :
    k.parseAll tokens = .ok values ↔ tokens.map k.parse = values.map .ok := by
  induction tokens generalizing values with
  | nil => cases values <;> simp [parseAll]
  | cons token rest ih =>
    rcases hw : k.parse token with e | word
    · rw [parseAll_cons_of_error hw]
      cases values <;> simp [hw]
    · rw [parseAll_cons_of_ok hw]
      cases values with
      | nil => cases k.parseAll rest <;> simp [Except.map]
      | cons value values =>
        rw [List.map_cons, List.map_cons, List.cons.injEq, hw, ← ih]
        cases k.parseAll rest <;> simp [Except.map]

theorem readText_eq_ok_iff {text : String} {values : List k.Word} :
    k.readText text = .ok values ↔ (words text).map k.parse = values.map .ok :=
  parseAll_eq_ok_iff

/-- A text has as many values as words. -/
theorem length_of_readText {text : String} {values : List k.Word}
    (h : k.readText text = .ok values) : values.length = (words text).length := by
  simpa using (congrArg List.length (readText_eq_ok_iff.1 h)).symm

/-- Tokens can be read if each of them can. -/
theorem exists_parseAll_iff {tokens : List String} :
    (∃ values, k.parseAll tokens = .ok values) ↔
      ∀ token ∈ tokens, ∃ word, k.parse token = .ok word := by
  induction tokens with
  | nil => simp [parseAll]
  | cons token rest ih =>
    rcases hw : k.parse token with e | word
    · simp [parseAll_cons_of_error, hw]
    · rw [parseAll_cons_of_ok hw, List.forall_mem_cons, ← ih]
      cases k.parseAll rest <;> simp [Except.map, hw]

/-- The first token that stands for no value is reported. -/
theorem parseAll_eq_error_iff {tokens : List String} {e : Error} :
    k.parseAll tokens = .error e ↔
      ∃ token, tokens.find? (fun token => (k.read? token.toList).isNone) = some token ∧
        .malformedNumber token k = e := by
  induction tokens with
  | nil => simp [parseAll]
  | cons token rest ih =>
    rcases hread : k.read? token.toList with - | word
    · have hparse : k.parse token = .error (.malformedNumber token k) := by rw [parse, hread]
      rw [parseAll_cons_of_error hparse, List.find?_cons_of_pos (by simp [hread])]
      simp
    · have hparse : k.parse token = .ok word := by rw [parse, hread]
      rw [parseAll_cons_of_ok hparse, List.find?_cons_of_neg (by simp [hread]), ← ih]
      cases k.parseAll rest <;> simp [Except.map]

/-! ### Writing in place -/

@[simp] theorem length_bytesOf (values : List k.Word) :
    (k.bytesOf values).length = values.length * k.size := by
  induction values with
  | nil => simp [bytesOf]
  | cons value rest ih =>
    rw [bytesOf, List.flatMap_cons, List.length_append, length_toBytes, ← bytesOf, ih,
      List.length_cons, Nat.succ_mul, Nat.add_comm]

/-- `written` is what the tokens before have added to `out`. -/
theorem encodeTokens_eq (tokens : List String) (out written : List UInt8) (count : Nat) :
    k.encodeTokens out.length count tokens (out ++ written) =
      match k.parseAll tokens with
      | .ok values => (.ok (count + values.length), out ++ written ++ k.bytesOf values)
      | .error e => (.error e, out) := by
  induction tokens generalizing written count with
  | nil => simp [encodeTokens, parseAll, bytesOf]
  | cons token rest ih =>
    rcases hw : k.parse token with e | word
    · -- all that was written is cut off again
      simp [encodeTokens, parseAll_cons_of_error, hw]
    · have step : k.encodeTokens out.length count (token :: rest) (out ++ written) =
          k.encodeTokens out.length (count + 1) rest (out ++ (written ++ k.toBytes word)) := by
        simp [encodeTokens, hw]
      rw [step, ih, parseAll_cons_of_ok hw]
      rcases k.parseAll rest with e | words
      · rfl
      · simp [Except.map, bytesOf, Nat.add_assoc, Nat.add_comm 1]

theorem encodeInto_eq (text : String) (out : List UInt8) :
    k.encodeInto text out =
      match k.readText text with
      | .ok values => (.ok values.length, out ++ k.bytesOf values)
      | .error e => (.error e, out) := by
  simpa [encodeInto, readText] using encodeTokens_eq (k := k) (words text) out [] 0

/-! ### Reading back -/

theorem ofByteList?_bytesOf (values : List k.Word) (after : List UInt8) :
    k.ofByteList? values.length (k.bytesOf values ++ after) = some values := by
  induction values with
  | nil => simp [ofByteList?, pieces]
  | cons value rest ih =>
    have first : (k.bytesOf (value :: rest) ++ after).take k.size = k.toBytes value := by
      simp [bytesOf]
    have others : (k.bytesOf (value :: rest) ++ after).drop k.size = k.bytesOf rest ++ after := by
      simp [bytesOf]
    rw [ofByteList?] at ih ⊢
    rw [List.length_cons, pieces, first, others, List.mapM_cons, ofBytes?_toBytes, ih]
    rfl

end Scalar

/-! ### Stored content -/

/-- The content lies in the bytes, from the given offset on. -/
def Stored (bytes : List UInt8) (offset : Nat) (content : List UInt8) : Prop :=
  ∃ before after, bytes = before ++ content ++ after ∧ before.length = offset

namespace Stored

variable {bytes content : List UInt8} {offset : Nat}

theorem last (bytes content : List UInt8) : Stored (bytes ++ content) bytes.length content :=
  ⟨bytes, [], by simp, rfl⟩

theorem append (h : Stored bytes offset content) (more : List UInt8) :
    Stored (bytes ++ more) offset content := by
  obtain ⟨before, after, rfl, hoffset⟩ := h
  exact ⟨before, after ++ more, by simp, hoffset⟩

theorem inside {buffer : Buffer} {k : Scalar} {values : List k.Word}
    (h : Stored buffer.bytes offset (k.bytesOf values)) :
    offset + values.length * k.size ≤ buffer.length := by
  obtain ⟨before, after, hbytes, rfl⟩ := h
  simp only [Buffer.length, hbytes, List.length_append, Scalar.length_bytesOf]
  omega

/-- Stored values are read back, whatever is stored around them. -/
theorem values?_eq {buffer : Buffer} {k : Scalar} {values : List k.Word}
    (h : Stored buffer.bytes offset (k.bytesOf values)) :
    buffer.values? k offset values.length = some values := by
  have inside := h.inside
  obtain ⟨before, after, hbytes, rfl⟩ := h
  have there : buffer.bytes.drop before.length = k.bytesOf values ++ after := by
    rw [hbytes, List.append_assoc, List.drop_left]
  rw [Buffer.values?, if_pos inside, there, Scalar.ofByteList?_bytesOf]

end Stored

/-! ### Addresses -/

namespace Buffer

theorem toNat_size (k : Scalar) : (UInt64.ofNat k.size).toNat = k.size := by cases k <;> rfl

/-- In a buffer that can be addressed with 64 bits, the checks of `read` never turn down a range
that lies within the buffer. -/
theorem read_eq_values? {buffer : Buffer} {k : Scalar} (h : buffer.length < UInt64.size)
    (offset count : UInt64) :
    buffer.read k offset count = buffer.values? k offset.toNat count.toNat := by
  have hsize := toNat_size k
  unfold read checkedMul checkedAdd
  by_cases hmul : count.toNat * k.size < UInt64.size
  · have hlength : (count * UInt64.ofNat k.size).toNat = count.toNat * k.size := by
      rw [UInt64.toNat_mul, hsize, Nat.mod_eq_of_lt hmul]
    by_cases hadd : count.toNat * k.size + offset.toNat < UInt64.size
    · simp [hsize, hmul, hlength, hadd]
    · -- the sum is no address, so the range ends beyond any buffer
      have beyond : ¬ offset.toNat + count.toNat * k.size ≤ buffer.length := by omega
      simp [hsize, hmul, values?, beyond]
  · -- not even the length is an address
    have beyond : ¬ offset.toNat + count.toNat * k.size ≤ buffer.length := by omega
    simp [hsize, hmul, values?, beyond]

end Buffer

end MeshLayout
