/-
MeshLayout/Proofs/Integers.lean

Integers written in text.

`Writes` says which characters write an integer: decimal digits, as many as
one likes and with zeros in front, and a sign only for types that have
negative values.  A token is read if it writes an integer in the range of the
type, and the word that is read stands for this integer: nothing is cut off,
wrapped around or moved into the range (`integerWord?_iff_writes`).

Together with what is known about bytes, a text of such tokens is encoded as
exactly the integers that it writes.  Main result: `encodeInto_integers`.
-/
import Mathlib.Data.List.Forall2
import MeshLayout.Proofs.Joining

namespace MeshLayout

/-! ### Numerals -/

/-- One or more decimal digits that stand for the number. -/
structure Digits (chars : List Char) (n : Nat) : Prop where
  ne_nil : chars ≠ []
  isDigit : ∀ c ∈ chars, c.isDigit = true
  value_eq : Nat.ofDigitChars 10 chars 0 = n

/-- The characters write the integer in decimal. -/
inductive Writes (signed : Bool) : List Char → Int → Prop
  | digits {chars : List Char} {n : Nat} (h : Digits chars n) : Writes signed chars n
  | plus {chars : List Char} {n : Nat} (hsigned : signed = true) (h : Digits chars n) :
      Writes signed ('+' :: chars) n
  | minus {chars : List Char} {n : Nat} (hsigned : signed = true) (h : Digits chars n) :
      Writes signed ('-' :: chars) (-n)

variable {signed : Bool} {chars : List Char}

theorem natural?_eq_some_iff_digits {n : Nat} : natural? chars = some n ↔ Digits chars n :=
  natural?_eq_some_iff.trans ⟨fun h => ⟨h.1, h.2.1, h.2.2⟩, fun h => ⟨h.1, h.2, h.3⟩⟩

/-- Digits are read as such whether there may be a sign or not. -/
theorem integer?_of_digits {n : Nat} (h : Digits chars n) : integer? signed chars = some n := by
  have hnatural := natural?_eq_some_iff_digits.2 h
  unfold integer?
  split
  · exact absurd (h.isDigit '-' (List.mem_cons_self ..)) (by decide)
  · exact absurd (h.isDigit '+' (List.mem_cons_self ..)) (by decide)
  · rw [hnatural]
    rfl

theorem integer?_eq_some_iff {value : Int} :
    integer? signed chars = some value ↔ Writes signed chars value := by
  constructor
  · intro h
    unfold integer? at h
    split at h
    · next digits =>
      obtain ⟨n, hn, rfl⟩ : ∃ n : Nat, natural? digits = some n ∧ -(n : Int) = value := by
        rcases hread : natural? digits with - | n <;> simp [hread] at h ⊢
        exact h
      exact .minus rfl (natural?_eq_some_iff_digits.1 hn)
    · next digits =>
      obtain ⟨n, hn, rfl⟩ : ∃ n : Nat, natural? digits = some n ∧ (n : Int) = value := by
        rcases hread : natural? digits with - | n <;> simp [hread] at h ⊢
        exact h
      exact .plus rfl (natural?_eq_some_iff_digits.1 hn)
    · obtain ⟨n, hn, rfl⟩ : ∃ n : Nat, natural? chars = some n ∧ (n : Int) = value := by
        rcases hread : natural? chars with - | n <;> simp [hread] at h ⊢
        exact h
      exact .digits (natural?_eq_some_iff_digits.1 hn)
  · intro h
    cases h with
    | digits h => exact integer?_of_digits h
    | plus hsigned h =>
      rw [hsigned, integer?, natural?_eq_some_iff_digits.2 h]
      rfl
    | minus hsigned h =>
      rw [hsigned, integer?, natural?_eq_some_iff_digits.2 h]
      rfl

/-! ### Ranges -/

namespace Scalar

variable {k : Scalar}

/-- The values of the integer types. -/
def InRange : Scalar → Int → Prop
  | f32, _ => False
  | i32, value => -2147483648 ≤ value ∧ value ≤ 2147483647
  | u32, value => 0 ≤ value ∧ value ≤ 4294967295
  | i16, value => -32768 ≤ value ∧ value ≤ 32767
  | u16, value => 0 ≤ value ∧ value ≤ 65535
  | i8, value => -128 ≤ value ∧ value ≤ 127
  | u8, value => 0 ≤ value ∧ value ≤ 255

theorem holds_signed (hk : k.isSigned = true) {value : Int} :
    k.holds value = true ↔
      -(Nat.pow 2 (8 * k.size - 1) : Int) ≤ value ∧ value < Nat.pow 2 (8 * k.size - 1) := by
  rw [holds, if_pos hk, Bool.and_eq_true, decide_eq_true_iff, decide_eq_true_iff]

theorem holds_unsigned (hk : k.isSigned = false) {value : Int} :
    k.holds value = true ↔ 0 ≤ value ∧ value < Nat.pow 2 (8 * k.size) := by
  rw [holds, if_neg (by simp [hk]), Bool.and_eq_true, decide_eq_true_iff, decide_eq_true_iff]

theorem holds_iff (hk : k ≠ f32) {value : Int} : k.holds value = true ↔ k.InRange value := by
  cases k with
  | f32 => exact absurd rfl hk
  | i32 | i16 | i8 =>
    rw [holds_signed rfl, Nat.pow_eq, size, InRange]
    omega
  | u32 | u16 | u8 =>
    rw [holds_unsigned rfl, Nat.pow_eq, size, InRange]
    omega

/-- A word stands for an integer in the range of its type. -/
theorem holds_toInt (word : k.Word) : k.holds (k.toInt word) = true := by
  rcases hk : k.isSigned with - | -
  · rw [holds_unsigned hk, toInt, if_neg (by simp [hk])]
    exact ⟨Int.natCast_nonneg _, Int.ofNat_lt.2 word.isLt⟩
  · have hpow : ((Nat.pow 2 (8 * k.size - 1) : Nat) : Int) = 2 ^ (8 * k.size - 1) :=
      Int.natCast_pow 2 _
    rw [holds_signed hk, toInt, if_pos hk, hpow]
    exact ⟨BitVec.le_toInt word, BitVec.toInt_lt⟩

/-- An integer in the range is what its word stands for. -/
theorem toInt_ofInt {value : Int} (h : k.holds value = true) :
    k.toInt (BitVec.ofInt _ value) = value := by
  rcases hk : k.isSigned with - | -
  · obtain ⟨hle, hlt⟩ := (holds_unsigned hk).1 h
    obtain ⟨n, rfl⟩ := Int.eq_ofNat_of_zero_le hle
    have hmod : n % 2 ^ (8 * k.size) = n := Nat.mod_eq_of_lt (Int.ofNat_lt.1 hlt)
    rw [toInt, if_neg (by simp [hk]), BitVec.ofInt_natCast, BitVec.toNat_ofNat, hmod]
  · have hpow : ((Nat.pow 2 (8 * k.size - 1) : Nat) : Int) = 2 ^ (8 * k.size - 1) :=
      Int.natCast_pow 2 _
    have hpos : 0 < 8 * k.size := Nat.mul_pos (by decide) k.size_pos
    obtain ⟨hle, hlt⟩ := (holds_signed hk).1 h
    rw [hpow] at hle hlt
    rw [toInt, if_pos hk]
    exact BitVec.toInt_ofInt_eq_self hpos hle hlt

theorem ofInt_toInt (word : k.Word) : BitVec.ofInt _ (k.toInt word) = word := by
  rw [toInt]
  split
  · exact BitVec.ofInt_toInt
  · rw [BitVec.ofInt_natCast, BitVec.ofNat_toNat, BitVec.setWidth_eq]

/-! ### Tokens -/

theorem integerWord?_iff_writes {word : k.Word} :
    k.integerWord? chars = some word ↔ Writes k.isSigned chars (k.toInt word) := by
  rw [← integer?_eq_some_iff, integerWord?]
  constructor
  · intro h
    obtain ⟨value, hvalue, hword⟩ := Option.bind_eq_some_iff.1 h
    by_cases hholds : k.holds value = true
    · rw [if_pos hholds, Option.some.injEq] at hword
      rw [hvalue, ← hword, toInt_ofInt hholds]
    · rw [if_neg hholds] at hword
      cases hword
  · intro h
    show (integer? k.isSigned chars).bind _ = _
    rw [h, Option.bind_some, if_pos (holds_toInt word), ofInt_toInt]

/-- **A token of an integer type is read as the integer that it writes.** -/
theorem parse_eq_ok_iff_writes (hk : k ≠ f32) {token : String} {word : k.Word} :
    k.parse token = .ok word ↔ Writes k.isSigned token.toList (k.toInt word) := by
  have hread : k.read? token.toList = k.integerWord? token.toList := by
    cases k with
    | f32 => exact absurd rfl hk
    | i32 | u32 | i16 | u16 | i8 | u8 => rfl
  rw [← integerWord?_iff_writes, parse_eq_ok_iff, hread]

theorem exists_parse_iff_writes (hk : k ≠ f32) {token : String} :
    (∃ word, k.parse token = .ok word) ↔
      ∃ value, Writes k.isSigned token.toList value ∧ k.InRange value := by
  constructor
  · rintro ⟨word, hparse⟩
    exact ⟨_, (parse_eq_ok_iff_writes hk).1 hparse, (holds_iff hk).1 (holds_toInt word)⟩
  · rintro ⟨value, hwrites, hrange⟩
    refine ⟨BitVec.ofInt _ value, (parse_eq_ok_iff_writes hk).2 ?_⟩
    rwa [toInt_ofInt ((holds_iff hk).2 hrange)]

/-- Tokens that write integers are read as the words that stand for these. -/
theorem exists_words (hk : k ≠ f32) {tokens : List String} {values : List Int}
    (h : List.Forall₂ (fun token value => Writes k.isSigned token.toList value ∧ k.InRange value)
      tokens values) :
    ∃ items : List k.Word, tokens.map k.parse = items.map .ok ∧ items.map k.toInt = values := by
  induction h with
  | nil => exact ⟨[], rfl, rfl⟩
  | @cons token value _ _ hfirst _ ih =>
    obtain ⟨items, hparse, hvalues⟩ := ih
    have hvalue : k.toInt (BitVec.ofInt _ value) = value := toInt_ofInt ((holds_iff hk).2 hfirst.2)
    have hfirst' : k.parse token = .ok (BitVec.ofInt _ value) :=
      (parse_eq_ok_iff_writes hk).2 (by rw [hvalue]; exact hfirst.1)
    refine ⟨BitVec.ofInt _ value :: items, ?_, ?_⟩
    · rw [List.map_cons, List.map_cons, hfirst', hparse]
    · rw [List.map_cons, hvalue, hvalues]

theorem encodeInto_readsBack {text : String} {items : List k.Word}
    (h : k.readText text = .ok items) (out : List UInt8) :
    ∃ bytes, k.encodeInto text out = (.ok items.length, out ++ bytes) ∧
      bytes.length = items.length * k.size ∧
      k.ofByteList? items.length bytes = some items := by
  have hread := ofByteList?_bytesOf items []
  rw [List.append_nil] at hread
  exact ⟨k.bytesOf items, encodeInto_of_ok h out, length_bytesOf items, hread⟩

/-! ### Writing integers -/

theorem isSigned_or_nonneg (word : k.Word) : k.isSigned = true ∨ 0 ≤ k.toInt word := by
  rcases hk : k.isSigned with - | -
  · exact .inr ((holds_unsigned hk).1 (holds_toInt word)).1
  · exact .inl rfl

end Scalar

theorem digits_toDigits (n : Nat) : Digits (Nat.toDigits 10 n) n :=
  ⟨Nat.toDigits_ne_nil, fun _ hc => Nat.isDigit_of_mem_toDigits (by decide) (by decide) hc,
    Nat.ofDigitChars_ten_toDigits⟩

/-- The decimal form of an integer writes it, if negative ones may be written. -/
theorem writes_toString {value : Int} (h : signed = true ∨ 0 ≤ value) :
    Writes signed (toString value).toList value := by
  cases value with
  | ofNat n =>
    have hchars : (toString (Int.ofNat n)).toList = Nat.toDigits 10 n := Nat.toList_repr
    rw [hchars]
    exact .digits (digits_toDigits n)
  | negSucc n =>
    have hchars : (toString (Int.negSucc n)).toList = '-' :: Nat.toDigits 10 (n + 1) := by
      show ("-" ++ Nat.repr (n + 1)).toList = _
      rw [String.toList_append, Nat.toList_repr]
      rfl
    rw [hchars]
    exact .minus (h.resolve_right (by omega)) (digits_toDigits (n + 1))

theorem Writes.isWord {token : String} {value : Int} (h : Writes signed token.toList value) :
    IsWord token := by
  generalize hchars : token.toList = chars at h
  refine ⟨?_, ?_⟩
  · rintro rfl
    cases h with
    | digits h => exact h.ne_nil hchars.symm
    | plus | minus => cases hchars
  · rw [hchars]
    cases h with
    | digits h => exact fun c hc => isBlank_of_isDigit (h.isDigit c hc)
    | plus _ h | minus _ h =>
      exact List.forall_mem_cons.2 ⟨by decide, fun c hc => isBlank_of_isDigit (h.isDigit c hc)⟩

/-! ### Texts of integers -/

/-- **Integer text is encoded exactly.**  A text is encoded if and only if each of its tokens
writes an integer in the range of the type.  The bytes that are added are then those of exactly
these integers, in order; and a list of values is read back from its decimal forms, whatever
blanks there are between them. -/
theorem encodeInto_integers {k : Scalar} (hk : k ≠ .f32) (text : String) (out : List UInt8) :
    ((∃ count, (k.encodeInto text out).1 = .ok count) ↔
      ∀ token ∈ words text, ∃ value, Writes k.isSigned token.toList value ∧ k.InRange value) ∧
    (∀ values,
      List.Forall₂ (fun token value => Writes k.isSigned token.toList value ∧ k.InRange value)
        (words text) values →
      ∃ bytes items, k.encodeInto text out = (.ok values.length, out ++ bytes) ∧
        bytes.length = values.length * k.size ∧
        k.ofByteList? values.length bytes = some items ∧ items.map k.toInt = values) ∧
    ∀ items : List k.Word, Joined (items.map fun word => toString (k.toInt word)) text →
      ∃ bytes, k.encodeInto text out = (.ok items.length, out ++ bytes) ∧
        bytes.length = items.length * k.size ∧
        k.ofByteList? items.length bytes = some items := by
  refine ⟨?_, fun values hvalues => ?_, fun items hjoined => ?_⟩
  · rw [Scalar.exists_encodeInto_iff, Scalar.readText, Scalar.exists_parseAll_iff]
    exact forall₂_congr fun token _ => Scalar.exists_parse_iff_writes hk
  · obtain ⟨items, hparse, rfl⟩ := Scalar.exists_words hk hvalues
    obtain ⟨bytes, hencode, hlength, hread⟩ :=
      Scalar.encodeInto_readsBack (Scalar.readText_eq_ok_iff.2 hparse) out
    rw [List.length_map]
    exact ⟨bytes, items, hencode, hlength, hread, rfl⟩
  · have hwrites : ∀ word : k.Word,
        Writes k.isSigned (toString (k.toInt word)).toList (k.toInt word) :=
      fun word => writes_toString (Scalar.isSigned_or_nonneg word)
    -- no decimal form has a blank in it, so the text has these words
    have hwords := words_of_joined hjoined (List.forall_mem_map.2 fun word _ => (hwrites word).isWord)
    have hread : k.readText text = .ok items := by
      rw [Scalar.readText_eq_ok_iff, hwords, List.map_map]
      exact List.map_congr_left fun word _ => (Scalar.parse_eq_ok_iff_writes hk).2 (hwrites word)
    exact Scalar.encodeInto_readsBack hread out

/-- The extreme values, one behind a sign and with zeros in front, and a text that goes too far. -/
theorem encodeInto_extremes :
    Scalar.i8 ≠ .f32 ∧
      (∃ bytes, Scalar.i8.encodeInto "-128\t+007 127" [9] = (.ok 3, [9] ++ bytes) ∧
        (Scalar.i8.ofByteList? 3 bytes).map (List.map Scalar.i8.toInt) = some [-128, 7, 127]) ∧
      ¬ ∃ count, (Scalar.i8.encodeInto "128" [9]).1 = .ok count := by
  have hi8 : Scalar.i8 ≠ .f32 := by decide
  refine ⟨hi8, ?_, ?_⟩
  · obtain ⟨-, hvalues, -⟩ := encodeInto_integers hi8 "-128\t+007 127" [9]
    have hwrites : ∀ {token : String} {value : Int},
        integer? true token.toList = some value → Writes true token.toList value :=
      integer?_eq_some_iff.1
    obtain ⟨bytes, items, hencode, -, hread, hitems⟩ := hvalues [-128, 7, 127]
      (.cons ⟨hwrites rfl, by decide, by decide⟩ (.cons ⟨hwrites rfl, by decide, by decide⟩
        (.cons ⟨hwrites rfl, by decide, by decide⟩ .nil)))
    have hread' : Scalar.i8.ofByteList? 3 bytes = some items := hread
    refine ⟨bytes, hencode, ?_⟩
    rw [hread', Option.map_some, hitems]
  · rw [(encodeInto_integers hi8 "128" [9]).1]
    intro htokens
    obtain ⟨value, hwrites, -, hle⟩ := htokens "128" (by decide)
    obtain rfl : 128 = value := Option.some.inj (integer?_eq_some_iff.2 hwrites)
    exact absurd hle (by decide)

end MeshLayout
