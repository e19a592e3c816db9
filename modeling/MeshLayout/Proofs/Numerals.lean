/-
MeshLayout/Proofs/Numerals.lean

The texts of numbers are read as these numbers.

Positional notation has only digits and a point in it, so it is read without
an exponent, as the decimal that it was made from (`digitsMagnitude?_toChars`).
The text of a finite number is the shortest decimal of its magnitude behind
its sign.  This decimal reads back, so the text does (`parse_text`).

There is no blank in such a text, so texts that are joined by blanks are
tokens again, and an attribute block with them holds the numbers.  Main
result: `floats_readBack`.
-/
import MeshLayout.Proofs.Acceptance
import MeshLayout.Proofs.Integers
import MeshLayout.Proofs.Readback
import MeshLayout.Proofs.Shortest

namespace MeshLayout

/-! ### Positional notation -/

theorem Digits.append_zeros {chars : List Char} {n : Nat} (h : Digits chars n) (count : Nat) :
    Digits (chars ++ List.replicate count '0') (n * 10 ^ count) := by
  refine ⟨List.append_ne_nil_of_left_ne_nil h.ne_nil _, ?_, ?_⟩
  · intro c hc
    rcases List.mem_append.1 hc with hc | hc
    · exact h.isDigit c hc
    · obtain rfl := List.eq_of_mem_replicate hc
      decide
  · rw [Nat.ofDigitChars_append, h.value_eq, Nat.ofDigitChars_replicate_zero, Nat.mul_comm]

theorem Digits.zeros_append {chars : List Char} {n : Nat} (h : Digits chars n) (count : Nat) :
    Digits (List.replicate count '0' ++ chars) n := by
  refine ⟨List.append_ne_nil_of_right_ne_nil _ h.ne_nil, ?_, ?_⟩
  · intro c hc
    rcases List.mem_append.1 hc with hc | hc
    · obtain rfl := List.eq_of_mem_replicate hc
      decide
    · exact h.isDigit c hc
  · rw [Nat.ofDigitChars_append, Nat.ofDigitChars_replicate_zero, Nat.mul_zero, h.value_eq]

namespace Decimal

/-- The decimal in positional notation, behind a minus sign if it is negative. -/
def signed (negative : Bool) (d : Decimal) : String :=
  String.ofList (if negative then '-' :: d.toChars else d.toChars)

variable {d : Decimal}

/-- Zeros stand behind the digits, up to the point. -/
theorem toChars_of_nonneg (h : 0 ≤ d.exponent) :
    Digits d.toChars (d.digits * 10 ^ d.exponent.toNat) := by
  rw [toChars, if_pos h]
  exact (digits_toDigits d.digits).append_zeros _

/-- A point stands among the digits, and digits on both sides of it. -/
theorem toChars_of_neg (h : d.exponent < 0) :
    ∃ whole fraction, d.toChars = whole ++ '.' :: fraction ∧ whole ≠ [] ∧
      Digits (whole ++ fraction) d.digits ∧ (fraction.length : Int) = -d.exponent := by
  obtain ⟨places, hplaces⟩ := Int.eq_ofNat_of_zero_le (Int.neg_nonneg_of_nonpos h.le)
  have hpadded := (digits_toDigits d.digits).zeros_append
    (places + 1 - (Nat.toDigits 10 d.digits).length)
  have hlength : places + 1 ≤ (List.replicate (places + 1 - (Nat.toDigits 10 d.digits).length) '0' ++
      Nat.toDigits 10 d.digits).length := by
    rw [List.length_append, List.length_replicate]
    omega
  simp only [toChars, if_neg (not_le.2 h), hplaces, Int.toNat_natCast]
  generalize List.replicate _ '0' ++ Nat.toDigits 10 d.digits = padded at hlength hpadded ⊢
  refine ⟨padded.take (padded.length - places), padded.drop (padded.length - places), ?_, ?_, ?_, ?_⟩
  · rw [List.append_assoc]
    rfl
  · rw [← List.length_pos_iff, List.length_take]
    omega
  · rw [List.take_append_drop]
    exact hpadded
  · rw [List.length_drop]
    omega

/-- It begins with a digit, and there is nothing but digits and a point in it. -/
theorem toChars_digits (d : Decimal) :
    (∃ c rest, d.toChars = c :: rest ∧ c.isDigit = true) ∧
      ∀ c ∈ d.toChars, c.isDigit = true ∨ c = '.' := by
  rcases lt_or_ge d.exponent 0 with h | h
  · obtain ⟨whole, fraction, hchars, hne, hdigits, -⟩ := toChars_of_neg h
    obtain ⟨hwhole, hfraction⟩ := List.forall_mem_append.1 hdigits.isDigit
    rw [hchars]
    constructor
    · obtain ⟨c, rest, rfl⟩ := List.exists_cons_of_ne_nil hne
      exact ⟨c, _, List.cons_append, hwhole c (List.mem_cons_self ..)⟩
    · intro c hc
      rcases List.mem_append.1 hc with hc | hc
      · exact .inl (hwhole c hc)
      · rcases List.mem_cons.1 hc with rfl | hc
        · exact .inr rfl
        · exact .inl (hfraction c hc)
  · have hdigits := toChars_of_nonneg h
    constructor
    · obtain ⟨c, rest, hchars⟩ := List.exists_cons_of_ne_nil hdigits.ne_nil
      exact ⟨c, rest, hchars, hdigits.isDigit c (by rw [hchars]; exact List.mem_cons_self ..)⟩
    · exact fun c hc => .inl (hdigits.isDigit c hc)

end Decimal

namespace Binary32

variable {chars : List Char} {n : Nat} {d : Decimal}

theorem digitsMagnitude?_digits (h : Digits chars n) :
    digitsMagnitude? chars = some (nearestDecimal n 0) := by
  have htake : chars.takeWhile Char.isDigit = chars := List.takeWhile_eq_self_iff.2 h.isDigit
  have hdrop : chars.dropWhile Char.isDigit = [] := List.dropWhile_eq_nil_iff.2 h.isDigit
  have hsplit : splitPoint chars = (chars, [], []) := by
    simp only [splitPoint, htake, hdrop]
  have hne : chars.isEmpty = false := by simpa using h.ne_nil
  simp only [digitsMagnitude?, hsplit, List.append_nil, hne, h.value_eq]
  rfl

theorem digitsMagnitude?_point {whole fraction : List Char} (h : Digits (whole ++ fraction) n) :
    digitsMagnitude? (whole ++ '.' :: fraction) =
      some (nearestDecimal n (-(fraction.length : Int))) := by
  obtain ⟨hwhole, hfraction⟩ := List.forall_mem_append.1 h.isDigit
  have htake : (whole ++ '.' :: fraction).takeWhile Char.isDigit = whole := by
    rw [List.takeWhile_append_of_pos hwhole, List.takeWhile_cons_of_neg (by decide), List.append_nil]
  have hdrop : (whole ++ '.' :: fraction).dropWhile Char.isDigit = '.' :: fraction := by
    rw [List.dropWhile_append_of_pos hwhole, List.dropWhile_cons_of_neg (by decide)]
  have hsplit : splitPoint (whole ++ '.' :: fraction) = (whole, fraction, []) := by
    simp only [splitPoint, htake, hdrop, List.takeWhile_eq_self_iff.2 hfraction,
      List.dropWhile_eq_nil_iff.2 hfraction]
  have hne : (whole ++ fraction).isEmpty = false := by simpa using h.ne_nil
  simp only [digitsMagnitude?, hsplit, hne, h.value_eq]
  show some (nearestDecimal n (0 - (fraction.length : Int))) = _
  rw [zero_sub]

/-- **Positional notation is read as the decimal that it was made from.** -/
theorem digitsMagnitude?_toChars (d : Decimal) :
    digitsMagnitude? d.toChars = some (nearestDecimal d.digits d.exponent) := by
  rcases lt_or_ge d.exponent 0 with h | h
  · obtain ⟨whole, fraction, hchars, -, hdigits, hlength⟩ := Decimal.toChars_of_neg h
    rw [hchars, digitsMagnitude?_point hdigits, hlength, neg_neg]
  · rw [digitsMagnitude?_digits (Decimal.toChars_of_nonneg h), nearestDecimal, nearestDecimal,
      if_pos (le_refl 0), if_pos h]
    simp [Nat.pow_eq]

/-! ### Signs -/

theorem ofNumeral?_minus (chars : List Char) :
    ofNumeral? ('-' :: chars) = (magnitude? chars).map (ofParts true) := rfl

theorem ofNumeral?_of_isDigit {c : Char} (h : c.isDigit = true) (rest : List Char) :
    ofNumeral? (c :: rest) = (magnitude? (c :: rest)).map (ofParts false) := by
  unfold ofNumeral?
  split
  · next heq =>
    cases heq
    cases h
  · next heq =>
    cases heq
    cases h
  · rfl

theorem ofParts_magnitude (x : Binary32) : ofParts x.isNegative x.magnitude = x := by
  have hlt := x.isLt
  apply BitVec.eq_of_toNat_eq
  rw [ofParts, BitVec.toNat_ofNat, isNegative, magnitude, signBit]
  by_cases h : 0x80000000 ≤ x.toNat
  · rw [decide_eq_true h, if_pos rfl]
    omega
  · rw [decide_eq_false h, if_neg Bool.false_ne_true]
    omega

theorem magnitude_ofParts {m : Nat} (negative : Bool) (h : m < signBit) :
    (ofParts negative m).magnitude = m := by
  rw [signBit] at h
  rw [magnitude, ofParts, BitVec.toNat_ofNat, signBit]
  cases negative with
  | true =>
    rw [if_pos rfl]
    omega
  | false =>
    rw [if_neg Bool.false_ne_true]
    omega

theorem ofNumeral?_signed (negative : Bool) (d : Decimal) :
    ofNumeral? (d.signed negative).toList =
      some (ofParts negative (nearestDecimal d.digits d.exponent)) := by
  have hmagnitude : magnitude? d.toChars = some (nearestDecimal d.digits d.exponent) := by
    rw [magnitude?, digitsMagnitude?_toChars, Option.some_or]
  rw [Decimal.signed, String.toList_ofList]
  cases negative with
  | true =>
    rw [if_pos rfl, ofNumeral?_minus, hmagnitude, Option.map_some]
  | false =>
    obtain ⟨⟨c, rest, hchars, hc⟩, -⟩ := d.toChars_digits
    rw [if_neg Bool.false_ne_true]
    rw [hchars] at hmagnitude ⊢
    rw [ofNumeral?_of_isDigit hc, hmagnitude, Option.map_some]

/-! ### The text of a number -/

variable {x : Binary32}

/-- A decimal behind the sign of a number is read as the number if it reads back. -/
theorem parse_signed_iff :
    Scalar.f32.parse (d.signed x.isNegative) = .ok x ↔ readsBack x.magnitude d = true := by
  have hbound : nearestDecimal d.digits d.exponent < signBit := by
    rw [nearestDecimal_eq]
    exact (nearest_le_infinity _ _).trans_lt (by decide)
  -- a word of the type is a number, but not in a form that `rw` can see
  have hparse : Scalar.f32.parse (d.signed x.isNegative) = .ok x ↔
      ofNumeral? (d.signed x.isNegative).toList = some x := Scalar.parse_eq_ok_iff
  rw [hparse, ofNumeral?_signed, readsBack_iff, Option.some.injEq]
  constructor
  · intro h
    rw [← magnitude_ofParts x.isNegative hbound, h]
  · intro h
    rw [h, ofParts_magnitude]

/-- **Decimals are read by rounding to nearest**, a tie to even. -/
theorem parse_signed_rounds (negative : Bool) (d : Decimal) :
    ∃ m, Scalar.f32.parse (d.signed negative) = .ok (ofParts negative m) ∧
      (m = infinity ↔ Beyond (infinity - 1) d.value) ∧ (m < infinity → Rounds d.value m) := by
  refine ⟨nearestDecimal d.digits d.exponent, Scalar.parse_eq_ok_iff.2 (ofNumeral?_signed ..), ?_⟩
  rw [nearestDecimal_eq, Decimal.value_eq]
  exact nearest_rounds (by positivity)

theorem text_eq_signed (hfinite : x.isFinite = true) :
    x.text = (shortest x.magnitude).signed x.isNegative := by
  have hlt : x.magnitude < infinity := of_decide_eq_true hfinite
  have hnumber : x.isNaN = false := decide_eq_false (lt_asymm hlt)
  simp only [text, toChars, hnumber, hfinite, Decimal.signed]
  rfl

/-- **The text of a finite number is read as the number.** -/
theorem parse_text (hfinite : x.isFinite = true) : Scalar.f32.parse x.text = .ok x := by
  rw [text_eq_signed hfinite, parse_signed_iff]
  exact readsBack_shortest (of_decide_eq_true hfinite)

/-- A signed decimal is a word: nothing in it is blank. -/
theorem isWord_signed (negative : Bool) (d : Decimal) : IsWord (d.signed negative) := by
  obtain ⟨⟨c, rest, hchars, -⟩, hdigits⟩ := d.toChars_digits
  have hblank : ∀ c ∈ d.toChars, isBlank c = false := by
    intro c hc
    rcases hdigits c hc with hdigit | rfl
    · exact isBlank_of_isDigit hdigit
    · decide
  have hne : d.toChars ≠ [] := by
    rw [hchars]
    exact List.cons_ne_nil _ _
  rw [IsWord, Decimal.signed, Ne, String.ofList_eq_empty_iff, String.toList_ofList]
  cases negative with
  | true =>
    rw [if_pos rfl]
    exact ⟨List.cons_ne_nil _ _, List.forall_mem_cons.2 ⟨by decide, hblank⟩⟩
  | false =>
    rw [if_neg Bool.false_ne_true]
    exact ⟨hne, hblank⟩

end Binary32

/-! ### Texts of numbers -/

/-- One attribute of one component and one command, in either order, make a mesh. -/
theorem compile_floats {options : Options} {slot first count : UInt32} {mode : Primitive}
    {numbers : List Binary32} {text : String} {blocks : List Block} (hne : numbers ≠ [])
    (hread : (words text).map Scalar.f32.parse = numbers.map .ok)
    (hblocks : blocks.Perm [.attribute slot "float" 1 text, .arrays mode.name first count]) :
    ∃ mesh, (compile options (.enterMesh :: (blocks.map .block ++ [.exitMesh]))).result = .ok mesh ∧
      mesh.readAttribute .f32 slot = some numbers := by
  have hdeclarations : declarations (.enterMesh :: (blocks.map .block ++ [.exitMesh])) =
      [⟨slot, "float", 1, text⟩] := by
    rw [declarations, blocksOf_description]
    exact List.perm_singleton.1 (hblocks.filterMap Block.declaration?)
  have hmem : ∀ block, block ∈ blocks ↔
      block = .attribute slot "float" 1 text ∨ block = .arrays mode.name first count := by
    intro block
    rw [hblocks.mem_iff]
    simp
  have haccepts : Scalar.f32.Accepts text :=
    Scalar.accepts_iff.2 ⟨numbers, Scalar.readText_eq_ok_iff.2 hread, hne⟩
  have hacceptable : Acceptable options (.enterMesh :: (blocks.map .block ++ [.exitMesh])) := by
    constructor
    · rw [blocksOf_description]
    · rw [blocksOf_description]
      exact ⟨_, (hmem _).2 (.inl rfl), rfl⟩
    · rw [blocksOf_description]
      exact ⟨_, (hmem _).2 (.inr rfl), rfl⟩
    · rw [blocksOf_description]
      intro block hblock
      rcases (hmem block).1 hblock with rfl | rfl
      · exact ⟨by decide, .float, rfl, haccepts⟩
      · exact ⟨mode, rfl⟩
    · -- a single attribute has nothing to agree with, and every count is whole
      rw [hdeclarations]
      constructor
      · intro _ d hd
        obtain rfl := List.mem_singleton.1 hd
        exact Nat.one_dvd _
      · simp
      · simp
  obtain ⟨mesh, hmesh⟩ := exists_compile_iff.2 hacceptable
  refine ⟨mesh, hmesh, ?_⟩
  obtain ⟨last, ⟨hattributes, -⟩, rfl⟩ := holds_of_compile hmesh
  rw [← declarations, hdeclarations] at hattributes
  apply (Mesh.readAttribute_eq_some_iff hattributes).2
  exact ⟨_, List.find?_cons_of_pos (by simp), rfl, hread⟩

/-- **Finite numbers survive in text.**  The text of a finite number is read as the number, bit by
bit; it has no exponent, and no decimal with fewer digits is read as the number.  A mesh with one
attribute whose text consists of such texts, and one command, compiles, and the attribute is read
back as the numbers. -/
theorem floats_readBack :
    (∀ x : Binary32, x.isFinite = true →
      Scalar.f32.parse x.text = .ok x ∧
      ∃ d : Decimal, x.text = d.signed x.isNegative ∧
        ∀ e : Decimal, Scalar.f32.parse (e.signed x.isNegative) = .ok x →
          (Nat.toDigits 10 d.digits).length ≤ (Nat.toDigits 10 e.digits).length) ∧
    ∀ (options : Options) (slot first count : UInt32) (mode : Primitive)
      (numbers : List Binary32) (text : String) (blocks : List Block), numbers ≠ [] →
      (∀ x ∈ numbers, x.isFinite = true) → Joined (numbers.map Binary32.text) text →
      blocks.Perm [.attribute slot "float" 1 text, .arrays mode.name first count] →
      ∃ mesh, (compile options (.enterMesh :: (blocks.map .block ++ [.exitMesh]))).result = .ok mesh ∧
        mesh.readAttribute .f32 slot = some numbers := by
  constructor
  · intro x hfinite
    refine ⟨Binary32.parse_text hfinite, _, Binary32.text_eq_signed hfinite, fun e he => ?_⟩
    exact Binary32.shortest_fewest (of_decide_eq_true hfinite) (Binary32.parse_signed_iff.1 he)
  · intro options slot first count mode numbers text blocks hne hfinite hjoined hblocks
    refine compile_floats hne ?_ hblocks
    have hwords := words_of_joined hjoined <| List.forall_mem_map.2 fun x hx => by
      rw [Binary32.text_eq_signed (hfinite x hx)]
      exact Binary32.isWord_signed _ _
    rw [hwords, List.map_map]
    exact List.map_congr_left fun x hx => Binary32.parse_text (hfinite x hx)

/-- The negative zero, the least positive number and the greatest one. -/
def extremeNumbers : List Binary32 := [0x80000000#32, 0x00000001#32, 0x7f7fffff#32]

/-- Their texts, between blanks of several kinds. -/
def extremeText : String :=
  "-0" ++ "\t\n" ++ ("0.000000000000000000000000000000000000000000001" ++ "\u2003" ++
    "340282350000000000000000000000000000000")

theorem joined_extremeText : Joined (extremeNumbers.map Binary32.text) extremeText := by
  have htexts : extremeNumbers.map Binary32.text =
      ["-0", "0.000000000000000000000000000000000000000000001", "340282350000000000000000000000000000000"] := by
    decide +kernel
  rw [htexts, extremeText]
  exact .cons _ (by decide) (.cons _ (by decide) (.singleton _))

/-- The command stands before the attribute. -/
def extremeBlocks : List Block :=
  [.arrays "points" 0 3, .attribute 7 "float" 1 extremeText]

theorem floats_readBack_extremeNumbers :
    extremeNumbers ≠ [] ∧ (∀ x ∈ extremeNumbers, x.isFinite = true) ∧
      (∀ x ∈ extremeNumbers, Scalar.f32.parse x.text = .ok x) ∧
      ∃ mesh, (compile .strict
          (.enterMesh :: (extremeBlocks.map .block ++ [.exitMesh]))).result = .ok mesh ∧
        mesh.readAttribute .f32 7 = some extremeNumbers := by
  have hne : extremeNumbers ≠ [] := List.cons_ne_nil _ _
  have hfinite : ∀ x ∈ extremeNumbers, x.isFinite = true := List.all_eq_true.1 (by decide +kernel)
  have hblocks : extremeBlocks.Perm
      [.attribute 7 "float" 1 extremeText, .arrays Primitive.points.name 0 3] := .swap _ _ []
  obtain ⟨hnumber, hlist⟩ := floats_readBack
  exact ⟨hne, hfinite, fun x hx => (hnumber x (hfinite x hx)).1,
    hlist .strict 7 0 3 .points extremeNumbers extremeText extremeBlocks hne hfinite
      joined_extremeText hblocks⟩

end MeshLayout
