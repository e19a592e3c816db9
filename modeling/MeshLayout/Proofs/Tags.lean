/-
MeshLayout/Proofs/Tags.lean

What an opening tag says about its block.

A reader looks attributes up by their keys, trims a number and reads its
digits, and stops at the first attribute that is wrong.  Here the same is
told by how the tag is written: which value is the first under a key
(`FirstValue`), and where the digits of a number stand in it (`Numeral`).
Main result: `Header.ofTag_eq_ok_iff`.
-/
import Mathlib.Data.List.TakeWhile
import MeshLayout.Token.Reader

namespace MeshLayout

/-! ### Blanks around a text -/

/-- All characters are blank. -/
def IsBlank (chars : List Char) : Prop := ∀ c ∈ chars, isBlank c = true

instance (chars : List Char) : Decidable (IsBlank chars) :=
  decidable_of_iff (chars.all isBlank = true) List.all_eq_true

/-- Trimming takes nothing but blanks away. -/
theorem exists_eq_trimBlanks (chars : List Char) :
    ∃ before after, chars = before ++ trimBlanks chars ++ after ∧
      IsBlank before ∧ IsBlank after := by
  let inner := chars.dropWhile isBlank
  have hchars : chars = chars.takeWhile isBlank ++ inner := List.takeWhile_append_dropWhile.symm
  have hinner : inner = trimBlanks chars ++ (inner.reverse.takeWhile isBlank).reverse := by
    rw [trimBlanks, ← List.reverse_append, List.takeWhile_append_dropWhile, List.reverse_reverse]
  refine ⟨chars.takeWhile isBlank, (inner.reverse.takeWhile isBlank).reverse, ?_, ?_, ?_⟩
  · rw [List.append_assoc, ← hinner]
    exact hchars
  · exact fun c hc => List.mem_takeWhile_imp hc
  · exact fun c hc => List.mem_takeWhile_imp (List.mem_reverse.1 hc)

theorem isBlank_of_isDigit {c : Char} (h : c.isDigit = true) : isBlank c = false := by
  have hdigit : 48 ≤ c.toNat ∧ c.toNat ≤ 57 := by
    simpa [Char.isDigit, UInt32.le_iff_toNat_le] using h
  simp [isBlank, blankRanges, CodeRanges.contains]
  omega

theorem dropWhile_isBlank_of_digits {chars : List Char} (h : ∀ c ∈ chars, c.isDigit = true) :
    chars.dropWhile isBlank = chars := by
  rcases chars with - | ⟨c, rest⟩
  · rfl
  · have hc := isBlank_of_isDigit (h c (List.mem_cons_self ..))
    rw [List.dropWhile_cons, hc]
    rfl

/-- Digits are what trimming leaves of them. -/
theorem trimBlanks_of_digits {before digits after : List Char} (hbefore : IsBlank before)
    (hafter : IsBlank after) (hne : digits ≠ []) (hdigits : ∀ c ∈ digits, c.isDigit = true) :
    trimBlanks (before ++ digits ++ after) = digits := by
  have hleft : (before ++ digits ++ after).dropWhile isBlank = digits ++ after := by
    rw [List.append_assoc, List.dropWhile_append_of_pos hbefore]
    match digits, hne with
    | c :: rest, _ =>
      have hc := isBlank_of_isDigit (hdigits c (List.mem_cons_self ..))
      rw [List.cons_append, List.dropWhile_cons_of_neg (by simp [hc])]
  have hright : (after.reverse ++ digits.reverse).dropWhile isBlank = digits.reverse := by
    have hafter' : ∀ c ∈ after.reverse, isBlank c = true :=
      fun c hc => hafter c (List.mem_reverse.1 hc)
    have hdigits' : ∀ c ∈ digits.reverse, c.isDigit = true :=
      fun c hc => hdigits c (List.mem_reverse.1 hc)
    rw [List.dropWhile_append_of_pos hafter', dropWhile_isBlank_of_digits hdigits']
  rw [trimBlanks, hleft, List.reverse_append, hright, List.reverse_reverse]

theorem isBlankText_iff {text : String} : isBlankText text = true ↔ IsBlank text.toList := by
  rw [isBlankText, List.isEmpty_iff]
  constructor
  · intro hnil
    obtain ⟨before, after, hchars, hbefore, hafter⟩ := exists_eq_trimBlanks text.toList
    rw [hnil, List.append_nil] at hchars
    rw [hchars]
    exact List.forall_mem_append.2 ⟨hbefore, hafter⟩
  · intro hblank
    rw [trimBlanks, List.dropWhile_eq_nil_iff.2 hblank]
    rfl

/-! ### Numbers -/

/-- Decimal digits, between blanks, that stand for the number. -/
def Numeral (value : String) (n : UInt32) : Prop :=
  ∃ before digits after, value.toList = before ++ digits ++ after ∧
    IsBlank before ∧ IsBlank after ∧
    digits ≠ [] ∧ (∀ c ∈ digits, c.isDigit = true) ∧ Nat.ofDigitChars 10 digits 0 = n.toNat

theorem natural?_eq_some_iff {chars : List Char} {n : Nat} :
    natural? chars = some n ↔
      chars ≠ [] ∧ (∀ c ∈ chars, c.isDigit = true) ∧ Nat.ofDigitChars 10 chars 0 = n := by
  simp [natural?, and_assoc]

/-- A number in words is a numeral without blanks around it. -/
theorem numeral_toString (n : UInt32) : Numeral (toString n.toNat) n := by
  have hchars : (toString n.toNat).toList = Nat.toDigits 10 n.toNat := by
    rw [Nat.toString_eq_repr, Nat.toList_repr]
  have hne : Nat.toDigits 10 n.toNat ≠ [] := Nat.toDigits_ne_nil
  have hdigits : ∀ c ∈ Nat.toDigits 10 n.toNat, c.isDigit = true :=
    fun _ hc => Nat.isDigit_of_mem_toDigits (by decide) (by decide) hc
  refine ⟨[], Nat.toDigits 10 n.toNat, [], ?_, List.forall_mem_nil _, List.forall_mem_nil _, hne,
    hdigits, Nat.ofDigitChars_ten_toDigits⟩
  rw [hchars, List.nil_append, List.append_nil]

/-- A number is read if it is written as a numeral. -/
theorem natural?_trim_iff {value : String} {n : UInt32} :
    natural? (trim value).toList = some n.toNat ↔ Numeral value n := by
  rw [trim, String.toList_ofList, natural?_eq_some_iff]
  constructor
  · rintro ⟨hne, hdigits, hvalue⟩
    obtain ⟨before, after, hchars, hbefore, hafter⟩ := exists_eq_trimBlanks value.toList
    exact ⟨before, _, after, hchars, hbefore, hafter, hne, hdigits, hvalue⟩
  · rintro ⟨before, digits, after, hchars, hbefore, hafter, hne, hdigits, hvalue⟩
    rw [hchars, trimBlanks_of_digits hbefore hafter hne hdigits]
    exact ⟨hne, hdigits, hvalue⟩

theorem integer?_unsigned (chars : List Char) :
    integer? false chars = (natural? chars).map fun n => (n : Int) := by
  rw [integer?]
  · simp
  · simp

namespace Scalar

variable {k : Scalar}

theorem holds_natCast (hk : k.isSigned = false) {n : Nat} :
    k.holds n = true ↔ n < Nat.pow 2 (8 * k.size) := by
  rw [holds, if_neg (by simp [hk]), Bool.and_eq_true, decide_eq_true_iff, decide_eq_true_iff,
    Int.ofNat_lt]
  exact and_iff_right (Int.natCast_nonneg n)

/-- A word of an unsigned type is read from digits alone. -/
theorem integerWord?_eq_some_iff (hk : k.isSigned = false) {chars : List Char} {word : k.Word} :
    k.integerWord? chars = some word ↔ natural? chars = some word.toNat := by
  rw [integerWord?, hk, integer?_unsigned]
  rcases natural? chars with - | n
  · simp
  · show (if k.holds n = true then some (BitVec.ofInt _ n) else none) = _ ↔ _
    rw [Option.some.injEq]
    -- within the range, a number is its word; beyond it, no word is that large
    by_cases hn : n < Nat.pow 2 (8 * k.size)
    · have hvalue : (BitVec.ofNat (8 * k.size) n).toNat = n :=
        (BitVec.toNat_ofNat _ _).trans (Nat.mod_eq_of_lt hn)
      rw [if_pos ((holds_natCast hk).2 hn), Option.some.injEq, BitVec.ofInt_natCast,
        ← BitVec.toNat_inj, hvalue]
    · rw [if_neg fun hholds => hn ((holds_natCast hk).1 hholds)]
      constructor
      · intro h
        cases h
      · rintro rfl
        exact absurd word.isLt hn

theorem parse_eq_ok_iff {token : String} {word : k.Word} :
    k.parse token = .ok word ↔ k.read? token.toList = some word := by
  rw [parse]
  rcases k.read? token.toList with - | word'
  · simp
  · simp

theorem parse_u32_eq_ok_iff {token : String} {word : u32.Word} :
    u32.parse token = .ok word ↔ natural? token.toList = some word.toNat := by
  have hread : u32.read? token.toList = u32.integerWord? token.toList := rfl
  rw [← integerWord?_eq_some_iff rfl, parse_eq_ok_iff, hread]

end Scalar

/-! ### Attributes of a tag -/

/-- The tag gives the key this value, and no other before it. -/
def FirstValue (attributes : List (String × String)) (key value : String) : Prop :=
  ∃ before after, attributes = before ++ (key, value) :: after ∧ ∀ entry ∈ before, entry.1 ≠ key

/-- The first value that the tag gives the key is this number. -/
def FirstNumber (attributes : List (String × String)) (key : String) (n : UInt32) : Prop :=
  ∃ value, FirstValue attributes key value ∧ Numeral value n

theorem except_bind_eq_ok_iff {ε α β : Type} {first : Except ε α} {next : α → Except ε β} {b : β} :
    (first >>= next) = .ok b ↔ ∃ a, first = .ok a ∧ next a = .ok b := by
  rcases first with e | a
  · simp [bind, Except.bind]
  · simp [bind, Except.bind]

section Lookup

variable {tag : Element} {key : String} {attributes : List (String × String)}

theorem lookup_eq_ok_iff {value : String} :
    lookup tag key attributes = .ok value ↔ FirstValue attributes key value := by
  have hfind : lookup tag key attributes = .ok value ↔
      attributes.find? (fun entry => entry.1 = key) = some (key, value) := by
    rw [lookup]
    split
    · next entry hfound =>
      have hkey : entry.1 = key := by simpa using List.find?_some hfound
      rw [hfound, Option.some.injEq, Except.ok.injEq, Prod.ext_iff]
      exact (and_iff_right hkey).symm
    · next hnone =>
      rw [hnone]
      simp
  rw [hfind, List.find?_eq_some_iff_append]
  simp [FirstValue]

theorem lookupNumber_eq_ok_iff {n : UInt32} :
    lookupNumber tag key attributes = .ok n ↔ FirstNumber attributes key n := by
  have hword : ∀ value, (∃ word, Scalar.u32.parse (trim value) = .ok word ∧
      UInt32.ofNat word.toNat = n) ↔ Numeral value n := by
    intro value
    rw [← natural?_trim_iff]
    -- a word is narrow enough to be the number that it stands for
    constructor
    · rintro ⟨word, hparse, rfl⟩
      rw [UInt32.toNat_ofNat_of_lt' word.isLt]
      exact Scalar.parse_u32_eq_ok_iff.1 hparse
    · intro hnatural
      exact ⟨n.toBitVec, Scalar.parse_u32_eq_ok_iff.2 hnatural, UInt32.ofNat_toNat⟩
  simp only [lookupNumber, except_bind_eq_ok_iff, lookup_eq_ok_iff, pure, Except.pure,
    Except.ok.injEq, hword, FirstNumber]

end Lookup

namespace Header

/-- How the opening tag is written. -/
def Tagged (name : String) (attributes : List (String × String)) : Header → Prop
  | .attribute slot typeName components =>
    name = "attribute" ∧ FirstNumber attributes "index" slot ∧
      FirstValue attributes "type" typeName ∧ FirstNumber attributes "size" components
  | indices primitiveName typeName =>
    name = "indices" ∧ FirstValue attributes "cmd" primitiveName ∧
      FirstValue attributes "type" typeName
  | arrays primitiveName first count =>
    name = "arrays" ∧ FirstValue attributes "cmd" primitiveName ∧
      FirstNumber attributes "start" first ∧ FirstNumber attributes "count" count

theorem tagged_of_ofTag {name : String} {attributes : List (String × String)} {header : Header}
    (h : ofTag name attributes = .ok header) : header.Tagged name attributes := by
  rw [ofTag] at h
  by_cases hattribute : name = Element.attribute.name
  · rw [if_pos hattribute] at h
    simp only [except_bind_eq_ok_iff, lookup_eq_ok_iff, lookupNumber_eq_ok_iff] at h
    obtain ⟨slot, hslot, typeName, htype, components, hcomponents, hheader⟩ := h
    cases hheader
    exact ⟨hattribute, hslot, htype, hcomponents⟩
  rw [if_neg hattribute] at h
  by_cases hindices : name = Element.indices.name
  · rw [if_pos hindices] at h
    simp only [except_bind_eq_ok_iff, lookup_eq_ok_iff] at h
    obtain ⟨primitiveName, hprimitive, typeName, htype, hheader⟩ := h
    cases hheader
    exact ⟨hindices, hprimitive, htype⟩
  rw [if_neg hindices] at h
  by_cases harrays : name = Element.arrays.name
  · rw [if_pos harrays] at h
    simp only [except_bind_eq_ok_iff, lookup_eq_ok_iff, lookupNumber_eq_ok_iff] at h
    obtain ⟨primitiveName, hprimitive, first, hfirst, count, hcount, hheader⟩ := h
    cases hheader
    exact ⟨harrays, hprimitive, hfirst, hcount⟩
  -- no other tag opens a block
  rw [if_neg harrays] at h
  by_cases hmesh : name = Element.mesh.name
  · rw [if_pos hmesh] at h
    cases h
  · rw [if_neg hmesh] at h
    cases h

theorem ofTag_of_tagged {name : String} {attributes : List (String × String)} {header : Header}
    (h : header.Tagged name attributes) : ofTag name attributes = .ok header := by
  match header, h with
  | .attribute slot typeName components, ⟨hname, hslot, htype, hcomponents⟩ =>
    rw [ofTag, hname, if_pos (by rfl), lookupNumber_eq_ok_iff.2 hslot, lookup_eq_ok_iff.2 htype,
      lookupNumber_eq_ok_iff.2 hcomponents]
    rfl
  | .indices primitiveName typeName, ⟨hname, hprimitive, htype⟩ =>
    rw [ofTag, hname, if_neg (by decide), if_pos (by rfl), lookup_eq_ok_iff.2 hprimitive,
      lookup_eq_ok_iff.2 htype]
    rfl
  | .arrays primitiveName first count, ⟨hname, hprimitive, hfirst, hcount⟩ =>
    rw [ofTag, hname, if_neg (by decide), if_neg (by decide), if_pos (by rfl),
      lookup_eq_ok_iff.2 hprimitive, lookupNumber_eq_ok_iff.2 hfirst,
      lookupNumber_eq_ok_iff.2 hcount]
    rfl

/-- A tag is read if it is written as the header asks. -/
theorem ofTag_eq_ok_iff {name : String} {attributes : List (String × String)} {header : Header} :
    ofTag name attributes = .ok header ↔ header.Tagged name attributes :=
  ⟨tagged_of_ofTag, ofTag_of_tagged⟩

end Header

end MeshLayout
