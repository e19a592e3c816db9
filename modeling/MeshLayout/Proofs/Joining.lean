/-
MeshLayout/Proofs/Joining.lean

Texts of values with blanks between them.

Where one or more blanks stand between two texts, the words of both follow
each other (`words_join`), so tokens that are joined by blanks are read again
as these tokens (`words_of_joined`).

What is read from the joined text is what is read from the one and then from
the other; the first token that stands for no value decides.  Encoding works
in place and cuts off what it has written when a token fails, and it comes to
the same.  Main result: `encodeInto_join`.
-/
import MeshLayout.Proofs.Encoding
import MeshLayout.Proofs.Tags
import MeshLayout.Proofs.Words

namespace MeshLayout

/-! ### Gaps -/

/-- One or more blanks. -/
def IsGap (gap : String) : Prop := gap ≠ "" ∧ IsBlank gap.toList

instance (gap : String) : Decidable (IsGap gap) := inferInstanceAs (Decidable (_ ∧ _))

theorem splitWords_ne_nil {word : List Char} (h : word ≠ []) (chars : List Char) :
    splitWords word chars ≠ [] := by
  obtain ⟨first, others, hback⟩ := splitWords_back chars
  rw [hback, closeWord, if_neg (by simp [h])]
  exact List.cons_ne_nil _ _

/-- The two ways of looking for something that is not blank agree. -/
theorem words_eq_nil_iff {text : String} : words text = [] ↔ isBlankText text = true := by
  rw [isBlankText_iff, words, List.map_eq_nil_iff]
  refine ⟨fun h => ?_, splitWords_nil_of_blank⟩
  generalize text.toList = chars at h
  induction chars with
  | nil => exact List.forall_mem_nil _
  | cons c rest ih =>
    rw [splitWords] at h
    by_cases hc : isBlank c = true
    · rw [if_pos hc] at h
      exact List.forall_mem_cons.2 ⟨hc, ih h⟩
    · rw [if_neg hc] at h
      exact absurd h (splitWords_ne_nil (List.cons_ne_nil _ _) rest)

theorem IsGap.words_eq_nil {gap : String} (h : IsGap gap) : words gap = [] :=
  words_eq_nil_iff.2 (isBlankText_iff.2 h.2)

theorem IsGap.apart_left {gap : String} (h : IsGap gap) (text : String) : Apart text gap :=
  .inr fun c hc => h.2 c (List.mem_of_mem_head? hc)

theorem IsGap.apart_right {gap : String} (h : IsGap gap) (text more : String) :
    Apart (text ++ gap) more := by
  refine .inl fun c hc => h.2 c ?_
  have hne : gap.toList ≠ [] := by simpa using h.1
  rw [String.toList_append, List.getLast?_append, List.getLast?_eq_some_getLast hne] at hc
  cases hc
  exact List.getLast_mem hne

/-- **A gap keeps words apart.** -/
theorem words_join {gap : String} (h : IsGap gap) (text more : String) :
    words (text ++ gap ++ more) = words text ++ words more := by
  rw [words_append (h.apart_right text more), words_append (h.apart_left text), h.words_eq_nil,
    List.append_nil]

/-! ### Joined tokens -/

/-- The text is a single word. -/
def IsWord (text : String) : Prop := text ≠ "" ∧ ∀ c ∈ text.toList, isBlank c = false

theorem splitWords_of_no_blank {chars : List Char} (h : ∀ c ∈ chars, isBlank c = false)
    (word : List Char) : splitWords word chars = closeWord (chars.reverse ++ word) := by
  induction chars generalizing word with
  | nil => rfl
  | cons c rest ih =>
    obtain ⟨hc, hrest⟩ := List.forall_mem_cons.1 h
    rw [splitWords, if_neg (by simp [hc]), ih hrest, List.reverse_cons, List.append_assoc]
    rfl

theorem IsWord.words_eq {text : String} (h : IsWord text) : words text = [text] := by
  have hne : text.toList.reverse ≠ [] := by simpa using h.1
  rw [words, splitWords_of_no_blank h.2, List.append_nil, closeWord, if_neg (by simpa using hne)]
  simp

/-- The text consists of the tokens, with a gap between each and the next. -/
inductive Joined : List String → String → Prop
  | nil : Joined [] ""
  | singleton (token : String) : Joined [token] token
  | cons {gap next text : String} {rest : List String} (token : String) (hgap : IsGap gap)
      (hrest : Joined (next :: rest) text) : Joined (token :: next :: rest) (token ++ gap ++ text)

/-- **Joined tokens are read again.** -/
theorem words_of_joined {tokens : List String} {text : String} (h : Joined tokens text)
    (htokens : ∀ token ∈ tokens, IsWord token) : words text = tokens := by
  induction h with
  | nil => rfl
  | singleton token => exact (htokens token (List.mem_singleton_self _)).words_eq
  | cons token hgap _ ih =>
    obtain ⟨htoken, hrest⟩ := List.forall_mem_cons.1 htokens
    rw [words_join hgap, htoken.words_eq, ih hrest]
    rfl

/-! ### Reading joined texts -/

namespace Scalar

variable {k : Scalar} {text more gap : String}

theorem parseAll_append (tokens others : List String) :
    k.parseAll (tokens ++ others) = (do
      let values ← k.parseAll tokens
      let rest ← k.parseAll others
      return values ++ rest) := by
  induction tokens with
  | nil =>
    rw [List.nil_append, parseAll]
    rcases k.parseAll others with e | values <;> rfl
  | cons token tokens ih =>
    rw [List.cons_append]
    rcases hw : k.parse token with e | word
    · rw [parseAll_cons_of_error hw, parseAll_cons_of_error hw]
      rfl
    · rw [parseAll_cons_of_ok hw, parseAll_cons_of_ok hw, ih]
      rcases k.parseAll tokens with e | values
      · rfl
      · rcases k.parseAll others with e | rest <;> rfl

theorem readText_join (hgap : IsGap gap) :
    k.readText (text ++ gap ++ more) = (do
      let values ← k.readText text
      let rest ← k.readText more
      return values ++ rest) := by
  rw [readText, words_join hgap, parseAll_append]
  rfl

/-! ### Encoding joined texts -/

/-- What comes of encoding a text behind `out`: each token is a value and the bytes of all of them
have been added, or a first token is not, and nothing has. -/
inductive Encoded (k : Scalar) (text : String) (out : List UInt8) :
    Except Error Nat × List UInt8 → Prop
  | written {bytes : List UInt8} (htokens : ∀ token ∈ words text, ∃ word, k.parse token = .ok word)
      (hbytes : bytes.length = (words text).length * k.size) :
      Encoded k text out (.ok (words text).length, out ++ bytes)
  | refused {before after : List String} {token : String}
      (hwords : words text = before ++ token :: after)
      (hbefore : ∀ token ∈ before, ∃ word, k.parse token = .ok word)
      (htoken : ∀ word, k.parse token ≠ .ok word) :
      Encoded k text out (.error (.malformedNumber token k), out)

variable {out : List UInt8} {values others : List k.Word} {e : Error}

theorem exists_parse_iff {token : String} :
    (∃ word, k.parse token = .ok word) ↔ (k.read? token.toList).isNone = false := by
  simp only [parse_eq_ok_iff]
  rcases k.read? token.toList with - | word
  · simp
  · simp

theorem encodeInto_of_ok (h : k.readText text = .ok values) (out : List UInt8) :
    k.encodeInto text out = (.ok values.length, out ++ k.bytesOf values) := by
  rw [encodeInto_eq, h]

theorem encodeInto_of_error (h : k.readText text = .error e) (out : List UInt8) :
    k.encodeInto text out = (.error e, out) := by
  rw [encodeInto_eq, h]

/-- A text is encoded if it is read. -/
theorem exists_encodeInto_iff {out : List UInt8} :
    (∃ count, (k.encodeInto text out).1 = .ok count) ↔ ∃ values, k.readText text = .ok values := by
  rcases hread : k.readText text with e | values
  · simp [encodeInto_of_error hread]
  · simp [encodeInto_of_ok hread]

theorem encodeInto_encoded (k : Scalar) (text : String) (out : List UInt8) :
    k.Encoded text out (k.encodeInto text out) := by
  rcases hread : k.readText text with e | values
  · obtain ⟨token, hfind, rfl⟩ := parseAll_eq_error_iff.1 hread
    obtain ⟨hnone, before, after, hwords, hbefore⟩ := List.find?_eq_some_iff_append.1 hfind
    rw [encodeInto_of_error hread]
    refine .refused hwords (fun token' hmem => ?_) fun word hparse => ?_
    · exact exists_parse_iff.2 (by simpa using hbefore token' hmem)
    · rw [exists_parse_iff.1 ⟨word, hparse⟩] at hnone
      cases hnone
  · rw [encodeInto_of_ok hread, length_of_readText hread]
    refine .written (exists_parseAll_iff.1 ⟨values, hread⟩) ?_
    rw [length_bytesOf, length_of_readText hread]

/-- Nothing is counted in a blank text, and in no other. -/
theorem encodeInto_zero_iff :
    (k.encodeInto text out).1 = .ok 0 ↔ isBlankText text = true := by
  rw [← words_eq_nil_iff]
  constructor
  · intro h
    rcases hread : k.readText text with e | values
    · rw [encodeInto_of_error hread] at h
      cases h
    · rw [encodeInto_of_ok hread, Except.ok.injEq, length_of_readText hread] at h
      exact List.length_eq_zero_iff.1 h
  · intro h
    have hread : k.readText text = .ok [] := by rw [readText, h, parseAll]
    rw [encodeInto_of_ok hread]
    rfl

end Scalar

/-- **Encoding is all or nothing, and takes joined texts apart.**  Either the values of all tokens
are added, or nothing is and the error is about the first token that stands for no value; nothing
is counted in a blank text only.  Where a gap stands between two texts, both are encoded one behind
the other, and the error of the first counts before that of the second. -/
theorem encodeInto_join (k : Scalar) (out : List UInt8) :
    (∀ text, k.Encoded text out (k.encodeInto text out)) ∧
    (∀ text, (k.encodeInto text out).1 = .ok 0 ↔ isBlankText text = true) ∧
    ∀ text gap more, IsGap gap →
      ((∃ count, (k.encodeInto (text ++ gap ++ more) out).1 = .ok count) ↔
        (∃ count, (k.encodeInto text out).1 = .ok count) ∧
          ∃ count, (k.encodeInto more out).1 = .ok count) ∧
      (∀ m n bytes others, k.encodeInto text out = (.ok m, out ++ bytes) →
        k.encodeInto more out = (.ok n, out ++ others) →
        k.encodeInto (text ++ gap ++ more) out = (.ok (m + n), out ++ (bytes ++ others))) ∧
      (∀ e, (k.encodeInto text out).1 = .error e →
        (k.encodeInto (text ++ gap ++ more) out).1 = .error e) ∧
      ∀ m e, (k.encodeInto text out).1 = .ok m → (k.encodeInto more out).1 = .error e →
        (k.encodeInto (text ++ gap ++ more) out).1 = .error e := by
  refine ⟨fun text => k.encodeInto_encoded text out, fun text => Scalar.encodeInto_zero_iff, ?_⟩
  intro text gap more hgap
  have hjoin := @Scalar.readText_join k text more gap hgap
  rw [Scalar.exists_encodeInto_iff, Scalar.exists_encodeInto_iff, Scalar.exists_encodeInto_iff]
  rcases htext : k.readText text with e | values
  · -- the second text is not looked at
    rw [htext] at hjoin
    have hwhole : k.readText (text ++ gap ++ more) = .error e := hjoin
    rw [hwhole, Scalar.encodeInto_of_error htext, Scalar.encodeInto_of_error hwhole]
    simp
  rcases hmore : k.readText more with e | others
  · rw [htext, hmore] at hjoin
    have hwhole : k.readText (text ++ gap ++ more) = .error e := hjoin
    rw [hwhole, Scalar.encodeInto_of_ok htext, Scalar.encodeInto_of_error hmore,
      Scalar.encodeInto_of_error hwhole]
    simp
  · rw [htext, hmore] at hjoin
    have hwhole : k.readText (text ++ gap ++ more) = .ok (values ++ others) := hjoin
    rw [hwhole, Scalar.encodeInto_of_ok htext, Scalar.encodeInto_of_ok hmore,
      Scalar.encodeInto_of_ok hwhole]
    refine ⟨by simp, ?_, by simp, by simp⟩
    simp only [Prod.mk.injEq, Except.ok.injEq, List.append_cancel_left_eq]
    rintro m n bytes rest ⟨rfl, rfl⟩ ⟨rfl, rfl⟩
    exact ⟨List.length_append, List.flatMap_append⟩

/-- The numbers stand in a text and behind a blank of another kind each; the last is none. -/
theorem encodeInto_join_noBreak :
    IsGap "\u00a0\n" ∧
      Scalar.f32.encodeInto ("1 -0.5" ++ "\u00a0\n" ++ "2e-1") [7] =
        (.ok 3, [7, 0, 0, 128, 63, 0, 0, 0, 191, 205, 204, 76, 62]) ∧
      (Scalar.f32.encodeInto ("1 -0.5" ++ "\u00a0\n" ++ "2e") [7]).1 =
        .error (.malformedNumber "2e" .f32) := by
  have hgap : IsGap "\u00a0\n" := by decide
  have htext : Scalar.f32.encodeInto "1 -0.5" [7] = (.ok 2, [7] ++ [0, 0, 128, 63, 0, 0, 0, 191]) :=
    by decide +kernel
  have hmore : Scalar.f32.encodeInto "2e-1" [7] = (.ok 1, [7] ++ [205, 204, 76, 62]) := by
    decide +kernel
  have hwrong : (Scalar.f32.encodeInto "2e" [7]).1 = .error (.malformedNumber "2e" .f32) := by
    decide +kernel
  obtain ⟨-, hok, -, -⟩ := (encodeInto_join .f32 [7]).2.2 "1 -0.5" "\u00a0\n" "2e-1" hgap
  obtain ⟨-, -, -, herror⟩ := (encodeInto_join .f32 [7]).2.2 "1 -0.5" "\u00a0\n" "2e" hgap
  exact ⟨hgap, hok _ _ _ _ htext hmore, herror _ _ (congrArg Prod.fst htext) hwrong⟩

end MeshLayout
