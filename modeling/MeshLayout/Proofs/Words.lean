/-
MeshLayout/Proofs/Words.lean

The words of two texts, one behind the other.

Words are cut by a scan that carries the word it is in.  What it makes of the
first text is some words, and a word that it is still in (`splitWords_front`);
what it makes of the second depends on that word at its beginning only
(`splitWords_back`).  If a blank stands where the texts meet, or one of them is
empty, the words of both follow each other (`words_append`).  If not, the
last word of the first text and the first word of the second become one word
(`words_append_of_not_apart`).
-/
import MeshLayout.Text.Blank

namespace MeshLayout

/-- Where the texts meet, a blank keeps their words apart, or there is nothing on one side. -/
def Apart (text more : String) : Prop :=
  (∀ c ∈ text.toList.getLast?, isBlank c = true) ∨ ∀ c ∈ more.toList.head?, isBlank c = true

/-! ### Scanning on -/

variable {text more : String}

theorem splitWords_front (word chars : List Char) :
    ∃ (found : List (List Char)) (carried : List Char), ∀ rest,
      splitWords word (chars ++ rest) = found ++ splitWords carried rest := by
  induction chars generalizing word with
  | nil => exact ⟨[], word, fun _ => rfl⟩
  | cons c chars ih =>
    by_cases hc : isBlank c = true
    · obtain ⟨found, carried, h⟩ := ih []
      refine ⟨closeWord word ++ found, carried, fun rest => ?_⟩
      rw [List.cons_append, splitWords, if_pos hc, h, List.append_assoc]
    · obtain ⟨found, carried, h⟩ := ih (c :: word)
      refine ⟨found, carried, fun rest => ?_⟩
      rw [List.cons_append, splitWords, if_neg hc, h]

theorem splitWords_back (chars : List Char) :
    ∃ (first : List Char) (others : List (List Char)), ∀ word,
      splitWords word chars = closeWord (first.reverse ++ word) ++ others := by
  induction chars with
  | nil => exact ⟨[], [], fun word => (List.append_nil _).symm⟩
  | cons c chars ih =>
    by_cases hc : isBlank c = true
    · refine ⟨[], splitWords [] chars, fun word => ?_⟩
      rw [splitWords, if_pos hc]
      rfl
    · obtain ⟨first, others, h⟩ := ih
      refine ⟨c :: first, others, fun word => ?_⟩
      rw [splitWords, if_neg hc, h, List.reverse_cons, List.append_assoc]
      rfl

/-! ### Words -/

/-- **Words that are kept apart** follow each other. -/
theorem words_append (h : Apart text more) : words (text ++ more) = words text ++ words more := by
  rw [words, words, words, ← List.map_append, String.toList_append]
  congr 1
  rcases h with h | h
  · rcases htext : text.toList.getLast? with - | c
    · rw [List.getLast?_eq_none_iff.1 htext]
      rfl
    · obtain ⟨before, hbefore⟩ := List.getLast?_eq_some_iff.1 htext
      have hc := h c htext
      rw [hbefore, List.append_assoc, List.singleton_append, splitWords_append_blank _ _ _ hc,
        splitWords_append_blank _ _ _ hc]
      exact congrArg (· ++ _) (List.append_nil _).symm
  · rcases hmore : more.toList with - | ⟨c, rest⟩
    · rw [List.append_nil]
      exact (List.append_nil _).symm
    · have hc := h c (by rw [hmore]; rfl)
      rw [splitWords_append_blank _ _ _ hc, splitWords, if_pos hc]
      rfl

/-- **Words that are not kept apart** become one. -/
theorem words_append_of_not_apart (h : ¬ Apart text more) :
    ∃ (init : List String) (last first : String) (rest : List String),
      words text = init ++ [last] ∧ words more = first :: rest ∧
        words (text ++ more) = init ++ (last ++ first) :: rest := by
  obtain ⟨htext, hmore⟩ := not_or.1 h
  obtain ⟨c, hc⟩ := Classical.not_forall.1 htext
  obtain ⟨hlast, hc⟩ := Classical.not_imp.1 hc
  obtain ⟨d, hd⟩ := Classical.not_forall.1 hmore
  obtain ⟨hhead, hd⟩ := Classical.not_imp.1 hd
  obtain ⟨before, hbefore⟩ := List.getLast?_eq_some_iff.1 hlast
  obtain ⟨after, hafter⟩ := List.head?_eq_some_iff.1 hhead
  -- the scan is in a word at the end of the first text, and goes on with it in the second
  obtain ⟨found, carried, hfront⟩ := splitWords_front [] before
  obtain ⟨first, others, hback⟩ := splitWords_back after
  have hscan : ∀ rest, splitWords [] (before ++ c :: rest) =
      found ++ splitWords (c :: carried) rest := by
    intro rest
    rw [hfront, splitWords, if_neg hc]
  have hnext : ∀ word, splitWords word (d :: after) =
      closeWord (first.reverse ++ d :: word) ++ others := by
    intro word
    rw [splitWords, if_neg hd, hback]
  refine ⟨found.map String.ofList, String.ofList (c :: carried).reverse,
    String.ofList (d :: first), others.map String.ofList, ?_, ?_, ?_⟩
  · rw [words, hbefore, hscan, List.map_append]
    rfl
  · rw [words, hafter, hnext, List.map_append]
    simp [closeWord]
  · rw [words, String.toList_append, hbefore, hafter, List.append_assoc, List.singleton_append,
      hscan, hnext, ← String.ofList_append, List.map_append]
    simp [closeWord]

theorem words_append_ne_nil (h : words text ≠ []) : words (text ++ more) ≠ [] := by
  by_cases hapart : Apart text more
  · rw [words_append hapart]
    exact List.append_ne_nil_of_left_ne_nil h _
  · obtain ⟨init, last, first, rest, -, -, hboth⟩ := words_append_of_not_apart hapart
    rw [hboth]
    exact List.append_ne_nil_of_right_ne_nil _ (List.cons_ne_nil _ _)

end MeshLayout
