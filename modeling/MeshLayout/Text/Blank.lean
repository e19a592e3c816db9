/-
MeshLayout/Text/Blank.lean

Blank characters, and the words that stand between them.

A blank is a character with the Unicode property `White_Space`; there are
25 of them, so the class is given by its table.  Values in a mesh
description are separated by any run of blanks (`words`), numbers in the
attributes of a tag may be padded with blanks (`trim`), and text between
blocks must be blank (`IsBlank`).
-/
import MeshLayout.Text.CodeRange

namespace MeshLayout

/-- The characters with the Unicode property `White_Space`. -/
def blankRanges : CodeRanges :=
  [(0x9, 0xd), (0x20, 0x20), (0x85, 0x85), (0xa0, 0xa0), (0x1680, 0x1680), (0x2000, 0x200a),
   (0x2028, 0x2029), (0x202f, 0x202f), (0x205f, 0x205f), (0x3000, 0x3000)]

theorem blankRanges_wellFormed : blankRanges.wellFormed = true := by decide

theorem blankRanges_count : blankRanges.count = 25 := by decide

/-- Is the character blank? -/
def isBlank (c : Char) : Bool := blankRanges.contains c

/-! ### Words -/

/-- The word collected so far, last character first, unless it is empty. -/
def closeWord (word : List Char) : List (List Char) :=
  if word.isEmpty then [] else [word.reverse]

/-- Cuts the characters at every run of blanks.  `word` holds the characters since the last
blank, last character first. -/
def splitWords (word : List Char) : List Char → List (List Char)
  | [] => closeWord word
  | c :: rest =>
    if isBlank c then closeWord word ++ splitWords [] rest else splitWords (c :: word) rest

/-- The words of a text: its longest runs of characters that are not blank, in order. -/
def words (text : String) : List String :=
  (splitWords [] text.toList).map String.ofList

theorem splitWords_append_blank (word before after : List Char) {c : Char}
    (h : isBlank c = true) :
    splitWords word (before ++ c :: after) = splitWords word before ++ splitWords [] after := by
  induction before generalizing word with
  | nil => simp [splitWords, h]
  | cons d rest ih =>
    by_cases hd : isBlank d = true
    · simp [splitWords, hd, ih]
    · simp [splitWords, hd, ih]

theorem splitWords_nil_of_blank {chars : List Char} (h : ∀ c ∈ chars, isBlank c = true) :
    splitWords [] chars = [] := by
  induction chars with
  | nil => rfl
  | cons c rest ih =>
    have hc := h c (List.mem_cons_self ..)
    simp [splitWords, hc, closeWord, ih fun d hd => h d (List.mem_cons_of_mem _ hd)]

/-! ### Trimming -/

/-- The characters without the blanks at either end. -/
def trimBlanks (chars : List Char) : List Char :=
  ((chars.dropWhile isBlank).reverse.dropWhile isBlank).reverse

/-- The text without the blanks at either end. -/
def trim (text : String) : String := String.ofList (trimBlanks text.toList)

/-- A text is blank if trimming leaves nothing of it. -/
def isBlankText (text : String) : Bool := (trimBlanks text.toList).isEmpty

end MeshLayout
