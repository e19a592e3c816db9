/-
MeshLayout/Markup/Reference.lean

References in character data: `&name;` for one of five characters, `&#n;`
and `&#xn;` for the character with that number.

`resolve` replaces every reference of a text in one pass; what a reference
stands for is not looked at again.  `escape` writes the five characters as
references, so that resolving gives the text back.
-/
import MeshLayout.Markup.Error

namespace MeshLayout

namespace Markup

/-! ### Character numbers -/

/-- The value of a digit in bases up to sixteen. -/
def digitValue? (c : Char) : Option Nat :=
  if '0' ≤ c && c ≤ '9' then some (c.toNat - '0'.toNat)
  else if 'a' ≤ c && c ≤ 'f' then some (c.toNat - 'a'.toNat + 10)
  else if 'A' ≤ c && c ≤ 'F' then some (c.toNat - 'A'.toNat + 10)
  else none

/-- The number written by the digits after `value`; it must stay below 2^32. -/
def numberFrom (base value : Nat) : List Char → Except ReferenceFault Nat
  | [] => .ok value
  | c :: rest =>
    match digitValue? c with
    | none => .error .invalidDigit
    | some digit =>
      if base ≤ digit then .error .invalidDigit
      else if base * value + digit < 2 ^ 32 then numberFrom base (base * value + digit) rest
      else .error .numberTooLarge

/-- The number written in the given base. -/
def number (base : Nat) : List Char → Except ReferenceFault Nat
  | [] => .error .emptyNumber
  | '+' :: _ => .error .signedNumber
  | '-' :: _ => .error .signedNumber
  | digits => numberFrom base 0 digits

/-- The character of a numeric reference, given what stands behind its `#`. -/
def numberedCharacter (digits : List Char) : Except ReferenceFault Char := do
  let code ← match digits with
    | 'x' :: digits => number 16 digits
    | digits => number 10 digits
  if code = 0 then .error .nullCharacter
  else if code.isValidChar then .ok (Char.ofNat code)
  else .error (.invalidCodePoint code)

/-! ### References -/

/-- The character that a name stands for. -/
def entity? (name : List Char) : Option Char :=
  if name = "lt".toList then some '<'
  else if name = "gt".toList then some '>'
  else if name = "amp".toList then some '&'
  else if name = "apos".toList then some '\''
  else if name = "quot".toList then some '"'
  else none

/-- The character of the reference with the given name, which stands at `start`. -/
def referenced (start : Nat) (name : List Char) : Except ReferenceFault Char :=
  match name with
  | '#' :: digits => numberedCharacter digits
  | name =>
    match entity? name with
    | some c => .ok c
    | none =>
      let text := String.ofList name
      .error (.unknownEntity start (start + text.utf8ByteSize) text)

/-- The reference that is being read: where its ampersand stands, and the characters since
then, last character first. -/
abbrev OpenReference := Option (Nat × List Char)

/-- Resolves the references of a text of `total` bytes, from the given position on. -/
def resolveFrom (total : Nat) (reference : OpenReference) (position : Nat) :
    List Char → Except ReferenceFault (List Char)
  | [] =>
    match reference with
    | none => .ok []
    | some (start, _) => .error (.unterminated start total)
  | c :: rest =>
    let next := position + c.utf8Size
    match reference with
    | none =>
      if c = '&' then resolveFrom total (some (position, [])) next rest
      else (resolveFrom total none next rest).map fun resolved => c :: resolved
    | some (start, name) =>
      if c = ';' then do
        let character ← referenced (start + 1) name.reverse
        let resolved ← resolveFrom total none next rest
        return character :: resolved
      else if c = '&' then .error (.unterminated start total)
      else resolveFrom total (some (start, c :: name)) next rest

/-- The text that character data stands for. -/
def resolve (chars : List Char) : Except ReferenceFault (List Char) :=
  resolveFrom (String.ofList chars).utf8ByteSize none 0 chars

/-! ### Writing character data -/

/-- A character as character data or as part of an attribute value in either quotes. -/
def escapeChar (c : Char) : List Char :=
  if c = '<' then "&lt;".toList
  else if c = '>' then "&gt;".toList
  else if c = '&' then "&amp;".toList
  else if c = '\'' then "&apos;".toList
  else if c = '"' then "&quot;".toList
  else [c]

/-- A text as character data. -/
def escape (chars : List Char) : List Char := chars.flatMap escapeChar

end Markup

end MeshLayout
