/-
MeshLayout/Text/Quoted.lean

Quoted texts.  A message quotes the names and values it complains about, so
that blanks, line ends and invisible characters in them can be seen: quotes
and backslashes stand behind a backslash, four controls have a letter, and
every other character that is unprintable or combining is named by its
number, as in `\u{301}`.  All else stands for itself.
-/
import MeshLayout.Text.Unprintable
import MeshLayout.Text.Combining

namespace MeshLayout

/-- The number of a character between braces, in lower-case base sixteen without leading
zeros. -/
def numberedChar (c : Char) : List Char :=
  ['\\', 'u', '\x7b'] ++ Nat.toDigits 16 c.toNat ++ ['\x7d']

/-- How a character is written inside quotes. -/
def quotedChar (c : Char) : List Char :=
  match c with
  | '"' => ['\\', '"']
  | '\\' => ['\\', '\\']
  | '\n' => ['\\', 'n']
  | '\r' => ['\\', 'r']
  | '\t' => ['\\', 't']
  | '\x00' => ['\\', '0']
  | c => if isCombining c || isUnprintable c then numberedChar c else [c]

/-- The text between quotes. -/
def quoted (text : String) : String :=
  String.ofList (['"'] ++ text.toList.flatMap quotedChar ++ ['"'])

end MeshLayout
