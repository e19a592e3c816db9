/-
MeshLayout/Markup/Tag.lean

The name and the attributes of an opening tag.

The name ends at the first blank.  Behind it stand attributes, each a key,
an equals sign and a quoted value, with blanks anywhere around them.  Keys
may not repeat.  Like the document, the attributes are read once from left
to right by a machine.
-/
import MeshLayout.Markup.Piece
import MeshLayout.Markup.Reference

namespace MeshLayout

namespace Markup

/-- An opening tag. -/
structure Tag where
  name : String
  attributes : List (String × String)
  /-- the element has no content and no closing tag -/
  selfClosing : Bool
deriving DecidableEq

/-- Resolves the references of a text. -/
def resolveText (chars : List Char) : Except Error String :=
  match resolve chars with
  | .ok resolved => .ok (String.ofList resolved)
  | .error fault => .error (.reference fault)

/-! ### Attributes -/

/-- Where the machine stands in the attributes.  Characters read are kept last character
first. -/
inductive AttributeMode where
  | beforeKey
  /-- in a key that starts at the given position -/
  | inKey (start : Nat) (read : List Char)
  | beforeEquals (start : Nat) (key : List Char)
  | beforeValue (key : List Char)
  | inValue (key : List Char) (quote : Char) (read : List Char)
deriving DecidableEq

/-- A key, and the position of its first character. -/
abbrev PlacedKey := List Char × Nat

/-- A step of the machine: the next mode, the keys seen, and the attribute that is complete. -/
abbrev AttributeStep := Except Error (AttributeMode × List PlacedKey × Option (String × String))

namespace AttributeMode

/-- Ends a key at its equals sign. -/
def closeKey (seen : List PlacedKey) (start : Nat) (key : List Char) : AttributeStep :=
  match seen.find? fun placed => placed.1 = key with
  | some placed => .error (.attributes (.duplicate start placed.2))
  | none => .ok (beforeValue key, seen ++ [(key, start)], none)

/-- Reads a character. -/
def step (seen : List PlacedKey) (mode : AttributeMode) (position : Nat) (c : Char) :
    AttributeStep :=
  match mode with
  | beforeKey =>
    if isSpace c then .ok (beforeKey, seen, none) else .ok (inKey position [c], seen, none)
  | inKey start read =>
    if c = '=' then closeKey seen start read.reverse
    else if isSpace c then .ok (beforeEquals start read.reverse, seen, none)
    else .ok (inKey start (c :: read), seen, none)
  | beforeEquals start key =>
    if isSpace c then .ok (beforeEquals start key, seen, none)
    else if c = '=' then closeKey seen start key
    else .error (.attributes (.missingEquals position))
  | beforeValue key =>
    if isSpace c then .ok (beforeValue key, seen, none)
    else if c = '"' || c = '\'' then .ok (inValue key c [], seen, none)
    else .error (.attributes (.unquotedValue position))
  | inValue key quote read =>
    if c = quote then
      (resolveText read.reverse).map fun value =>
        (beforeKey, seen, some (String.ofList key, value))
    else .ok (inValue key quote (c :: read), seen, none)

/-- Ends the tag. -/
def finish (position : Nat) : AttributeMode → Except Error Unit
  | beforeKey => .ok ()
  | inKey .. => .error (.attributes (.missingEquals position))
  | beforeEquals .. => .error (.attributes (.missingEquals position))
  | beforeValue _ => .error (.attributes (.missingValue position))
  | inValue _ quote _ => .error (.attributes (.unclosedValue position quote))

end AttributeMode

/-- The attributes in the characters from the given position on.  Each is complete, with its
references resolved, before the next is read. -/
def attributesFrom (seen : List PlacedKey) (mode : AttributeMode) (position : Nat) :
    List Char → Except Error (List (String × String))
  | [] => do
    mode.finish position
    return []
  | c :: rest => do
    let (mode, seen, complete) ← mode.step seen position c
    let others ← attributesFrom seen mode (position + c.utf8Size) rest
    return complete.toList ++ others

/-! ### Tags -/

/-- Does the tag close itself? -/
def isSelfClosing (content : List Char) : Bool := content.getLast? = some '/'

/-- The tag without the slash that closes it. -/
def tagBody (content : List Char) : List Char :=
  if isSelfClosing content then content.dropLast else content

/-- The name of a tag. -/
def tagName (content : List Char) : String :=
  String.ofList (content.takeWhile fun c => !isSpace c)

/-- Reads the content of an opening tag. -/
def Tag.ofContent (content : List Char) : Except Error Tag := do
  let body := tagBody content
  let name := tagName body
  let rest := body.dropWhile fun c => !isSpace c
  let attributes ← attributesFrom [] .beforeKey name.utf8ByteSize rest
  return ⟨name, attributes, isSelfClosing content⟩

end Markup

end MeshLayout
